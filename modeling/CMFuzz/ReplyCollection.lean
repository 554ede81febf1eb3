import CMFuzz.VectorGeneration

/-!
# Collecting the replies of a backend

The runner reads the output of a backend line by line, one line for each
vector, and stores each reply without its line end.  `"NA"` is stored as it
is and counted; an X25519 reply is folded like the reference.  A reply that
does not fit its buffer of 8300 characters is cut.
-/

namespace CMFuzz
namespace Runner

open ByteCodec
open LineStream
open Wire

/-- A line as a C string without the newlines and carriage returns at its
end. -/
def stripReply (line : Bytes) : CString :=
  (cstr line).rdropWhile fun c => c = 10 || c = 13

abbrev replyCap : ℕ := 8299

def storeReply (op : ℕ) (line : Bytes) : CString × Bool :=
  let line := stripReply line
  if line = ascii "NA" then (ascii "NA", true)
  else ((foldOp op line).take replyCap, false)

/-- The replies of one backend; `bo.length` is the `bprod` of the source. -/
structure Column where
  bo : List CString
  bna : ℕ
  deriving DecidableEq, Repr

def Column.bprod (c : Column) : ℕ := c.bo.length

/-- `bo[b][i]`, where a missing reply is the empty string. -/
def Column.reply (c : Column) (i : ℕ) : CString := c.bo.getD i []

/-- The reading loop: it ends with the vectors or with the output. -/
def collect : List ℕ → List Bytes → Column → Column
  | op :: ops, line :: rest, c =>
      let (reply, isNa) := storeReply op line
      collect ops rest {
        bo := c.bo ++ [reply]
        bna := if isNa then c.bna + 1 else c.bna }
  | _, _, c => c

def collectReplies (ops : List ℕ) (stdout : Bytes) : Column :=
  collect ops (lines 10 stdout) ⟨[], 0⟩

/-! ## X25519 folding -/

def zeroSecret : CString := hexEncode (List.replicate cmfX25519Len 0)

theorem x25519Normalize_eq (hex : CString) :
    x25519Normalize hex = if hex = zeroSecret then ascii "ERR" else hex := by
  have hzero : zeroSecret = List.replicate (2 * cmfX25519Len) 48 := by decide
  have hiff : hex = zeroSecret ↔
      hex.length = 2 * cmfX25519Len ∧ ∀ c ∈ hex, c = 48 := by
    rw [hzero, List.eq_replicate_iff]
  unfold x25519Normalize
  by_cases hlen : hex.length = 2 * cmfX25519Len
  · by_cases hall : ∀ c ∈ hex, c = 48
    · rw [if_neg (not_not.mpr hlen), if_neg (by simpa using hall),
        if_pos (hiff.mpr ⟨hlen, hall⟩)]
    · rw [if_neg (not_not.mpr hlen), if_pos (by simpa using hall),
        if_neg fun h => hall (hiff.mp h).2]
  · rw [if_pos hlen, if_neg fun h => hlen (hiff.mp h).1]

/-- Folded strings are equal when the strings are, or when both stand for a
refused exchange: an error or the all-zero secret. -/
theorem x25519Normalize_eq_iff (x y : CString) :
    x25519Normalize x = x25519Normalize y ↔
      x = y ∨ (x = ascii "ERR" ∨ x = zeroSecret) ∧ (y = ascii "ERR" ∨ y = zeroSecret) := by
  have hne : zeroSecret ≠ ascii "ERR" := by decide
  rw [x25519Normalize_eq, x25519Normalize_eq]
  split <;> split <;> grind

theorem foldOp_length_le (op : ℕ) (hex : CString) :
    (foldOp op hex).length ≤ max hex.length 3 := by
  unfold foldOp
  rw [x25519Normalize_eq]
  split
  · split
    · exact le_max_right _ _
    · exact le_max_left _ _
  · exact le_max_left _ _

theorem foldOp_ne_na (op : ℕ) {hex : CString} (hne : hex ≠ ascii "NA") :
    foldOp op hex ≠ ascii "NA" := by
  unfold foldOp
  rw [x25519Normalize_eq]
  split
  · split
    · decide
    · exact hne
  · exact hne

/-! ## What is stored -/

theorem storeReply_na (op : ℕ) {line : Bytes} (hna : stripReply line = ascii "NA") :
    storeReply op line = (ascii "NA", true) := by
  simp [storeReply, hna]

theorem storeReply_of_ne (op : ℕ) {line : Bytes} (hne : stripReply line ≠ ascii "NA") :
    storeReply op line = ((foldOp op (stripReply line)).take replyCap, false) := by
  simp [storeReply, hne]

theorem storeReply_fst (op : ℕ) (line : Bytes) :
    (storeReply op line).1 = ascii "NA" ↔ stripReply line = ascii "NA" := by
  by_cases hna : stripReply line = ascii "NA"
  · simp [storeReply_na op hna, hna]
  · rw [storeReply_of_ne op hna]
    refine iff_of_false (fun hcut => foldOp_ne_na op hna ?_) hna
    have hshort : (ascii "NA").length = 2 := by decide
    have hlen := congrArg List.length hcut
    simp only [List.length_take, hshort, replyCap] at hlen
    rwa [List.take_of_length_le (by simp only [replyCap]; omega)] at hcut

theorem storeReply_snd (op : ℕ) (line : Bytes) :
    (storeReply op line).2 = true ↔ (storeReply op line).1 = ascii "NA" := by
  rw [storeReply_fst]
  by_cases hna : stripReply line = ascii "NA"
  · simp [storeReply_na op hna, hna]
  · simp [storeReply_of_ne op hna, hna]

theorem collect_eq (ops : List ℕ) (rest : List Bytes) (c : Column) :
    collect ops rest c = {
      bo := c.bo ++ List.zipWith (fun op line => (storeReply op line).1) ops rest
      bna := c.bna + (List.zipWith (fun op line => (storeReply op line).1) ops rest).count
        (ascii "NA") } := by
  induction ops generalizing rest c with
  | nil => simp [collect]
  | cons op ops ih =>
      cases rest with
      | nil => simp [collect]
      | cons line rest =>
          have hna := storeReply_snd op line
          rw [collect]
          cases hisNa : (storeReply op line).2 with
          | true =>
              have hstored := hna.mp hisNa
              simp [ih, hisNa, hstored]
              omega
          | false =>
              have hstored : (storeReply op line).1 ≠ ascii "NA" :=
                fun h => absurd (hna.mpr h) (by simp [hisNa])
              simp [ih, hisNa, List.count_cons_of_ne hstored]

theorem collectReplies_eq (ops : List ℕ) (stdout : Bytes) :
    collectReplies ops stdout =
      let bo := List.zipWith (fun op line => (storeReply op line).1) ops (lines 10 stdout)
      ⟨bo, bo.count (ascii "NA")⟩ := by
  rw [collectReplies, collect_eq]
  simp

theorem collectReplies_bprod (ops : List ℕ) (stdout : Bytes) :
    (collectReplies ops stdout).bprod = min ops.length (lines 10 stdout).length := by
  rw [collectReplies_eq]
  exact List.length_zipWith

theorem collectReplies_reply {ops : List ℕ} {stdout : Bytes} {i op : ℕ} {line : Bytes}
    (hop : ops[i]? = some op) (hline : (lines 10 stdout)[i]? = some line) :
    (collectReplies ops stdout).reply i = (storeReply op line).1 := by
  rw [collectReplies_eq, Column.reply, List.getD_eq_getElem?_getD,
    List.getElem?_zipWith, hop, hline]
  rfl

theorem collectReplies_bna (ops : List ℕ) (stdout : Bytes) :
    (collectReplies ops stdout).bna =
      (collectReplies ops stdout).bo.count (ascii "NA") := by
  rw [collectReplies_eq]

end Runner
end CMFuzz
