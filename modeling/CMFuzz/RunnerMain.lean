import CMFuzz.BackendLoops
import CMFuzz.Coverage

/-!
# The runner from seed to exit status

The whole program: generate the vectors, run every backend on the request
file, collect and vote.  With one backend built on `compute_common.h`, the
run succeeds exactly when its computation matches the reference on every
vector it implements.
-/

namespace CMFuzz
namespace Runner

open ByteCodec
open LineStream
open Wire

variable {κ : Type}

/-! ## Main -/

def Emitted.row (e : Emitted) : Row := ⟨e.op, e.reference.text⟩

/-- Run the backends of the command line, each a `name=path`; `exec` is what a
program writes to its pipe, nothing if it cannot be run.  The error is a
specification without `=`. -/
def spawnAll (exec : CString → Bytes → Bytes) (requests : Bytes) :
    List CString → Except CString (List Backend)
  | [] => .ok []
  | spec :: rest =>
      match splitOnce 61 spec with
      | none => .error spec
      | some (name, path) => do
          let more ← spawnAll exec requests rest
          pure (⟨name, exec path requests⟩ :: more)

def campaignOf (vectors : List Emitted) (backends : List Backend) :
    Campaign backends.length where
  rows := vectors.map Emitted.row
  backend := backends.get

def runnerMain (ssl : OpenSSL κ) (rhsFirst : ℕ → Bool) (exec : CString → Bytes → Bytes)
    (program : CString) (n : ℕ) (seed : UInt64) (specs : List CString) : Outcome :=
  if specs = [] then ⟨some 2, [.usage program]⟩
  else
    let vectors := genVectors ssl rhsFirst seed n
    match spawnAll exec (requestFile vectors) specs with
    | .error spec => ⟨some 2, [.badSpec spec]⟩
    | .ok backends => outcome (campaignOf vectors backends)

structure BackendArg where
  name : CString
  path : CString
  name_ok : (61 : UInt8) ∉ name

def BackendArg.text (arg : BackendArg) : CString := arg.name ++ 61 :: arg.path

theorem runnerMain_single (ssl : OpenSSL κ) (rhsFirst : ℕ → Bool)
    (exec : CString → Bytes → Bytes) (program : CString) (n : ℕ) (seed : UInt64)
    (arg : BackendArg) :
    runnerMain ssl rhsFirst exec program n seed [arg.text] =
      outcome (campaignOf (genVectors ssl rhsFirst seed n)
        [⟨arg.name, exec arg.path (requestFile (genVectors ssl rhsFirst seed n))⟩]) := by
  have hsplit : splitOnce 61 arg.text = some (arg.name, arg.path) :=
    splitOnce_append arg.name_ok arg.path
  simp only [runnerMain, spawnAll, hsplit]
  rfl

/-! ## Request and reply lines -/

theorem lines_requestFile {vectors : List Emitted}
    (hop : ∀ e ∈ vectors, e.op < cmfNumOps) :
    lines 10 (requestFile vectors) =
      vectors.map fun e => requestLine e.op e.blob := by
  have hfile : requestFile vectors =
      unlines 10 (vectors.map fun e => decimal e.op ++ 32 :: hexEncode e.blob) := by
    simp [requestFile, unlines, requestLine, List.flatMap_map]
  rw [hfile, lines_unlines, List.map_map]
  · rfl
  · intro text htext
    obtain ⟨e, he, rfl⟩ := List.mem_map.mp htext
    exact not_mem_requestLine (hop e he) e.blob (by decide) (by decide) hexDigit_ne_newline

theorem cliMain_requestFile {vectors : List Emitted}
    (hop : ∀ e ∈ vectors, e.op < cmfNumOps) (fault : Bool) (f : CmfVec → Computed) :
    cliMain fault f (requestFile vectors) =
      unlines 10 ((vectors.map fun e => (f e.vec).inject fault).map Computed.text) := by
  have hreply : ∀ e ∈ vectors,
      cliReply fault f (requestLine e.op e.blob) = ((f e.vec).inject fault).text := by
    intro e he
    have hparse : cmfVecParse (requestLine e.op e.blob) = some e.vec :=
      cmfVecParse_requestLine (hop e he) e.blob
    simp only [cliReply, hparse]
  rw [cliMain, lines_requestFile hop, List.map_map, List.map_map]
  congr 1
  exact List.map_congr_left hreply

theorem lines_replies (replies : List Computed) :
    lines 10 (unlines 10 (replies.map Computed.text)) =
      replies.map fun r => r.text ++ [10] := by
  rw [lines_unlines, List.map_map]
  · rfl
  · intro text htext
    obtain ⟨r, _, rfl⟩ := List.mem_map.mp htext
    exact r.newline_not_mem_text

theorem lines_cliMain {vectors : List Emitted}
    (hop : ∀ e ∈ vectors, e.op < cmfNumOps) (f : CmfVec → Computed) :
    lines 10 (cliMain false f (requestFile vectors)) =
      vectors.map fun e => (f e.vec).text ++ [10] := by
  rw [cliMain_requestFile hop, lines_replies, List.map_map]
  simp only [Computed.inject_false]
  rfl

theorem stripReply_text (r : Computed) : stripReply (r.text ++ [10]) = r.text := by
  have hnul : (0 : UInt8) ∉ r.text ++ [10] := by
    intro hmem
    rcases List.mem_append.mp hmem with htext | hend
    · exact (Computed.mem_text_printable r htext).1 rfl
    · simp at hend
  rw [stripReply, cstr_eq_self hnul, List.rdropWhile_concat_pos _ _ _ (by decide),
    List.rdropWhile_eq_self_iff]
  intro hne hend
  obtain ⟨_, hlf, hcr⟩ := Computed.mem_text_printable r (List.getLast_mem hne)
  simp [hlf, hcr] at hend

/-! ## Matching results -/

def foldSecret (r : Option Bytes) : Option Bytes :=
  if r = some (List.replicate cmfX25519Len 0) then none else r

theorem foldOp_resultText (op : ℕ) (r : Option Bytes) :
    foldOp op (resultText r) = resultText (if op = 12 then foldSecret r else r) := by
  have hzero : resultText r = zeroSecret ↔ r = some (List.replicate cmfX25519Len 0) :=
    resultText_injective.eq_iff (b := some (List.replicate cmfX25519Len 0))
  unfold foldOp foldSecret
  split
  · rw [x25519Normalize_eq]
    by_cases hr : r = some (List.replicate cmfX25519Len 0)
    · rw [if_pos (hzero.mpr hr), if_pos hr]
      rfl
    · rw [if_neg fun h => hr (hzero.mp h), if_neg hr]
  · rfl

/-- A backend that computes `f` has nothing to answer for on this vector. -/
def Matches (f : CmfVec → Computed) (e : Emitted) : Prop :=
  f e.vec = .notImplemented ∨
    match e.reference with
    | .verdict accepted => f e.vec = .output [0x01] ↔ accepted = true
    | .computed out =>
        if e.op = 12 then foldSecret (f e.vec).result = foldSecret out
        else (f e.vec).result = out

def MatchesReply (r : Computed) (e : Emitted) : Prop :=
  r = .notImplemented ∨
    match e.reference with
    | .verdict accepted => r = .output [0x01] ↔ accepted = true
    | .computed out =>
        if e.op = 12 then foldSecret r.result = foldSecret out else r.result = out

theorem matches_iff_reply (f : CmfVec → Computed) (e : Emitted) :
    Matches f e ↔ MatchesReply (f e.vec) e := Iff.rfl

theorem accepts_text_iff {r : Computed} (hr : r ≠ .notImplemented) :
    accepts r.text = true ↔ r = .output [0x01] := by
  have hone : ascii "01" = resultText (some [0x01]) := by decide
  rw [Computed.text_eq_resultText hr, accepts, decide_eq_true_eq, hone,
    resultText_injective.eq_iff]
  cases r with
  | output out => simp [Computed.result]
  | failure => simp [Computed.result]
  | notImplemented => exact absurd rfl hr

theorem accepts_reference (accepted : Bool) :
    accepts (Reference.verdict accepted).text = accepted := by
  cases accepted <;> decide

theorem take_eq_iff {α : Type} {xs ys : List α} {n : ℕ} (hys : ys.length < n) :
    xs.take n = ys ↔ xs = ys := by
  constructor
  · intro heq
    have hlen := congrArg List.length heq
    rw [List.length_take] at hlen
    rwa [List.take_of_length_le (by omega)] at heq
  · rintro rfl
    exact List.take_of_length_le hys.le

theorem accepts_take (reply : CString) : accepts (reply.take replyCap) = accepts reply := by
  have hcut : reply.take replyCap = ascii "01" ↔ reply = ascii "01" :=
    take_eq_iff (by decide)
  simp only [accepts, hcut]

theorem accepts_stored_iff {op : ℕ} (hop : op = 13 ∨ op = 14) {r : Computed}
    (hr : r ≠ .notImplemented) (accepted : Bool) :
    accepts ((foldOp op r.text).take replyCap) =
        accepts (foldOp op (Reference.verdict accepted).text) ↔
      (r = .output [0x01] ↔ accepted = true) := by
  have hplain : ∀ hex, foldOp op hex = hex := fun hex => if_neg (by omega)
  rw [hplain, hplain, accepts_take, accepts_reference, Bool.eq_iff_iff,
    accepts_text_iff hr]

theorem resultText_length_le (r : Option Bytes) :
    (resultText r).length ≤ 3 + 2 * (r.getD []).length := by
  cases r with
  | none => exact (by decide : (ascii "ERR").length ≤ 3 + 2 * 0)
  | some out =>
      show (hexEncode out).length ≤ 3 + 2 * out.length
      rw [hexEncode_length]
      omega

theorem foldOp_refCompute_length (ssl : OpenSSL κ) {v : CmfVec} (op : ℕ)
    (hmsg : v.msg.length ≤ 511) :
    (foldOp op (resultText (refCompute ssl v))).length < replyCap := by
  have hfold := foldOp_length_le op (resultText (refCompute ssl v))
  have htext := resultText_length_le (refCompute ssl v)
  have hout : ((refCompute ssl v).getD []).length ≤ v.msg.length + 64 := by
    cases href : refCompute ssl v with
    | none => exact Nat.zero_le _
    | some out => exact refCompute_length href
  simp only [replyCap]
  omega

/-! ## One backend -/

/-- The campaign of a backend that wrote these replies. -/
def replyCampaign (vectors : List Emitted) (replies : List Computed) (name : CString) :
    Campaign 1 :=
  campaignOf vectors [⟨name, unlines 10 (replies.map Computed.text)⟩]

def soloCampaign (vectors : List Emitted) (f : CmfVec → Computed) (name : CString) :
    Campaign 1 :=
  campaignOf vectors [⟨name, cliMain false f (requestFile vectors)⟩]

section

variable {ssl : OpenSSL κ} {vectors : List Emitted} {replies : List Computed}
variable (hfaithful : ∀ e ∈ vectors, e.Faithful ssl)
variable (hlen : replies.length = vectors.length) (name : CString)

include hlen

theorem replyCampaign_rawBallot {i : ℕ} (hi : i < vectors.length) (b : Fin 1) :
    (replyCampaign vectors replies name).rawBallot i b =
      if replies[i] = .notImplemented then none
      else some (foldOp vectors[i].op replies[i].text) := by
  have hline : (lines 10 (unlines 10 (replies.map Computed.text)))[i]? =
      some (replies[i].text ++ [10]) := by
    rw [lines_replies, List.getElem?_map, List.getElem?_eq_getElem (by omega),
      Option.map_some]
  have hop : (replyCampaign vectors replies name).op i = vectors[i].op := by
    simp [replyCampaign, campaignOf, Campaign.op, hi, Emitted.row]
  obtain rfl : b = 0 := Subsingleton.elim b 0
  have hstdout : ((replyCampaign vectors replies name).backend 0).stdout =
      unlines 10 (replies.map Computed.text) := rfl
  rw [Campaign.rawBallot, hstdout, hline, Option.bind_some, stripReply_text, hop]
  simp only [Computed.text_eq_na_iff]

include hfaithful

theorem agree_iff_matchesReply {i : ℕ} (hi : i < vectors.length) :
    Agree ((replyCampaign vectors replies name).op i)
        ((replyCampaign vectors replies name).poll i) ↔
      MatchesReply replies[i] vectors[i] := by
  have hN : i < (replyCampaign vectors replies name).N := by
    simpa [replyCampaign, campaignOf, Campaign.N] using hi
  have hop : (replyCampaign vectors replies name).op i = vectors[i].op := by
    simp [replyCampaign, campaignOf, Campaign.op, hi, Emitted.row]
  have hrefhex : (replyCampaign vectors replies name).refhex i =
      foldOp vectors[i].op vectors[i].reference.text := by
    simp [replyCampaign, campaignOf, Campaign.refhex, Campaign.op, hi, Emitted.row]
  have hballot : ∀ b, (replyCampaign vectors replies name).ballot i b =
      if replies[i] = .notImplemented then none
      else some ((foldOp vectors[i].op replies[i].text).take replyCap) := by
    intro b
    rw [Campaign.ballot_eq_rawBallot hN, replyCampaign_rawBallot hlen name hi]
    split <;> rfl
  rw [Campaign.poll, agree_withReference_iff, hop, hrefhex]
  simp only [hballot]
  have hvop : vectors[i].vec.op = vectors[i].op := cmfVecFields_op _ _
  by_cases hna : replies[i] = .notImplemented
  · exact iff_of_true (by simp [hna]) (Or.inl hna)
  · simp only [MatchesReply, hna, false_or, if_false, Option.mem_def, Option.some.injEq,
      forall_eq', forall_const]
    have href := (hfaithful vectors[i] (List.getElem_mem hi)).reference_of
    generalize hreference : vectors[i].reference = reference at href
    cases href with
    | computed hcompute hmsg =>
        rw [hvop] at hcompute
        have hverify : ¬ (vectors[i].op = 13 ∨ vectors[i].op = 14) := by
          rintro (h | h)
          · exact hcompute.1 (by exact_mod_cast h)
          · exact hcompute.2 (by exact_mod_cast h)
        have hfits := foldOp_refCompute_length ssl vectors[i].op hmsg
        have htext : (Reference.computed (refCompute ssl vectors[i].vec)).text =
            resultText (refCompute ssl vectors[i].vec) := by
          cases refCompute ssl vectors[i].vec <;> rfl
        rw [if_neg hverify, htext, take_eq_iff hfits, Computed.text_eq_resultText hna,
          foldOp_resultText, foldOp_resultText, resultText_injective.eq_iff]
        split <;> rfl
    | signed scheme hscheme key pub sig msg hpub hparse =>
        rw [hvop] at hscheme
        have hverify : vectors[i].op = 13 ∨ vectors[i].op = 14 := by
          rcases hscheme with ⟨h, _⟩ | ⟨h, _⟩
          · exact Or.inl (by exact_mod_cast h)
          · exact Or.inr (by exact_mod_cast h)
        rw [if_pos hverify]
        exact accepts_stored_iff hverify hna _
    | unsigned hop hmsg =>
        rw [hvop] at hop
        have hverify : vectors[i].op = 13 ∨ vectors[i].op = 14 := by exact_mod_cast hop
        rw [if_pos hverify]
        exact accepts_stored_iff hverify hna _

omit hlen

theorem soloCampaign_eq (f : CmfVec → Computed) :
    soloCampaign vectors f name =
      replyCampaign vectors (vectors.map fun e => f e.vec) name := by
  have hcli := cliMain_requestFile (fun e he => (hfaithful e he).op_lt) false f
  simp only [Computed.inject_false] at hcli
  rw [soloCampaign, hcli]
  rfl

theorem agree_iff_matches (f : CmfVec → Computed) {i : ℕ} (hi : i < vectors.length) :
    Agree ((soloCampaign vectors f name).op i) ((soloCampaign vectors f name).poll i) ↔
      Matches f vectors[i] := by
  rw [soloCampaign_eq hfaithful, matches_iff_reply,
    agree_iff_matchesReply hfaithful (List.length_map _) name hi, List.getElem_map]

end

/-- With one C backend, the run succeeds exactly when the computation of the
backend matches every reference.  Request, reference and stored reply number
`i` belong to the same vector. -/
theorem runner_exact (ssl : OpenSSL κ) (rhsFirst : ℕ → Bool) (program : CString) (n : ℕ)
    (seed : UInt64) (arg : BackendArg) (f : CmfVec → Computed) :
    let vectors := genVectors ssl rhsFirst seed n
    let run := runnerMain ssl rhsFirst (fun _ => cliMain false f) program n seed [arg.text]
    let campaign := soloCampaign vectors f arg.name
    (run.status = some 0 ↔ ∀ e ∈ vectors, Matches f e) ∧
      run = outcome campaign ∧ vectors.length = n ∧
      ∀ (i : ℕ) (hi : i < vectors.length),
        ((lines 10 (requestFile vectors))[i]?.bind cmfVecParse) = some vectors[i].vec ∧
        ReferenceOf ssl vectors[i].vec vectors[i].reference ∧
        (campaign.column 0).reply i =
          (storeReply vectors[i].op ((f vectors[i].vec).text ++ [10])).1 := by
  obtain ⟨hlen, hfaithful⟩ := genVectors_faithful ssl rhsFirst seed n
  have hop : ∀ e ∈ genVectors ssl rhsFirst seed n, e.op < cmfNumOps :=
    fun e he => (hfaithful e he).op_lt
  have hN : (soloCampaign (genVectors ssl rhsFirst seed n) f arg.name).N =
      (genVectors ssl rhsFirst seed n).length := List.length_map _
  refine ⟨?_, runnerMain_single .., hlen, fun i hi => ⟨?_, ?_, ?_⟩⟩
  · rw [runnerMain_single]
    have hstatus := outcome_status_iff_agree
      (c := soloCampaign (genVectors ssl rhsFirst seed n) f arg.name)
      fun i _ => Campaign.answering_card_le _ i (by decide)
    refine hstatus.trans ⟨fun hall e he => ?_, fun hall i hi => ?_⟩
    · obtain ⟨i, hi, rfl⟩ := List.getElem_of_mem he
      exact (agree_iff_matches hfaithful arg.name f hi).mp (hall i (hN ▸ hi))
    · have hi' : i < (genVectors ssl rhsFirst seed n).length := hN ▸ hi
      exact (agree_iff_matches hfaithful arg.name f hi').mpr
        (hall _ (List.getElem_mem hi'))
  · rw [lines_requestFile hop, List.getElem?_map, List.getElem?_eq_getElem hi,
      Option.map_some, Option.bind_some]
    exact cmfVecParse_requestLine (hop _ (List.getElem_mem hi)) _
  · exact (hfaithful _ (List.getElem_mem hi)).reference_of
  · refine collectReplies_reply ?_ ?_
    · simp [soloCampaign, campaignOf, hi, Emitted.row]
    · have hstdout : ((soloCampaign (genVectors ssl rhsFirst seed n) f
          arg.name).backend 0).stdout =
          cliMain false f (requestFile (genVectors ssl rhsFirst seed n)) := rfl
      rw [hstdout, lines_cliMain hop f, List.getElem?_map, List.getElem?_eq_getElem hi,
        Option.map_some]

end Runner
end CMFuzz
