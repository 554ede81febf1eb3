import CMFuzz.BlockModes
import CMFuzz.ByteCodec
import CMFuzz.TimingSymmetry

/-!
# The timed comparison and the timed padding check

`naive_memcmp` and `naive_pkcs7_ok` of `ct_dudect_trad.c` with the number of
bytes they look at, and the inputs the engine times them on.
-/

namespace CMFuzz
namespace Dudect

open BlockModes
open ByteCodec
open Moments

/-! ## Loops that leave early -/

/-- Whether `ok` holds at the `k` places from `i` on, and how many of them a loop
that leaves at the first failure looks at. -/
def examine (ok : ℕ → Bool) : ℕ → ℕ → Bool × ℕ
  | 0, _ => (true, 0)
  | k + 1, i =>
      if ok i then ((examine ok k (i + 1)).1, (examine ok k (i + 1)).2 + 1) else (false, 1)

theorem examine_done_iff (ok : ℕ → Bool) (k i : ℕ) :
    (examine ok k i).1 = true ↔ ∀ j < k, ok (i + j) = true := by
  induction k generalizing i with
  | zero => simp [examine]
  | succ k ih =>
      rw [examine, Nat.forall_lt_succ_left]
      split
      · rename_i hok
        rw [ih (i + 1)]
        simp only [Nat.add_zero, hok, true_and, Nat.add_assoc, Nat.add_comm 1]
      · rename_i hbad
        simp only [Nat.add_zero, hbad, Bool.false_eq_true, false_and]

/-- All places are looked at, or those up to the first failure. -/
theorem examine_turns (ok : ℕ → Bool) (k i : ℕ) :
    ((examine ok k i).1 = true ∧ (examine ok k i).2 = k) ∨
      ∃ j < k, examine ok k i = (false, j + 1) ∧ ok (i + j) = false ∧
        ∀ l < j, ok (i + l) = true := by
  induction k generalizing i with
  | zero => exact Or.inl ⟨rfl, rfl⟩
  | succ k ih =>
      rw [examine]
      split
      · rename_i hok
        rcases ih (i + 1) with ⟨hdone, hturns⟩ | ⟨j, hj, heq, hbad, hfirst⟩
        · exact Or.inl ⟨hdone, congrArg (· + 1) hturns⟩
        · right
          have hnext : ∀ l, ok (i + (l + 1)) = ok (i + 1 + l) := by
            intro l
            rw [Nat.add_assoc, Nat.add_comm 1]
          refine ⟨j + 1, Nat.succ_lt_succ hj, by rw [heq], (hnext j).trans hbad, ?_⟩
          rw [Nat.forall_lt_succ_left]
          exact ⟨hok, fun l hl => (hnext l).trans (hfirst l hl)⟩
      · rename_i hbad
        exact Or.inr ⟨0, k.succ_pos, rfl, eq_false_of_ne_true hbad,
          fun l hl => absurd hl (Nat.not_lt_zero l)⟩

/-! ## Targets -/

/-- The result, and how many pairs of bytes are compared. -/
def naiveMemcmp (a b : Bytes) (n : ℕ) : ℤ × ℕ :=
  let (same, examined) := examine (fun i => a.getD i 0 == b.getD i 0) n 0
  (if same then 0 else 1, examined)

structure Pkcs7Check where
  rc : ℤ
  examined : ℕ
  gSink : UInt64
  deriving DecidableEq, Repr

def pkcs7Work (b : UInt8) (acc : UInt64) : UInt64 :=
  acc * 6364136223846793005 + 1442695040888963407 + b.toUInt64

def pkcs7Loop (blk : Bytes) (pad : UInt8) : ℕ → ℕ → UInt64 → Pkcs7Check
  | 0, i, acc => ⟨1, i, acc⟩
  | k + 1, i, acc =>
      let b := blk.getD (15 - i) 0
      let acc := (pkcs7Work b)^[48] acc
      if b ≠ pad then ⟨0, i + 1, acc⟩ else pkcs7Loop blk pad k (i + 1) acc

def naivePkcs7Ok (gSink : UInt64) (blk : Bytes) : Pkcs7Check :=
  let pad := blk.getD 15 0
  if pad.toNat < 1 ∨ 16 < pad.toNat then ⟨0, 0, gSink⟩
  else pkcs7Loop blk pad pad.toNat 0 0

def cmplen : ℕ := 256

def tagRef : Bytes := List.replicate cmplen 0xa5

/-- `tag_rand`, with `fpos` for `rand() % 8`. -/
def candidate (cls : Bool) (fpos : ℕ) : Bytes :=
  if cls then tagRef.modify fpos (· ^^^ 0xff) else tagRef

def paddedBlock (cls : Bool) : Bytes :=
  if cls then (List.replicate 16 0x10).set 14 0x00 else List.replicate 16 0x10

/-! ## What they decide -/

theorem pkcs7Loop_eq (blk : Bytes) (pad : UInt8) (k i : ℕ) (acc : UInt64) :
    (pkcs7Loop blk pad k i acc).rc =
        (if (examine (fun i => blk.getD (15 - i) 0 == pad) k i).1 then 1 else 0) ∧
      (pkcs7Loop blk pad k i acc).examined =
        i + (examine (fun i => blk.getD (15 - i) 0 == pad) k i).2 := by
  induction k generalizing i acc with
  | zero => exact ⟨rfl, rfl⟩
  | succ k ih =>
      rw [pkcs7Loop, examine]
      by_cases hb : blk.getD (15 - i) 0 = pad
      · have hok : (blk.getD (15 - i) 0 == pad) = true := beq_iff_eq.mpr hb
        rw [if_neg (not_not_intro hb), if_pos hok]
        refine ⟨(ih _ _).1, ?_⟩
        rw [(ih _ _).2]
        omega
      · have hbad : ¬ (blk.getD (15 - i) 0 == pad) = true := fun h => hb (beq_iff_eq.mp h)
        rw [if_pos hb, if_neg hbad]
        exact ⟨rfl, rfl⟩

theorem naiveMemcmp_spec {a b : Bytes} {n : ℕ} (ha : a.length = n) (hb : b.length = n) :
    ((naiveMemcmp a b n).1 = 0 ↔ a = b) ∧
      ((naiveMemcmp a b n).2 = n ∧ a = b ∨
        ∃ j < n, (naiveMemcmp a b n).2 = j + 1 ∧ a.getD j 0 ≠ b.getD j 0 ∧
          ∀ l < j, a.getD l 0 = b.getD l 0) := by
  have hsame : (examine (fun i => a.getD i 0 == b.getD i 0) n 0).1 = true ↔ a = b := by
    rw [examine_done_iff]
    simp only [Nat.zero_add, beq_iff_eq]
    constructor
    · intro hbytes
      apply List.ext_getElem (ha.trans hb.symm)
      intro i hi hi'
      have hbyte := hbytes i (ha ▸ hi)
      rwa [List.getD_eq_getElem?_getD, List.getD_eq_getElem?_getD, List.getElem?_eq_getElem hi,
        List.getElem?_eq_getElem hi'] at hbyte
    · rintro rfl i _
      rfl
  constructor
  · rw [naiveMemcmp, ← hsame]
    dsimp only
    split
    · rename_i hdone
      simp only [hdone]
    · rename_i hbad
      simp only [hbad, one_ne_zero, Bool.false_eq_true]
  · rcases examine_turns (fun i => a.getD i 0 == b.getD i 0) n 0 with
      ⟨hdone, hturns⟩ | ⟨j, hj, heq, hbad, hfirst⟩
    · exact Or.inl ⟨hturns, hsame.mp hdone⟩
    · simp only [Nat.zero_add, beq_eq_false_iff_ne, beq_iff_eq] at hbad hfirst
      exact Or.inr ⟨j, hj, congrArg Prod.snd heq, hbad, hfirst⟩

theorem drop_eq_replicate_iff {blk : Bytes} (hlen : blk.length = 16) {p : ℕ} (hp : p ≤ 16)
    (x : UInt8) : blk.drop (16 - p) = List.replicate p x ↔ ∀ j < p, blk.getD (15 - j) 0 = x := by
  have hbyte : ∀ j < p, blk.getD (15 - j) 0 = (blk.drop (16 - p)).getD (p - 1 - j) 0 := by
    intro j hj
    have hindex : 16 - p + (p - 1 - j) = 15 - j := by omega
    rw [List.getD_eq_getElem?_getD, List.getD_eq_getElem?_getD, List.getElem?_drop, hindex]
  constructor
  · intro hdrop j hj
    rw [hbyte j hj, hdrop, List.getD_eq_getElem?_getD, List.getElem?_replicate,
      if_pos (by omega), Option.getD_some]
  · intro hall
    apply List.ext_getElem
    · rw [List.length_drop, hlen, List.length_replicate]
      omega
    · intro i hi hi'
      have hip : i < p := by rwa [List.length_replicate] at hi'
      have hlast := hall (p - 1 - i) (by omega)
      have hindex : p - 1 - (p - 1 - i) = i := by omega
      rw [hbyte (p - 1 - i) (by omega), hindex, List.getD_eq_getElem?_getD,
        List.getElem?_eq_getElem hi, Option.getD_some] at hlast
      rw [hlast, List.getElem_replicate]

/-- The check accepts the last blocks that PKCS#7 padding can end in. -/
theorem naivePkcs7Ok_spec (gSink : UInt64) {blk : Bytes} (hlen : blk.length = 16) :
    ((naivePkcs7Ok gSink blk).rc = 1 ↔ (unpad 16 blk).isSome = true) ∧
      (naivePkcs7Ok gSink blk).examined ≤ (blk.getD 15 0).toNat ∧
      ((naivePkcs7Ok gSink blk).rc = 1 →
        (naivePkcs7Ok gSink blk).examined = (blk.getD 15 0).toNat) := by
  have hlast : blk.getLastD 0 = blk.getD 15 0 := by
    rw [List.getLastD_eq_getLast?, List.getLast?_eq_getElem?, List.getD_eq_getElem?_getD, hlen]
  rw [naivePkcs7Ok, unpad, hlast, hlen, UInt8.ofNat_toNat]
  by_cases hrange : (blk.getD 15 0).toNat < 1 ∨ 16 < (blk.getD 15 0).toNat
  · rw [if_pos hrange, if_neg (fun h => by omega)]
    exact ⟨iff_of_false zero_ne_one Bool.false_ne_true, Nat.zero_le _,
      fun h => absurd h zero_ne_one⟩
  · rcases not_or.mp hrange with ⟨hlow, hhigh⟩
    rcases pkcs7Loop_eq blk (blk.getD 15 0) (blk.getD 15 0).toNat 0 0 with ⟨hrc, hexamined⟩
    have hdone := examine_done_iff (fun i => blk.getD (15 - i) 0 == blk.getD 15 0)
      (blk.getD 15 0).toNat 0
    simp only [Nat.zero_add, beq_iff_eq] at hdone
    rw [← drop_eq_replicate_iff hlen (not_lt.mp hhigh)] at hdone
    rw [if_neg hrange, hrc, hexamined, Nat.zero_add]
    rcases examine_turns (fun i => blk.getD (15 - i) 0 == blk.getD 15 0)
      (blk.getD 15 0).toNat 0 with ⟨hall, hturns⟩ | ⟨j, hj, heq, _, _⟩
    · rw [hall, hturns, if_pos rfl, if_pos ⟨not_lt.mp hlow, not_lt.mp hhigh, hdone.mp hall⟩]
      exact ⟨iff_of_true rfl rfl, le_rfl, fun _ => rfl⟩
    · rw [heq] at hdone ⊢
      rw [if_neg Bool.false_ne_true, if_neg (fun h => Bool.false_ne_true (hdone.mpr h.2.2))]
      exact ⟨iff_of_false zero_ne_one Bool.false_ne_true, hj, fun h => absurd h zero_ne_one⟩

/-- The comparison returns 0 on equal tags alone and stops behind the first
difference; the padding check accepts what PKCS#7 can end in and looks at the
padding alone. -/
theorem timed_targets_exact :
    (∀ a b : Bytes, a.length = b.length →
      ((naiveMemcmp a b a.length).1 = 0 ↔ a = b) ∧
      ((naiveMemcmp a b a.length).2 = a.length ∧ a = b ∨
        ∃ j < a.length, (naiveMemcmp a b a.length).2 = j + 1 ∧ a.getD j 0 ≠ b.getD j 0 ∧
          ∀ l < j, a.getD l 0 = b.getD l 0)) ∧
    ∀ (gSink : UInt64) (blk : Bytes), blk.length = 16 →
      ((naivePkcs7Ok gSink blk).rc = 1 ↔ (unpad 16 blk).isSome = true) ∧
      (naivePkcs7Ok gSink blk).examined ≤ (blk.getD 15 0).toNat ∧
      ((naivePkcs7Ok gSink blk).rc = 1 →
        (naivePkcs7Ok gSink blk).examined = (blk.getD 15 0).toNat) :=
  ⟨fun _ _ hlen => naiveMemcmp_spec rfl hlen.symm,
    fun gSink _ hlen => naivePkcs7Ok_spec gSink hlen⟩

theorem timed_targets_exact_padded :
    (naivePkcs7Ok 0 (paddedBlock false)).examined = 16 :=
  (timed_targets_exact.2 0 (paddedBlock false) rfl).2.2
    ((timed_targets_exact.2 0 (paddedBlock false) rfl).1.mpr (by decide))

/-! ## Runs without noise -/

/-- `tag_ref` against `tag_rand`. -/
theorem naiveMemcmp_candidate (cls : Bool) {fpos : ℕ} (hfpos : fpos < 8) :
    (naiveMemcmp (candidate cls fpos) tagRef cmplen).2 = if cls then fpos + 1 else cmplen := by
  have hlen : tagRef.length = cmplen := List.length_replicate
  cases cls with
  | false =>
      rcases (naiveMemcmp_spec hlen hlen).2 with ⟨hturns, _⟩ | ⟨j, _, _, hne, _⟩
      · exact hturns
      · exact absurd rfl hne
  | true =>
      have hindex : fpos < tagRef.length := hlen ▸ hfpos.trans (by decide)
      have hne : tagRef.modify fpos (· ^^^ 0xff) ≠ tagRef := modify_xor_ne hindex (by decide)
      have hlen' : (candidate true fpos).length = cmplen := (List.length_modify _ _ _).trans hlen
      rcases (naiveMemcmp_spec hlen' hlen).2 with ⟨_, heq⟩ | ⟨j, _, hturns, hbyte, _⟩
      · exact absurd heq hne
      · have hj : j = fpos := by
          by_contra hother
          apply hbyte
          rw [List.getD_eq_getElem?_getD, List.getD_eq_getElem?_getD, candidate, if_pos rfl,
            List.getElem?_modify_ne _ _ (Ne.symm hother)]
        rw [hturns, hj, if_pos rfl]

/-- Class 1 corrupts the second byte that is looked at. -/
theorem naivePkcs7Ok_paddedBlock (gSink : UInt64) (cls : Bool) :
    (naivePkcs7Ok gSink (paddedBlock cls)).examined = if cls then 2 else 16 := by
  cases cls
  · rfl
  · rfl

/-- A cost of `perByte` for each byte looked at. -/
def linearTime (base perByte : UInt64) (examined : ℕ) : UInt64 :=
  base + perByte * UInt64.ofNat examined

theorem linearTime_toNat {base perByte : UInt64} {k : ℕ} (hk : k ≤ cmplen)
    (hfits : base.toNat + perByte.toNat * cmplen < 2 ^ 64) :
    (linearTime base perByte k).toNat = base.toNat + perByte.toNat * k := by
  have hprod : perByte.toNat * k ≤ perByte.toNat * cmplen := Nat.mul_le_mul_left _ hk
  have hsmall : k < 2 ^ 64 := hk.trans_lt (by decide)
  rw [linearTime, UInt64.toNat_add, UInt64.toNat_mul, UInt64.toNat_ofNat',
    Nat.mod_eq_of_lt hsmall, Nat.mod_eq_of_lt (by omega : perByte.toNat * k < 2 ^ 64),
    Nat.mod_eq_of_lt (by omega)]

/-- The measurements of op 2, with the class and `fpos` of each. -/
def memcmpRun (time : ℕ → UInt64) (draws : List (Bool × ℕ)) : List Measurement :=
  draws.map fun d => ⟨d.1, time (naiveMemcmp (candidate d.1 d.2) tagRef cmplen).2⟩

/-- The measurements of op 3, with the class and the sink before each. -/
def pkcs7Run (time : ℕ → UInt64) (draws : List (Bool × UInt64)) : List Measurement :=
  draws.map fun d => ⟨d.1, time (naivePkcs7Ok d.2 (paddedBlock d.1)).examined⟩

section

variable {K : Type} [Field K] [LinearOrder K] [IsStrictOrderedRing K] {sqrt : K → K}
  (hsqrt : ∀ x, 0 ≤ x → sqrt x * sqrt x = x)

include hsqrt

/-- A class of one value against one spread over an interval that is narrow
beside its distance from that value. -/
theorem welchT_separated {xs ys : List K} {c l u bound : K} (hxs : 2 ≤ xs.length)
    (hconst : ∀ x ∈ xs, x = c) (hlow : ∀ y ∈ ys, l ≤ y) (hhigh : ∀ y ∈ ys, y ≤ u) (huc : u ≤ c)
    {y y' : K} (hy : y ∈ ys) (hy' : y' ∈ ys) (hne : y ≠ y')
    (hbound : bound ^ 2 * (u - l) ^ 2 < (c - u) ^ 2) :
    bound < |welchT sqrt (pushAll xs) (pushAll ys)| := by
  have hys : 2 ≤ ys.length := by
    by_contra hshort
    have hone : ys.length = 1 := by
      have hpos := List.length_pos_of_mem hy
      omega
    rcases List.length_eq_one_iff.mp hone with ⟨z, rfl⟩
    exact hne ((List.mem_singleton.mp hy).trans (List.mem_singleton.mp hy').symm)
  have hm : (1 : K) ≤ ys.length - 1 := by
    have hcast : (2 : K) ≤ ys.length := by exact_mod_cast hys
    linarith
  have hm0 : (0 : K) < ys.length := by linarith
  have hspread : variance ys / ys.length ≤ (u - l) ^ 2 := by
    rw [variance, div_div, div_le_iff₀ (mul_pos (by linarith) hm0)]
    have hdev := sqDev_le hlow hhigh
    have hgrow : ys.length * (u - l) ^ 2 ≤ (u - l) ^ 2 * ((ys.length - 1) * ys.length) := by
      have hsquare := mul_nonneg (sq_nonneg (u - l)) hm0.le
      nlinarith
    exact hdev.trans hgrow
  have hpos : 0 < variance ys / ys.length :=
    div_pos (div_pos (sqDev_pos hy hy' hne) (by linarith)) hm0
  have hmean : mean xs = c := mean_of_constant (List.length_pos_iff.mp (by omega)) hconst
  have hmean' : mean ys ≤ u := mean_le (List.ne_nil_of_mem hy) hhigh
  have hsq := welchT_pushAll_sq hsqrt hxs hys
  rw [variance, sqDev_of_constant hconst, zero_div, zero_div, zero_add, hmean] at hsq
  have hgap : (c - u) ^ 2 ≤ (c - mean ys) ^ 2 :=
    pow_le_pow_left₀ (sub_nonneg.mpr huc) (sub_le_sub_left hmean' c) 2
  have hlarge : bound ^ 2 < |welchT sqrt (pushAll xs) (pushAll ys)| ^ 2 := by
    rw [sq_abs, hsq, lt_div_iff₀ hpos]
    calc bound ^ 2 * (variance ys / ys.length) ≤ bound ^ 2 * (u - l) ^ 2 :=
          mul_le_mul_of_nonneg_left hspread (sq_nonneg bound)
      _ < (c - u) ^ 2 := hbound
      _ ≤ (c - mean ys) ^ 2 := hgap
  exact lt_of_pow_lt_pow_left₀ 2 (abs_nonneg _) hlarge

end

/-- The padding check looks at 2 or 16 bytes by class.  Without noise each class
then has one time, and the engine sees no leak. -/
theorem pkcs7_leak_unseen (time : ℕ → UInt64) (draws : List (Bool × UInt64)) :
    (∀ gSink cls, (naivePkcs7Ok gSink (paddedBlock cls)).examined = if cls then 2 else 16) ∧
      let r := ctDudectTrad Real.sqrt (· ^ · : ℝ → ℝ → ℝ) 3 (pkcs7Run time draws)
      r.maxT = 0 ∧ r.verdict = .okUnexpectedlyCt := by
  refine ⟨naivePkcs7Ok_paddedBlock, ?_⟩
  have hclass : ∀ m ∈ pkcs7Run time draws, m.cyc = time (if m.cls then 2 else 16) := by
    intro m hm
    rcases List.mem_map.mp hm with ⟨d, _, rfl⟩
    rw [naivePkcs7Ok_paddedBlock]
  have hreport := @report_of_classTime "traditional" (opname 3) (tradExpectsConstantTime 3) _
    (fun cls => time (if cls then 2 else 16)) hclass
  exact ⟨hreport.1, hreport.2.2⟩

theorem mem_memcmpRun {time : ℕ → UInt64} {draws : List (Bool × ℕ)} (hdraws : ∀ d ∈ draws, d.2 < 8)
    {m : Measurement} (hm : m ∈ memcmpRun time draws) :
    ∃ d ∈ draws, m.cls = d.1 ∧ m.cyc = time (if d.1 then d.2 + 1 else cmplen) := by
  rcases List.mem_map.mp hm with ⟨d, hd, rfl⟩
  exact ⟨d, hd, rfl, by rw [naiveMemcmp_candidate d.1 (hdraws d hd)]⟩

theorem countP_memcmpRun (time : ℕ → UInt64) (draws : List (Bool × ℕ)) :
    ((memcmpRun time draws).countP fun m => decide (m.cls = false)) =
      draws.countP fun d => !d.1 := by
  rw [memcmpRun, List.countP_map]
  apply List.countP_congr
  intro d _
  simp only [Function.comp_apply, decide_eq_true_eq, Bool.not_eq_true']

/-- The last cut keeps every measurement. -/
theorem samples_last_length (cls : Bool) (ms : List Measurement) :
    (samples ℝ cls (cut (· ^ · : ℝ → ℝ → ℝ) ms nPercentiles) ms).length =
      ms.countP fun m => decide (m.cls = cls) := by
  rw [samples, List.length_map, ← List.countP_eq_length_filter]
  apply List.countP_congr
  intro m _
  have hkept : m.cyc ≤ cut (· ^ · : ℝ → ℝ → ℝ) ms nPercentiles := cut_last ms m.cyc
  simp only [decide_eq_true_eq]
  exact and_iff_left hkept

section

variable {base perByte : UInt64} (hcost : 0 < perByte.toNat)
  (hfits : base.toNat + perByte.toNat * cmplen < 2 ^ 64) {draws : List (Bool × ℕ)}
  (hdraws : ∀ d ∈ draws, d.2 < 8)

include hdraws

theorem memcmpRun_of_leaked
    (hleaked : leaked Real.sqrt (· ^ · : ℝ → ℝ → ℝ) (memcmpRun (linearTime base perByte) draws) =
      true) :
    2 ≤ (draws.countP fun d => !d.1) ∧
      ∃ d ∈ draws, ∃ d' ∈ draws, d.1 = true ∧ d'.1 = true ∧ d.2 ≠ d'.2 := by
  constructor
  · by_contra hfew
    rcases (leaked_iff _ _ _ (by norm_num)).mp hleaked with ⟨p, _, hlarge⟩
    have hshort := samples_length_le (K := ℝ) false
      (cut (· ^ · : ℝ → ℝ → ℝ) (memcmpRun (linearTime base perByte) draws) p)
      (memcmpRun (linearTime base perByte) draws)
    rw [countP_memcmpRun] at hshort
    rw [croppedT_eq, welchT_short (Or.inl (hshort.trans_lt (not_le.mp hfew))), abs_zero] at hlarge
    exact absurd hlarge (by norm_num)
  · rcases spread_of_leaked hleaked with ⟨_, _, m, hm, m', hm', hcls, hne, _, _⟩
    rcases mem_memcmpRun hdraws hm with ⟨d, hd, hdcls, hdcyc⟩
    rcases mem_memcmpRun hdraws hm' with ⟨d', hd', hdcls', hdcyc'⟩
    have hsame : d.1 = d'.1 := hdcls.symm.trans (hcls.trans hdcls')
    rw [hdcyc, hdcyc', ← hsame] at hne
    cases hclass : d.1 with
    | false =>
        rw [hclass] at hne
        exact absurd rfl hne
    | true =>
        refine ⟨d, hd, d', hd', hclass, hsame.symm.trans hclass, fun heq => ?_⟩
        rw [heq] at hne
        exact hne rfl

include hcost hfits

theorem leaked_of_memcmpRun (hmany : 2 ≤ draws.countP fun d => !d.1) {d d' : Bool × ℕ}
    (hd : d ∈ draws) (hd' : d' ∈ draws) (hcls : d.1 = true) (hcls' : d'.1 = true)
    (hne : d.2 ≠ d'.2) :
    leaked Real.sqrt (· ^ · : ℝ → ℝ → ℝ) (memcmpRun (linearTime base perByte) draws) = true := by
  rw [leaked_iff _ _ _ (by norm_num)]
  refine ⟨nPercentiles, le_rfl, ?_⟩
  have htime : ∀ k ≤ cmplen, ((linearTime base perByte k).toNat : ℝ) =
      base.toNat + perByte.toNat * k := by
    intro k hk
    rw [linearTime_toNat hk hfits]
    push_cast
    rfl
  generalize hms : memcmpRun (linearTime base perByte) draws = ms
  have hfixed : ∀ x ∈ samples ℝ false (cut (· ^ · : ℝ → ℝ → ℝ) ms nPercentiles) ms,
      x = base.toNat + perByte.toNat * (cmplen : ℕ) := by
    intro x hx
    rcases mem_samples_iff.mp hx with ⟨m, hm, hmcls, _, rfl⟩
    rcases mem_memcmpRun hdraws (hms ▸ hm) with ⟨e, _, hecls, hecyc⟩
    rw [hecyc, ← hecls, hmcls, if_neg Bool.false_ne_true]
    exact htime cmplen le_rfl
  have hearly : ∀ y ∈ samples ℝ true (cut (· ^ · : ℝ → ℝ → ℝ) ms nPercentiles) ms,
      ∃ f < 8, y = base.toNat + perByte.toNat * ((f + 1 : ℕ) : ℝ) := by
    intro y hy
    rcases mem_samples_iff.mp hy with ⟨m, hm, hmcls, _, rfl⟩
    rcases mem_memcmpRun hdraws (hms ▸ hm) with ⟨e, he, hecls, hecyc⟩
    have hf := hdraws e he
    rw [hecyc, if_pos (hecls.symm.trans hmcls)]
    exact ⟨e.2, hf, htime _ (by rw [cmplen]; omega)⟩
  have hmem : ∀ e ∈ draws, e.1 = true → (base.toNat + perByte.toNat * ((e.2 + 1 : ℕ) : ℝ)) ∈
      samples ℝ true (cut (· ^ · : ℝ → ℝ → ℝ) ms nPercentiles) ms := by
    intro e he hecls
    have hf := hdraws e he
    rw [mem_samples_iff, ← hms]
    refine ⟨_, List.mem_map_of_mem he, hecls, cut_last _ _, ?_⟩
    dsimp only
    rw [naiveMemcmp_candidate e.1 hf, if_pos hecls, htime _ (by rw [cmplen]; omega)]
  have hper : (0 : ℝ) < perByte.toNat := Nat.cast_pos.mpr hcost
  have hdiffer : base.toNat + perByte.toNat * ((d.2 + 1 : ℕ) : ℝ) ≠
      base.toNat + perByte.toNat * ((d'.2 + 1 : ℕ) : ℝ) := by
    intro heq
    have hcast := mul_left_cancel₀ hper.ne' (add_left_cancel heq)
    exact hne (Nat.succ_injective (Nat.cast_injective hcast))
  rw [croppedT_eq]
  apply welchT_separated sqrt_real _ hfixed (l := base.toNat + perByte.toNat * 1)
    (u := base.toNat + perByte.toNat * 8) _ _ _ (hmem d hd hcls) (hmem d' hd' hcls') hdiffer
  · rw [cmplen]
    push_cast
    nlinarith [mul_pos hper hper]
  · rw [samples_last_length, ← hms, countP_memcmpRun]
    exact hmany
  · intro y hy
    rcases hearly y hy with ⟨f, _, rfl⟩
    have hf : (1 : ℝ) ≤ ((f + 1 : ℕ) : ℝ) := by exact_mod_cast Nat.succ_pos f
    gcongr
  · intro y hy
    rcases hearly y hy with ⟨f, hlt, rfl⟩
    have hf : ((f + 1 : ℕ) : ℝ) ≤ 8 := by exact_mod_cast hlt
    gcongr
  · rw [cmplen]
    push_cast
    gcongr
    norm_num

end

/-- With a fixed cost for each byte looked at and over exact reals, the early exit of
the comparison is reported exactly when two measurements of class 0 and two positions in class 1
were drawn. -/
theorem memcmp_leak_iff {base perByte : UInt64} (hcost : 0 < perByte.toNat)
    (hfits : base.toNat + perByte.toNat * cmplen < 2 ^ 64) {draws : List (Bool × ℕ)}
    (hdraws : ∀ d ∈ draws, d.2 < 8) :
    (ctDudectTrad Real.sqrt (· ^ · : ℝ → ℝ → ℝ) 2
        (memcmpRun (linearTime base perByte) draws)).verdict = .expectedVartime ↔
      2 ≤ (draws.countP fun d => !d.1) ∧
        ∃ d ∈ draws, ∃ d' ∈ draws, d.1 = true ∧ d'.1 = true ∧ d.2 ≠ d'.2 := by
  have hverdict : ∀ l, verdict (tradExpectsConstantTime 2) l = .expectedVartime ↔ l = true := by
    decide
  constructor
  · intro hreport
    exact memcmpRun_of_leaked hdraws ((hverdict _).mp hreport)
  · rintro ⟨hmany, d, hd, d', hd', hcls, hcls', hne⟩
    exact (hverdict _).mpr
      (leaked_of_memcmpRun hcost hfits hdraws hmany hd hd' hcls hcls' hne)

theorem memcmp_leak_iff_four :
    (ctDudectTrad Real.sqrt (· ^ · : ℝ → ℝ → ℝ) 2
        (memcmpRun (linearTime 40 3) [(false, 0), (true, 2), (false, 5), (true, 7)])).verdict =
      .expectedVartime :=
  (memcmp_leak_iff (by decide) (by decide) (by decide)).mpr
    ⟨by decide, (true, 2), by decide, (true, 7), by decide, rfl, rfl, by decide⟩

end Dudect
end CMFuzz
