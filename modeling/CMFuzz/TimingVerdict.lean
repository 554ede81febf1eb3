import CMFuzz.BestScan
import CMFuzz.TimingStatistics
import Mathlib.Analysis.SpecialFunctions.Pow.Real

/-!
# The verdict of the timing engine

What `main` of `ct_dudect.c` and `ct_dudect_trad.c` does with the measurements:
for each of 101 cuts it drops the slower measurements and compares the two
classes, and it reports the cut with the largest statistic.  Numbers are not
rounded; the square root and the power are parameters.
-/

namespace CMFuzz
namespace Dudect

open BestScan
open Moments

structure Measurement where
  cls : Bool
  cyc : UInt64
  deriving DecidableEq, Repr

def cmpU64 (a b : UInt64) : ℤ := (if b < a then 1 else 0) - (if a < b then 1 else 0)

/-- `qsort` on a copy of `cyc`. -/
def sorted (ms : List Measurement) : List UInt64 :=
  (ms.map Measurement.cyc).mergeSort fun a b => decide (cmpU64 a b ≤ 0)

def nPercentiles : ℕ := 100

section

variable {K : Type} [Field K] [LinearOrder K]

/-! ## Definitions -/

/-- `(size_t)((1.0 - pow(0.5, 10.0 * (p + 1) / N_PERCENTILES)) * N_MEAS)`. -/
def cutIndex [FloorSemiring K] (pow : K → K → K) (nMeas p : ℕ) : ℕ :=
  ⌊(1 - pow 0.5 (10.0 * (p + 1) / nPercentiles)) * nMeas⌋₊

/-- The last cut is `UINT64_MAX`. -/
def cut [FloorSemiring K] (pow : K → K → K) (ms : List Measurement) (p : ℕ) : UInt64 :=
  if p = nPercentiles then 0xffffffffffffffff
  else (sorted ms).getD (cutIndex pow ms.length p) 0

def pushMeasurement (cut : UInt64) (ab : Tstat K × Tstat K) (m : Measurement) :
    Tstat K × Tstat K :=
  if cut < m.cyc then ab
  else if m.cls then (ab.1, tPush ab.2 m.cyc.toNat)
  else (tPush ab.1 m.cyc.toNat, ab.2)

def accumulators (cut : UInt64) (ms : List Measurement) : Tstat K × Tstat K :=
  ms.foldl (pushMeasurement cut) (.zero, .zero)

def croppedT (sqrt : K → K) (cut : UInt64) (ms : List Measurement) : K :=
  welchT sqrt (accumulators cut ms).1 (accumulators cut ms).2

/-- `max_abs_t` and `best_cut`. -/
def analysis [FloorSemiring K] (sqrt : K → K) (pow : K → K → K) (ms : List Measurement) :
    K × UInt64 :=
  scan (fun p => |croppedT sqrt (cut pow ms p) ms|) (cut pow ms) (0, 0)
    (List.range (nPercentiles + 1))

/-- `max_abs_t > T_THRESHOLD`. -/
def leaked [FloorSemiring K] (sqrt : K → K) (pow : K → K → K) (ms : List Measurement) : Bool :=
  decide (4.5 < (analysis sqrt pow ms).1)

inductive Verdict where
  | finding
  | ok
  | expectedVartime
  | okUnexpectedlyCt
  deriving DecidableEq, Repr

def Verdict.text : Verdict → String
  | .finding => "FINDING"
  | .ok => "OK"
  | .expectedVartime => "EXPECTED_VARTIME"
  | .okUnexpectedlyCt => "OK_UNEXPECTEDLY_CT"

def verdict (ect leaked : Bool) : Verdict :=
  if ect then (if leaked then .finding else .ok)
  else if leaked then .expectedVartime
  else .okUnexpectedlyCt

/-- `CMF_KIND` is 0 for decapsulation and 1 for signing. -/
def expectConstantTime (kind : ℕ) (alg : String) : Bool :=
  if kind = 0 then true
  else !(["ML-DSA", "Dilithium", "Falcon"].any fun name => decide (name.toList <:+: alg.toList))

/-- `expect` by `CMF_TRAD_OP`. -/
def tradExpectsConstantTime (op : ℕ) : Bool := !(decide (op = 2) || decide (op = 3))

/-- The fields of a `CMF_CT` line. -/
structure Report (K : Type) where
  alg : String
  op : String
  meas : ℕ
  maxT : K
  cut : UInt64
  expect : String
  verdict : Verdict

def report [FloorSemiring K] (sqrt : K → K) (pow : K → K → K) (alg op : String) (ect : Bool)
    (ms : List Measurement) : Report K where
  alg := alg
  op := op
  meas := ms.length
  maxT := (analysis sqrt pow ms).1
  cut := (analysis sqrt pow ms).2
  expect := if ect then "ct" else "vartime"
  verdict := verdict ect (leaked sqrt pow ms)

def ctDudect [FloorSemiring K] (sqrt : K → K) (pow : K → K → K) (kind : ℕ) (alg : String)
    (ms : List Measurement) : Report K :=
  report sqrt pow alg (if kind = 0 then "decaps" else "sign") (expectConstantTime kind alg) ms

def opname : ℕ → String
  | 0 => "aes256_enc"
  | 1 => "crypto_memcmp"
  | 2 => "naive_memcmp"
  | 3 => "aescbc_pkcs7_oracle"
  | _ => "hmac_sha256_msg"

def ctDudectTrad [FloorSemiring K] (sqrt : K → K) (pow : K → K → K) (op : ℕ)
    (ms : List Measurement) : Report K :=
  report sqrt pow "traditional" (opname op) (tradExpectsConstantTime op) ms

/-! ## Sorting -/

theorem cmpU64_nonpos (a b : UInt64) : cmpU64 a b ≤ 0 ↔ a ≤ b := by
  simp only [cmpU64, UInt64.lt_iff_toNat_lt, UInt64.le_iff_toNat_le]
  split
  · split <;> omega
  · split <;> omega

theorem sorted_pairwise (ms : List Measurement) : (sorted ms).Pairwise (· ≤ ·) := by
  have hsort : (sorted ms).Pairwise fun a b => decide (cmpU64 a b ≤ 0) = true := by
    apply List.pairwise_mergeSort
    · intro a b c hab hbc
      rw [decide_eq_true_eq, cmpU64_nonpos] at hab hbc ⊢
      exact UInt64.le_trans hab hbc
    · intro a b
      rw [Bool.or_eq_true, decide_eq_true_eq, decide_eq_true_eq, cmpU64_nonpos, cmpU64_nonpos]
      exact UInt64.le_total a b
  apply hsort.imp
  intro a b hab
  rwa [decide_eq_true_eq, cmpU64_nonpos] at hab

theorem sorted_perm (ms : List Measurement) : (sorted ms).Perm (ms.map Measurement.cyc) :=
  List.mergeSort_perm _ _

theorem sorted_length (ms : List Measurement) : (sorted ms).length = ms.length := by
  rw [(sorted_perm ms).length_eq, List.length_map]

/-- Sorting forgets the order of the measurements and their classes. -/
theorem sorted_congr {ms ms' : List Measurement}
    (hperm : (ms.map Measurement.cyc).Perm (ms'.map Measurement.cyc)) :
    sorted ms = sorted ms' :=
  List.Perm.eq_of_pairwise (fun _ _ _ _ => UInt64.le_antisymm) (sorted_pairwise ms)
    (sorted_pairwise ms') (((sorted_perm ms).trans hperm).trans (sorted_perm ms').symm)

end

/-! ## Cuts -/

section

variable {K : Type} [Field K] [LinearOrder K] [IsStrictOrderedRing K] [FloorSemiring K]
  {pow : K → K → K} (hpow : ∀ x, 0 ≤ x → 0 < pow 0.5 x)

theorem exponent_nonneg (p : ℕ) : (0 : K) ≤ 10.0 * (p + 1) / nPercentiles := by
  have hten : (0 : K) ≤ 10.0 := by norm_num
  positivity

include hpow

theorem cutIndex_lt {nMeas : ℕ} (hmeas : 0 < nMeas) (p : ℕ) : cutIndex pow nMeas p < nMeas := by
  have hn : (0 : K) < nMeas := Nat.cast_pos.mpr hmeas
  rw [cutIndex, Nat.floor_lt' hmeas.ne']
  exact mul_lt_of_lt_one_left hn (sub_lt_self 1 (hpow _ (exponent_nonneg p)))

theorem cut_eq {ms : List Measurement} (hms : ms ≠ []) {p : ℕ} (hp : p ≠ nPercentiles) :
    ∃ h : cutIndex pow ms.length p < (sorted ms).length,
      cut pow ms p = (sorted ms)[cutIndex pow ms.length p] := by
  have hindex : cutIndex pow ms.length p < (sorted ms).length := by
    rw [sorted_length]
    exact cutIndex_lt hpow (List.length_pos_iff.mpr hms) p
  refine ⟨hindex, ?_⟩
  rw [cut, if_neg hp, List.getD_eq_getElem?_getD, List.getElem?_eq_getElem hindex,
    Option.getD_some]

omit hpow in
theorem cutIndex_mono (hanti : ∀ x y, 0 ≤ x → x ≤ y → pow 0.5 y ≤ pow 0.5 x)
    (nMeas : ℕ) {p q : ℕ} (hpq : p ≤ q) : cutIndex pow nMeas p ≤ cutIndex pow nMeas q := by
  have hexponent : (10.0 * (p + 1) / nPercentiles : K) ≤ 10.0 * (q + 1) / nPercentiles := by
    have hten : (0 : K) ≤ 10.0 := by norm_num
    have hcast : (p : K) ≤ q := Nat.cast_le.mpr hpq
    gcongr
  have hvalue := hanti _ _ (exponent_nonneg p) hexponent
  exact Nat.floor_mono (mul_le_mul_of_nonneg_right (sub_le_sub_left hvalue 1)
    (Nat.cast_nonneg nMeas))

omit [IsStrictOrderedRing K] hpow in
theorem cut_last (ms : List Measurement) (x : UInt64) : x ≤ cut pow ms nPercentiles := by
  rw [cut, if_pos rfl, UInt64.le_iff_toNat_le]
  exact Nat.le_of_lt_succ x.toNat_lt

theorem cut_mono (hanti : ∀ x y, 0 ≤ x → x ≤ y → pow 0.5 y ≤ pow 0.5 x)
    {ms : List Measurement} (hms : ms ≠ []) {p q : ℕ} (hpq : p ≤ q) (hq : q ≤ nPercentiles) :
    cut pow ms p ≤ cut pow ms q := by
  by_cases hlast : q = nPercentiles
  · rw [hlast]
    exact cut_last ms _
  · rcases cut_eq hpow hms hlast with ⟨hj, hcutq⟩
    rcases cut_eq hpow hms (by omega : p ≠ nPercentiles) with ⟨hi, hcutp⟩
    rw [hcutp, hcutq]
    rcases (cutIndex_mono hanti ms.length hpq).eq_or_lt with heq | hlt
    · exact UInt64.le_of_eq (getElem_congr_idx heq)
    · exact List.pairwise_iff_getElem.mp (sorted_pairwise ms) _ _ hi hj hlt

end

/-! ## Classes -/

/-- The samples of one class that a cut keeps. -/
def samples (K : Type) [NatCast K] (cls : Bool) (cut : UInt64) (ms : List Measurement) : List K :=
  (ms.filter fun m => decide (m.cls = cls ∧ m.cyc ≤ cut)).map fun m => (m.cyc.toNat : K)

section

variable {K : Type} [NatCast K]

theorem samples_cons (cls : Bool) (cut : UInt64) (m : Measurement) (ms : List Measurement) :
    samples K cls cut (m :: ms) =
      if m.cls = cls ∧ m.cyc ≤ cut then (m.cyc.toNat : K) :: samples K cls cut ms
      else samples K cls cut ms := by
  rw [samples, List.filter_cons]
  split
  · rename_i hkept
    rw [if_pos (of_decide_eq_true hkept), List.map_cons, samples]
  · rename_i hdropped
    rw [if_neg (fun h => hdropped (decide_eq_true h)), samples]

theorem samples_perm (cls : Bool) (cut : UInt64) {ms ms' : List Measurement}
    (hperm : ms.Perm ms') : (samples K cls cut ms).Perm (samples K cls cut ms') :=
  (hperm.filter _).map _

theorem mem_samples_iff {cls : Bool} {cut : UInt64} {ms : List Measurement} {x : K} :
    x ∈ samples K cls cut ms ↔ ∃ m ∈ ms, m.cls = cls ∧ m.cyc ≤ cut ∧ x = m.cyc.toNat := by
  rw [samples, List.mem_map]
  constructor
  · rintro ⟨m, hm, rfl⟩
    rcases List.mem_filter.mp hm with ⟨hmem, hkept⟩
    rcases of_decide_eq_true hkept with ⟨hcls, hcut⟩
    exact ⟨m, hmem, hcls, hcut, rfl⟩
  · rintro ⟨m, hm, hcls, hcut, rfl⟩
    exact ⟨m, List.mem_filter.mpr ⟨hm, decide_eq_true ⟨hcls, hcut⟩⟩, rfl⟩

theorem samples_length_le (cls : Bool) (cut : UInt64) (ms : List Measurement) :
    (samples K cls cut ms).length ≤ ms.countP fun m => decide (m.cls = cls) := by
  rw [samples, List.length_map, ← List.countP_eq_length_filter]
  apply List.countP_mono_left
  intro m _ hkept
  exact decide_eq_true (of_decide_eq_true hkept).1

end

section

variable {K : Type} [Field K] [LinearOrder K]

omit [LinearOrder K] in
theorem foldl_pushMeasurement (cut : UInt64) (ms : List Measurement) (a b : Tstat K) :
    ms.foldl (pushMeasurement cut) (a, b) =
      ((samples K false cut ms).foldl tPush a, (samples K true cut ms).foldl tPush b) := by
  induction ms generalizing a b with
  | nil => rfl
  | cons m ms ih =>
      rw [List.foldl_cons, pushMeasurement, samples_cons, samples_cons]
      by_cases hcut : cut < m.cyc
      · have hslow : ¬ m.cyc ≤ cut := fun hle => UInt64.not_lt.mpr hle hcut
        rw [if_pos hcut, if_neg (fun h => hslow h.2), if_neg (fun h => hslow h.2)]
        exact ih a b
      · have hkept : m.cyc ≤ cut := UInt64.not_lt.mp hcut
        rw [if_neg hcut]
        cases hcls : m.cls with
        | false =>
            rw [if_neg Bool.false_ne_true, if_pos ⟨rfl, hkept⟩,
              if_neg (fun h => Bool.false_ne_true h.1), ih]
            rfl
        | true =>
            rw [if_pos rfl, if_neg (fun h => Bool.false_ne_true h.1.symm), if_pos ⟨rfl, hkept⟩,
              ih]
            rfl

theorem croppedT_eq (sqrt : K → K) (cut : UInt64) (ms : List Measurement) :
    croppedT sqrt cut ms =
      welchT sqrt (pushAll (samples K false cut ms)) (pushAll (samples K true cut ms)) := by
  rw [croppedT, accumulators, foldl_pushMeasurement]
  rfl

end

/-! ## The size of the statistic -/

section

variable {K : Type} [Field K] [LinearOrder K] [IsStrictOrderedRing K] {sqrt : K → K}

theorem welchT_short {xs ys : List K} (hshort : xs.length < 2 ∨ ys.length < 2) :
    welchT sqrt (pushAll xs) (pushAll ys) = 0 := by
  have hcast : ∀ zs : List K, zs.length < 2 → (pushAll zs).n < 2 := by
    intro zs hzs
    have hlen : (zs.length : K) < 2 := by exact_mod_cast hzs
    rw [pushAll_eq]
    exact hlen
  rw [welchT, if_pos (hshort.imp (hcast xs) (hcast ys))]

variable (hsqrt : ∀ x, 0 ≤ x → sqrt x * sqrt x = x)

include hsqrt

theorem abs_welchT_swap (xs ys : List K) :
    |welchT sqrt (pushAll ys) (pushAll xs)| = |welchT sqrt (pushAll xs) (pushAll ys)| := by
  by_cases hshort : xs.length < 2 ∨ ys.length < 2
  · rw [welchT_short hshort, welchT_short hshort.symm]
  · rcases not_or.mp hshort with ⟨hxs, hys⟩
    exact (sq_eq_sq_iff_abs_eq_abs _ _).mp
      (welchT_swap hsqrt (not_lt.mp hxs) (not_lt.mp hys))

theorem abs_welchT_shift (xs ys : List K) (c : K) :
    |welchT sqrt (pushAll (xs.map (· + c))) (pushAll (ys.map (· + c)))| =
      |welchT sqrt (pushAll xs) (pushAll ys)| := by
  by_cases hshort : xs.length < 2 ∨ ys.length < 2
  · rw [welchT_short hshort, welchT_short (by rwa [List.length_map, List.length_map])]
  · rcases not_or.mp hshort with ⟨hxs, hys⟩
    exact (sq_eq_sq_iff_abs_eq_abs _ _).mp
      (welchT_shift hsqrt (not_lt.mp hxs) (not_lt.mp hys) c)

/-- Two classes without any spread are not told apart. -/
theorem welchT_of_constant {xs ys : List K} {c d : K} (hxs : ∀ x ∈ xs, x = c)
    (hys : ∀ y ∈ ys, y = d) : welchT sqrt (pushAll xs) (pushAll ys) = 0 := by
  by_cases hshort : xs.length < 2 ∨ ys.length < 2
  · exact welchT_short hshort
  · rcases not_or.mp hshort with ⟨hxlen, hylen⟩
    have hsq := welchT_pushAll_sq hsqrt (not_lt.mp hxlen) (not_lt.mp hylen)
    rw [variance, variance, sqDev_of_constant hxs, sqDev_of_constant hys, zero_div, zero_div,
      zero_div, zero_div, add_zero, div_zero] at hsq
    exact pow_eq_zero_iff two_ne_zero |>.mp hsq

end

/-! ## Reports -/

theorem verdict_finding_iff (ect leaked : Bool) :
    verdict ect leaked = .finding ↔ ect = true ∧ leaked = true := by
  cases ect <;> cases leaked <;> simp [verdict]

theorem verdict_leak_iff (ect leaked : Bool) :
    verdict ect leaked = .finding ∨ verdict ect leaked = .expectedVartime ↔ leaked = true := by
  cases ect <;> cases leaked <;> simp [verdict]

theorem verdict_expectedVartime_iff (ect leaked : Bool) :
    verdict ect leaked = .expectedVartime ↔ ect = false ∧ leaked = true := by
  cases ect <;> cases leaked <;> simp [verdict]

section

variable {K : Type} [Field K] [LinearOrder K] [FloorSemiring K]
  (sqrt : K → K) (pow : K → K → K) (ms : List Measurement)

theorem leaked_iff (hthreshold : (0 : K) ≤ 4.5) : leaked sqrt pow ms = true ↔
    ∃ p ≤ nPercentiles, 4.5 < |croppedT sqrt (cut pow ms p) ms| := by
  rw [leaked, decide_eq_true_eq, analysis, lt_scan_iff, or_iff_right (not_lt.mpr hthreshold)]
  simp only [List.mem_range, Nat.lt_succ_iff]

theorem report_finding_iff (hthreshold : (0 : K) ≤ 4.5) (alg op : String) (ect : Bool) :
    (report sqrt pow alg op ect ms).verdict = .finding ↔
      ect = true ∧ ∃ p ≤ nPercentiles, 4.5 < |croppedT sqrt (cut pow ms p) ms| := by
  rw [report, verdict_finding_iff, leaked_iff _ _ _ hthreshold]

theorem report_expectedVartime_iff (hthreshold : (0 : K) ≤ 4.5) (alg op : String)
    (ect : Bool) : (report sqrt pow alg op ect ms).verdict = .expectedVartime ↔
      ect = false ∧ ∃ p ≤ nPercentiles, 4.5 < |croppedT sqrt (cut pow ms p) ms| := by
  rw [report, verdict_expectedVartime_iff, leaked_iff _ _ _ hthreshold]

theorem le_maxT {p : ℕ} (hp : p ≤ nPercentiles) :
    |croppedT sqrt (cut pow ms p) ms| ≤ (analysis sqrt pow ms).1 :=
  le_scan (fun p => |croppedT sqrt (cut pow ms p) ms|) _ _
    (List.mem_range.mpr (Nat.lt_succ_of_le hp))

theorem analysis_first : analysis sqrt pow ms = (0, 0) ∨
    ∃ p ≤ nPercentiles, analysis sqrt pow ms =
        (|croppedT sqrt (cut pow ms p) ms|, cut pow ms p) ∧
      0 < |croppedT sqrt (cut pow ms p) ms| ∧
      ∀ q < p, |croppedT sqrt (cut pow ms q) ms| < |croppedT sqrt (cut pow ms p) ms| := by
  rcases scan_first (fun p => |croppedT sqrt (cut pow ms p) ms|) (cut pow ms) (0, 0)
    (List.range (nPercentiles + 1)) with hkept | ⟨before, p, after, hrange, hscan, hpos, hfirst⟩
  · exact Or.inl hkept
  · right
    have hp : p < nPercentiles + 1 :=
      List.mem_range.mp (hrange ▸ List.mem_append_right before List.mem_cons_self)
    have hlater : ∀ q ∈ after, p < q := by
      have hsorted := List.pairwise_lt_range (n := nPercentiles + 1)
      rw [hrange, List.pairwise_append, List.pairwise_cons] at hsorted
      exact hsorted.2.1.1
    refine ⟨p, Nat.le_of_lt_succ hp, hscan, hpos, fun q hq => ?_⟩
    have hmem : q ∈ before ++ p :: after :=
      hrange ▸ List.mem_range.mpr (hq.trans hp)
    rcases List.mem_append.mp hmem with hbefore | hrest
    · exact hfirst q hbefore
    · rcases List.mem_cons.mp hrest with rfl | hafter
      · exact absurd hq (lt_irrefl q)
      · exact absurd (hlater q hafter) hq.asymm

end

theorem half_rpow_pos (x : ℝ) : 0 < (0.5 : ℝ) ^ x := Real.rpow_pos_of_pos (by norm_num) x

theorem half_rpow_anti {x y : ℝ} (hxy : x ≤ y) : (0.5 : ℝ) ^ y ≤ (0.5 : ℝ) ^ x :=
  Real.rpow_le_rpow_of_exponent_ge (by norm_num) (by norm_num) hxy

/-- A leak is reported exactly where one of the cuts separates the classes, as a
finding for an operation that should take constant time.  The cuts grow with the
percentile up to one that keeps every measurement, none reads outside the sorted
copy, and the line shows the largest statistic with the first cut that has it. -/
theorem timing_report_exact (alg op : String) (ect : Bool) {ms : List Measurement}
    (hms : ms ≠ []) :
    let t := fun p => |croppedT Real.sqrt (cut (· ^ · : ℝ → ℝ → ℝ) ms p) ms|
    let r := report Real.sqrt (· ^ ·) alg op ect ms
    (r.verdict = .finding ∨ r.verdict = .expectedVartime ↔ ∃ p ≤ nPercentiles, 4.5 < t p) ∧
      (r.verdict = .finding ↔ ect = true ∧ ∃ p ≤ nPercentiles, 4.5 < t p) ∧
      (∀ p ≤ nPercentiles, t p ≤ r.maxT) ∧
      (r.maxT = 0 ∧ r.cut = 0 ∨ ∃ p ≤ nPercentiles,
        r.cut = cut (· ^ · : ℝ → ℝ → ℝ) ms p ∧ r.maxT = t p ∧ 0 < t p ∧ ∀ q < p, t q < t p) ∧
      (∀ p, cutIndex (· ^ · : ℝ → ℝ → ℝ) ms.length p < (sorted ms).length) ∧
      (∀ p q, p ≤ q → q ≤ nPercentiles →
        cut (· ^ · : ℝ → ℝ → ℝ) ms p ≤ cut (· ^ · : ℝ → ℝ → ℝ) ms q) ∧
      ∀ m ∈ ms, m.cyc ≤ cut (· ^ · : ℝ → ℝ → ℝ) ms nPercentiles := by
  have hpow : ∀ x : ℝ, 0 ≤ x → 0 < (0.5 : ℝ) ^ x := fun x _ => half_rpow_pos x
  have hthreshold : (0 : ℝ) ≤ 4.5 := by norm_num
  refine ⟨?_, report_finding_iff Real.sqrt _ ms hthreshold alg op ect,
    fun p hp => le_maxT Real.sqrt _ ms hp, ?_, ?_, ?_, fun m _ => cut_last ms m.cyc⟩
  · rw [report, verdict_leak_iff, leaked_iff _ _ _ hthreshold]
  · rcases analysis_first Real.sqrt (· ^ ·) ms with hzero | ⟨p, hp, hbest, hfirst⟩
    · exact Or.inl ⟨congrArg Prod.fst hzero, congrArg Prod.snd hzero⟩
    · exact Or.inr ⟨p, hp, congrArg Prod.snd hbest, congrArg Prod.fst hbest, hfirst⟩
  · intro p
    rw [sorted_length]
    exact cutIndex_lt hpow (List.length_pos_iff.mpr hms) p
  · intro p q hpq hq
    exact cut_mono hpow (fun x y _ hxy => half_rpow_anti hxy) hms hpq hq

/-- Two measurements of each class, the classes far apart. -/
def apart : List Measurement := [⟨false, 100⟩, ⟨true, 200⟩, ⟨false, 101⟩, ⟨true, 201⟩]

theorem apart_separated :
    4.5 < |croppedT Real.sqrt (cut (· ^ · : ℝ → ℝ → ℝ) apart nPercentiles) apart| := by
  have hfirst : samples ℝ false (cut (· ^ · : ℝ → ℝ → ℝ) apart nPercentiles) apart =
      [((100 : ℕ) : ℝ), ((101 : ℕ) : ℝ)] := by
    rw [cut, if_pos rfl]
    rfl
  have hsecond : samples ℝ true (cut (· ^ · : ℝ → ℝ → ℝ) apart nPercentiles) apart =
      [((200 : ℕ) : ℝ), ((201 : ℕ) : ℝ)] := by
    rw [cut, if_pos rfl]
    rfl
  have hsq : welchT Real.sqrt (pushAll [((100 : ℕ) : ℝ), ((101 : ℕ) : ℝ)])
      (pushAll [((200 : ℕ) : ℝ), ((201 : ℕ) : ℝ)]) ^ 2 = _ :=
    welchT_pushAll_sq (fun _ => Real.mul_self_sqrt) le_rfl le_rfl
  have hvalue : |croppedT Real.sqrt (cut (· ^ · : ℝ → ℝ → ℝ) apart nPercentiles) apart| ^ 2 =
      20000 := by
    rw [sq_abs, croppedT_eq, hfirst, hsecond, hsq]
    norm_num [variance, sqDev, mean]
  apply lt_of_pow_lt_pow_left₀ 2 (abs_nonneg _)
  rw [hvalue]
  norm_num

theorem timing_report_exact_apart :
    (report Real.sqrt (· ^ · : ℝ → ℝ → ℝ) "ML-KEM-768" "decaps" true apart).verdict =
      .finding :=
  (timing_report_exact "ML-KEM-768" "decaps" true (List.cons_ne_nil _ _)).2.1.mpr
    ⟨rfl, nPercentiles, le_rfl, apart_separated⟩

/-! ## The two programs -/

theorem expectConstantTime_iff (kind : ℕ) (alg : String) :
    expectConstantTime kind alg = true ↔
      kind = 0 ∨ ∀ name ∈ ["ML-DSA", "Dilithium", "Falcon"], ¬ name.toList <:+: alg.toList := by
  rw [expectConstantTime]
  split
  · rename_i hkem
    exact iff_of_true rfl (Or.inl hkem)
  · rename_i hsig
    rw [or_iff_right hsig, Bool.not_eq_true', List.any_eq_false]
    simp only [decide_eq_true_eq]

theorem ctDudect_verdict (kind : ℕ) (alg : String) (ms : List Measurement) :
    let leak := ∃ p ≤ nPercentiles,
      4.5 < |croppedT Real.sqrt (cut (· ^ · : ℝ → ℝ → ℝ) ms p) ms|
    let named := ∃ name ∈ ["ML-DSA", "Dilithium", "Falcon"], name.toList <:+: alg.toList
    let r := ctDudect Real.sqrt (· ^ ·) kind alg ms
    (r.verdict = .finding ↔ (kind = 0 ∨ ¬ named) ∧ leak) ∧
      (r.verdict = .expectedVartime ↔ ¬ (kind = 0 ∨ ¬ named) ∧ leak) := by
  have hthreshold : (0 : ℝ) ≤ 4.5 := by norm_num
  have hexpect := expectConstantTime_iff kind alg
  intro leak named r
  have hnamed : (∀ name ∈ ["ML-DSA", "Dilithium", "Falcon"],
      ¬ name.toList <:+: alg.toList) ↔ ¬ named := by
    simp only [named, not_exists, not_and]
  rw [hnamed] at hexpect
  constructor
  · rw [← hexpect]
    exact report_finding_iff Real.sqrt (· ^ ·) ms hthreshold _ _ _
  · rw [← hexpect, Bool.not_eq_true]
    exact report_expectedVartime_iff Real.sqrt (· ^ ·) ms hthreshold _ _ _

theorem ctDudectTrad_verdict (op : ℕ) (ms : List Measurement) :
    let leak := ∃ p ≤ nPercentiles,
      4.5 < |croppedT Real.sqrt (cut (· ^ · : ℝ → ℝ → ℝ) ms p) ms|
    let r := ctDudectTrad Real.sqrt (· ^ ·) op ms
    (r.verdict = .finding ↔ ¬ (op = 2 ∨ op = 3) ∧ leak) ∧
      (r.verdict = .expectedVartime ↔ (op = 2 ∨ op = 3) ∧ leak) := by
  have hthreshold : (0 : ℝ) ≤ 4.5 := by norm_num
  have hexpect : tradExpectsConstantTime op = false ↔ op = 2 ∨ op = 3 := by
    simp [tradExpectsConstantTime, or_iff_not_imp_left]
  intro leak r
  constructor
  · rw [← hexpect, Bool.not_eq_false]
    exact report_finding_iff Real.sqrt (· ^ ·) ms hthreshold _ _ _
  · rw [← hexpect]
    exact report_expectedVartime_iff Real.sqrt (· ^ ·) ms hthreshold _ _ _

end Dudect
end CMFuzz
