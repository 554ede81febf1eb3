import CMFuzz.BfvOracles

/-!
# Oracles of the CKKS scheme

`fhe_ckks_harness` compares approximate sums and products of SEAL with the true
ones, and `fhe_ckks_diff_harness` does so for SEAL and OpenFHE and compares the
two with each other.  Decrypted values are rationals, and the arithmetic of the
harnesses on them is exact.
-/

namespace CMFuzz
namespace Fhe

open ByteCodec
open Engine
open Pqc
open Rounds

/-! ## Iterations -/

/-- What a library decrypts in one iteration. -/
structure Ckks where
  add : ℚ → ℚ → ℚ
  mul : ℚ → ℚ → ℚ

def ckksAlg : String := "FHE-CKKS"

def addBound : ℚ := 1 / 100

def mulBound : ℚ := 1

def xlibAdd : ℚ := 1 / 50

def xlibMul : ℚ := 2

/-- `((double)(rand() % 20001) - 10000.0) / 100.0`. -/
def ckksReal (r : ℕ) : ℚ := ((r % 20001 : ℕ) - 10000) / 100

/-- The sum that SEAL decrypts; `CMF_FHE_FAULT` perturbs it. -/
def Ckks.sealAdd (S : Ckks) (fault : Bool) (a b : ℚ) : ℚ :=
  if fault then S.add a b + 5 else S.add a b

def ckksChecks (S : Ckks) (fault : Bool) (a b : ℚ) : List Check :=
  [⟨ckksAlg, "O2_ckks_error_bound", "CKKS add error exceeds bound",
      |S.sealAdd fault a b - (a + b)| ≤ addBound⟩,
    ⟨ckksAlg, "O2_ckks_error_bound", "CKKS mul error exceeds bound",
      |S.mul a b - a * b| ≤ mulBound + 1 / 1000 * |a * b|⟩]

def ckksBody (S : Ckks) (fault : Bool) : Pqc.Rand (List Check) := do
  let a ← rand
  let b ← rand
  pure (ckksChecks S fault (ckksReal a) (ckksReal b))

/-- `main` of `fhe_ckks_harness`. -/
def ckksRun (S : ℕ → Ckks) (fault : Bool) (seeded : ℕ → ℕ) (iters : ℤ) : Run where
  progress := iterate (fun i => ckksBody (S i) fault) 0 iters.toNat seeded
  line := s!"[fhe-ckks] SEAL CKKS: {iters} iters, add/mul within error bound\n"

def addDisagree : String := "SEAL vs OpenFHE CKKS add disagree"

def ckksDiffChecks (S O : Ckks) (fault : Bool) (a b : ℚ) : List Check :=
  let sAdd := S.sealAdd fault a b
  let oAdd := O.add a b
  let sMul := S.mul a b
  let oMul := O.mul a b
  [⟨ckksAlg, "O1_ckks_interop", "CKKS add error exceeds bound",
      |sAdd - (a + b)| ≤ addBound ∧ |oAdd - (a + b)| ≤ addBound⟩,
    ⟨ckksAlg, "O1_ckks_interop", "CKKS mul error exceeds bound",
      |sMul - a * b| ≤ mulBound + 1 / 1000 * |a * b| ∧
        |oMul - a * b| ≤ mulBound + 1 / 1000 * |a * b|⟩,
    ⟨ckksAlg, "O1_ckks_interop", addDisagree, |sAdd - oAdd| ≤ xlibAdd⟩,
    ⟨ckksAlg, "O1_ckks_interop", "SEAL vs OpenFHE CKKS mul disagree",
      |sMul - oMul| ≤ xlibMul + 1 / 1000 * |a * b|⟩]

def ckksDiffBody (S O : Ckks) (fault : Bool) : Pqc.Rand (List Check) := do
  let a ← rand
  let b ← rand
  pure (ckksDiffChecks S O fault (ckksReal a) (ckksReal b))

/-- `main` of `fhe_ckks_diff_harness`. -/
def ckksDiff (S O : ℕ → Ckks) (fault : Bool) (seeded : ℕ → ℕ) (iters : ℤ) : Run where
  progress := iterate (fun i => ckksDiffBody (S i) (O i) fault) 0 iters.toNat seeded
  line := s!"[fhe-ckks-diff] CKKS OpenFHE<->SEAL: {iters} iters, add/mul agree within bounds\n"

theorem ckksBody_draws (S : ℕ → Ckks) (fault : Bool) (i : ℕ) (s : ℕ → ℕ) :
    (ckksBody (S i) fault s).2 = fun n => s (2 + n) := by
  funext n
  show s (n + 1 + 1) = s (2 + n)
  rw [Nat.add_comm 2 n]

theorem ckksDiffBody_draws (S O : ℕ → Ckks) (fault : Bool) (i : ℕ) (s : ℕ → ℕ) :
    (ckksDiffBody (S i) (O i) fault s).2 = fun n => s (2 + n) := by
  funext n
  show s (n + 1 + 1) = s (2 + n)
  rw [Nat.add_comm 2 n]

/-! ## Runs -/

section

variable (S O : ℕ → Ckks) (fault : Bool) (seeded : ℕ → ℕ) (iters : ℤ)

theorem ckksRun_printed_iff : (ckksRun S fault seeded iters).printed.isSome = true ↔
    ∀ i < iters.toNat, violation (ckksChecks (S i) fault (ckksReal (seeded (2 * i)))
      (ckksReal (seeded (2 * i + 1)))) = none := by
  rw [printed_isSome_iff, ckksRun, iterate_violation, List.findSome?_eq_none_iff]
  simp only [List.mem_range, stateAt_draws (ckksBody_draws S fault), Nat.zero_add]
  exact Iff.rfl

theorem ckksDiff_violation : (ckksDiff S O fault seeded iters).progress.violation =
    (List.range iters.toNat).findSome? fun i =>
      violation (ckksDiffChecks (S i) (O i) fault (ckksReal (seeded (2 * i)))
        (ckksReal (seeded (2 * i + 1)))) := by
  rw [ckksDiff, iterate_violation]
  simp only [stateAt_draws (ckksDiffBody_draws S O fault), Nat.zero_add]
  rfl

end

theorem ckksChecks_quiet_iff (S : Ckks) (fault : Bool) (a b : ℚ) :
    violation (ckksChecks S fault a b) = none ↔
      |S.sealAdd fault a b - (a + b)| ≤ addBound ∧
        |S.mul a b - a * b| ≤ mulBound + 1 / 1000 * |a * b| := by
  rw [violation_eq_none_iff, ckksChecks]
  simp only [List.forall_mem_cons, decide_eq_true_eq]
  exact ⟨fun h => ⟨h.1, h.2.1⟩, fun h => ⟨h.1, h.2, fun _ hc => absurd hc List.not_mem_nil⟩⟩

/-- Two values within the bound of a third. -/
theorem sums_agree {x y z : ℚ} (hx : |x - z| ≤ addBound) (hy : |y - z| ≤ addBound) :
    |x - y| ≤ xlibAdd := by
  have htriangle := abs_sub_le x z y
  rw [abs_sub_comm z y] at htriangle
  have hsum : addBound + addBound = xlibAdd := by norm_num [addBound, xlibAdd]
  linarith

theorem ckksDiffChecks_quiet_iff (S O : Ckks) (fault : Bool) (a b : ℚ) :
    violation (ckksDiffChecks S O fault a b) = none ↔
      violation (ckksChecks S fault a b) = none ∧ violation (ckksChecks O false a b) = none ∧
        |S.mul a b - O.mul a b| ≤ xlibMul + 1 / 1000 * |a * b| := by
  have hplain : O.sealAdd false a b = O.add a b := if_neg Bool.false_ne_true
  rw [ckksChecks_quiet_iff, ckksChecks_quiet_iff, hplain, violation_eq_none_iff, ckksDiffChecks]
  simp only [List.forall_mem_cons, decide_eq_true_eq]
  constructor
  · rintro ⟨⟨hs, ho⟩, ⟨hs', ho'⟩, _, hx, _⟩
    exact ⟨⟨hs, hs'⟩, ⟨ho, ho'⟩, hx⟩
  · rintro ⟨⟨hs, hs'⟩, ⟨ho, ho'⟩, hx⟩
    exact ⟨⟨hs, ho⟩, ⟨hs', ho'⟩, sums_agree hs ho, hx, fun _ hc => absurd hc List.not_mem_nil⟩

/-- The comparison of the two sums never fails first. -/
theorem ckksDiffChecks_msg (S O : Ckks) (fault : Bool) (a b : ℚ) {c : Check}
    (hc : violation (ckksDiffChecks S O fault a b) = some c) : c.msg ≠ addDisagree := by
  rw [violation, ckksDiffChecks] at hc
  by_cases hadd : |S.sealAdd fault a b - (a + b)| ≤ addBound ∧ |O.add a b - (a + b)| ≤ addBound
  · have hagree := sums_agree hadd.1 hadd.2
    simp only [List.find?_cons, decide_eq_true hadd, decide_eq_true hagree, Bool.not_true] at hc
    split at hc
    · rw [← Option.some.inj hc]
      show "CKKS mul error exceeds bound" ≠ addDisagree
      decide
    · split at hc
      · rw [← Option.some.inj hc]
        show "SEAL vs OpenFHE CKKS mul disagree" ≠ addDisagree
        decide
      · exact absurd hc.symm (Option.some_ne_none c)
  · simp only [List.find?_cons, decide_eq_false hadd, Bool.not_false] at hc
    rw [← Option.some.inj hc]
    decide

/-- The differential run prints its line exactly where SEAL and OpenFHE pass the
test of one library each and the products agree; its comparison of the sums adds
nothing and never reports. -/
theorem ckks_diff_decomposes (S O : ℕ → Ckks) (fault : Bool) (seeded : ℕ → ℕ) (iters : ℤ) :
    ((ckksDiff S O fault seeded iters).printed.isSome = true ↔
      (ckksRun S fault seeded iters).printed.isSome = true ∧
      (ckksRun O false seeded iters).printed.isSome = true ∧
      ∀ i < iters.toNat,
        let a := ckksReal (seeded (2 * i))
        let b := ckksReal (seeded (2 * i + 1))
        |(S i).mul a b - (O i).mul a b| ≤ xlibMul + 1 / 1000 * |a * b|) ∧
    ∀ c, (ckksDiff S O fault seeded iters).progress.violation = some c →
      c.msg ≠ addDisagree := by
  constructor
  · rw [printed_isSome_iff, ckksDiff_violation, List.findSome?_eq_none_iff, ckksRun_printed_iff,
      ckksRun_printed_iff]
    simp only [List.mem_range, ckksDiffChecks_quiet_iff]
    constructor
    · intro hall
      exact ⟨fun i hi => (hall i hi).1, fun i hi => (hall i hi).2.1, fun i hi => (hall i hi).2.2⟩
    · rintro ⟨hs, ho, hx⟩ i hi
      exact ⟨hs i hi, ho i hi, hx i hi⟩
  · intro c hc
    rw [ckksDiff_violation] at hc
    rcases List.exists_of_findSome?_eq_some hc with ⟨i, _, hi⟩
    exact ckksDiffChecks_msg _ _ _ _ _ hi

/-- The fault build goes unreported only where SEAL's sums are off by the
opposite of the perturbation. -/
theorem ckks_self_test (S : ℕ → Ckks) (seeded : ℕ → ℕ) (iters : ℤ)
    (hprinted : (ckksRun S true seeded iters).printed.isSome = true) :
    ∀ i < iters.toNat,
      let a := ckksReal (seeded (2 * i))
      let b := ckksReal (seeded (2 * i + 1))
      |(S i).add a b - (a + b) + 5| ≤ 1 / 100 := by
  intro i hi
  have hquiet := (ckksRun_printed_iff S true seeded iters).mp hprinted i hi
  have hsum := ((ckksChecks_quiet_iff _ _ _ _).mp hquiet).1
  rw [Ckks.sealAdd, if_pos rfl, addBound, add_sub_right_comm] at hsum
  exact hsum

/-! ## What the bounds let through -/

theorem ckksReal_abs_le (r : ℕ) : |ckksReal r| ≤ 100 := by
  have hlt : r % 20001 ≤ 20000 := Nat.lt_succ_iff.mp (Nat.mod_lt r (by decide))
  have hle : ((r % 20001 : ℕ) : ℚ) ≤ 20000 := by exact_mod_cast hlt
  have hpos : (0 : ℚ) ≤ ((r % 20001 : ℕ) : ℚ) := Nat.cast_nonneg _
  rw [ckksReal, abs_le]
  constructor
  · linarith
  · linarith

theorem ckksReal_max : ckksReal 20000 = 100 := by
  norm_num [ckksReal]

/-- A library that is off by a constant in its sums and by a factor in its
products. -/
def skewed (d k : ℚ) : Ckks where
  add := fun a b => a + b + d
  mul := fun a b => k * (a * b)

theorem skewed_quiet_iff (d k a b : ℚ) :
    violation (ckksChecks (skewed d k) false a b) = none ↔
      |d| ≤ addBound ∧ |k - 1| * |a * b| ≤ mulBound + 1 / 1000 * |a * b| := by
  have hsum : (skewed d k).sealAdd false a b - (a + b) = d := by
    show a + b + d - (a + b) = d
    ring
  have hproduct : (skewed d k).mul a b - a * b = (k - 1) * (a * b) := by
    show k * (a * b) - a * b = (k - 1) * (a * b)
    ring
  rw [ckksChecks_quiet_iff, hsum, hproduct, abs_mul]

/-- Sums of SEAL that are off by 9 are reported, by the bound on the error. -/
theorem ckks_diff_decomposes_skewed :
    let run := ckksDiff (fun _ => skewed 9 1) (fun _ => skewed 0 1) false (fun n => n) 1
    ∃ c, run.progress.violation = some c ∧ c.msg = "CKKS add error exceeds bound" ∧
      c.msg ≠ addDisagree := by
  intro run
  have hviolation : run.progress.violation =
      some ⟨ckksAlg, "O1_ckks_interop", "CKKS add error exceeds bound", false⟩ := by
    decide +kernel
  exact ⟨_, hviolation, rfl, (ckks_diff_decomposes (fun _ => skewed 9 1) (fun _ => skewed 0 1)
    false (fun n => n) 1).2 _ hviolation⟩

/-- In exact arithmetic, a constant error in the sums passes every run up to the
bound of the harness, and a relative error in the products up to 11 in 10000;
beyond either, some run reports. -/
theorem ckks_sensitivity (d k : ℚ) :
    (∀ seeded iters, (ckksRun (fun _ => skewed d k) false seeded iters).printed.isSome = true) ↔
      |d| ≤ 1 / 100 ∧ |k - 1| ≤ 11 / 10000 := by
  simp only [ckksRun_printed_iff, skewed_quiet_iff]
  constructor
  · intro hall
    have hlargest := hall (fun _ => 20000) 1 0 (by decide)
    simp only [ckksReal_max] at hlargest
    have hproduct : |(100 : ℚ) * 100| = 10000 := by norm_num
    rw [hproduct, addBound, mulBound] at hlargest
    refine ⟨hlargest.1, ?_⟩
    linarith [hlargest.2]
  · rintro ⟨hd, hk⟩ seeded iters i _
    refine ⟨hd, ?_⟩
    have hsize : |ckksReal (seeded (2 * i)) * ckksReal (seeded (2 * i + 1))| ≤ 10000 := by
      rw [abs_mul]
      calc |ckksReal (seeded (2 * i))| * |ckksReal (seeded (2 * i + 1))| ≤ 100 * 100 :=
            mul_le_mul (ckksReal_abs_le _) (ckksReal_abs_le _) (abs_nonneg _) (by norm_num)
        _ = 10000 := by norm_num
    have hscaled := mul_le_mul_of_nonneg_right hk
      (abs_nonneg (ckksReal (seeded (2 * i)) * ckksReal (seeded (2 * i + 1))))
    rw [mulBound]
    linarith

end Fhe
end CMFuzz
