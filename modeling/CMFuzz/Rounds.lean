import Mathlib.Algebra.Order.BigOperators.Group.List
import Mathlib.Algebra.Order.Group.Nat
import Mathlib.Data.UInt

/-!
# Loops of rounds

A round takes a state and gives the checks it made and the next state.  A
tallied loop never stops early: it logs the checks that fail and counts them
in a machine word, from which the exit status is taken.
-/

namespace CMFuzz
namespace Rounds

variable {α σ : Type}

/-- What the rounds before the `j`-th leave. -/
def stateAt (body : ℕ → σ → α × σ) : ℕ → ℕ → σ → σ
  | _, 0, s => s
  | i, j + 1, s => stateAt body (i + 1) j (body i s).2

/-- Rounds that take `k` numbers of a stream each. -/
theorem stateAt_draws {body : ℕ → (ℕ → ℕ) → α × (ℕ → ℕ)} {k : ℕ}
    (hdraws : ∀ i s, (body i s).2 = fun n => s (k + n)) (i j : ℕ) (s : ℕ → ℕ) :
    stateAt body i j s = fun n => s (k * j + n) := by
  induction j generalizing i s with
  | zero => exact funext fun n => congrArg s (Nat.zero_add n).symm
  | succ j ih =>
      rw [stateAt, ih, hdraws]
      funext n
      rw [Nat.mul_succ, Nat.add_comm (k * j) k, Nat.add_assoc]

/-- Where each round can leave any state, so can the rounds before the `j`-th. -/
theorem stateAt_surjective {body : ℕ → σ → α × σ}
    (honto : ∀ i, Function.Surjective fun s => (body i s).2) (i j : ℕ) :
    Function.Surjective (stateAt body i j) := by
  induction j generalizing i with
  | zero => exact Function.surjective_id
  | succ j ih => exact (ih (i + 1)).comp (honto i)

/-! ## Tallies -/

structure Tally (α : Type) where
  log : List α
  failures : UInt64

namespace Tally

def empty : Tally α := ⟨[], 0⟩

def report (t : Tally α) (c : α) : Tally α := ⟨t.log ++ [c], t.failures + 1⟩

def round (failed : α → Bool) (t : Tally α) (checks : List α) : Tally α :=
  checks.foldl (fun t c => if failed c then t.report c else t) t

def status (t : Tally α) : ℕ := if 0 < t.failures then 1 else 0

/-- The word counts what is logged, modulo its size. -/
def Counted (t : Tally α) : Prop := t.failures = UInt64.ofNat t.log.length

theorem empty_counted : (empty : Tally α).Counted := rfl

theorem report_counted {t : Tally α} (ht : t.Counted) (c : α) : (t.report c).Counted := by
  have hlength : (t.report c).log.length = t.log.length + 1 := List.length_append
  rw [Counted, hlength, UInt64.ofNat_add, ← ht]
  rfl

theorem round_counted (failed : α → Bool) {t : Tally α} (ht : t.Counted) (checks : List α) :
    (t.round failed checks).Counted := by
  induction checks generalizing t with
  | nil => exact ht
  | cons c checks ih =>
      show ((if failed c then t.report c else t).round failed checks).Counted
      split
      · exact ih (report_counted ht c)
      · exact ih ht

theorem round_log (failed : α → Bool) (t : Tally α) (checks : List α) :
    (t.round failed checks).log = t.log ++ checks.filter failed := by
  induction checks generalizing t with
  | nil => exact (List.append_nil _).symm
  | cons c checks ih =>
      show ((if failed c then t.report c else t).round failed checks).log = _
      cases hfailed : failed c with
      | false =>
          rw [List.filter_cons_of_neg (by rw [hfailed]; exact Bool.false_ne_true)]
          exact ih t
      | true =>
          rw [List.filter_cons_of_pos hfailed]
          rw [if_pos rfl, ih, report, List.append_assoc]
          rfl

theorem status_eq_zero_iff {t : Tally α} (ht : t.Counted) :
    t.status = 0 ↔ 2 ^ 64 ∣ t.log.length := by
  have hword : 0 < t.failures ↔ t.log.length % 2 ^ 64 ≠ 0 := by
    rw [ht, UInt64.lt_iff_toNat_lt, UInt64.toNat_ofNat']
    exact Nat.pos_iff_ne_zero
  rw [Nat.dvd_iff_mod_eq_zero, status]
  split
  case isTrue hpos => exact iff_of_false Nat.one_ne_zero (hword.mp hpos)
  case isFalse hzero => exact iff_of_true rfl (not_not.mp (mt hword.mpr hzero))

theorem status_eq_one_iff (t : Tally α) : t.status = 1 ↔ ¬ t.status = 0 := by
  rw [status]
  split
  · exact iff_of_true rfl Nat.one_ne_zero
  · exact iff_of_false Nat.zero_ne_one (not_not.mpr rfl)

theorem status_eq_zero_iff_of_lt {t : Tally α} (ht : t.Counted) (hlt : t.log.length < 2 ^ 64) :
    t.status = 0 ↔ t.log = [] := by
  rw [status_eq_zero_iff ht, ← List.length_eq_zero_iff]
  constructor
  · exact fun hdvd => Nat.eq_zero_of_dvd_of_lt hdvd hlt
  · intro hzero
    rw [hzero]
    exact Nat.dvd_zero _

end Tally

/-- Rounds `i`, `i + 1`, ... of a loop, all of them tallied. -/
def tallied (failed : α → Bool) (body : ℕ → σ → List α × σ) : ℕ → ℕ → σ → Tally α → Tally α
  | _, 0, _, t => t
  | i, k + 1, s, t => tallied failed body (i + 1) k (body i s).2 (t.round failed (body i s).1)

theorem tallied_counted (failed : α → Bool) (body : ℕ → σ → List α × σ) (i k : ℕ) (s : σ)
    {t : Tally α} (ht : t.Counted) : (tallied failed body i k s t).Counted := by
  induction k generalizing i s t with
  | zero => exact ht
  | succ k ih => exact ih (i + 1) (body i s).2 (Tally.round_counted failed ht (body i s).1)

/-- A loop logs what its rounds log, in their order. -/
theorem tallied_log (failed : α → Bool) (body : ℕ → σ → List α × σ) (i k : ℕ) (s : σ)
    (t : Tally α) : (tallied failed body i k s t).log =
      t.log ++ (List.range k).flatMap fun j =>
        (body (i + j) (stateAt body i j s)).1.filter failed := by
  induction k generalizing i s t with
  | zero => exact (List.append_nil _).symm
  | succ k ih =>
      rw [tallied, ih, Tally.round_log, List.append_assoc, List.range_succ_eq_map,
        List.flatMap_cons, List.flatMap_map]
      apply congrArg (t.log ++ ·)
      apply congrArg ((body i s).1.filter failed ++ ·)
      apply List.flatMap_congr
      intro j _
      rw [Nat.succ_eq_add_one, stateAt, Nat.add_assoc i 1 j, Nat.add_comm 1 j]

section

variable {failed : α → Bool} {body : ℕ → σ → List α × σ} {n k : ℕ} {s : σ}

/-- Rounds of at most `n` checks each. -/
theorem tallied_length_le (hround : ∀ i s, (body i s).1.length ≤ n) :
    (tallied failed body 0 k s Tally.empty).log.length ≤ k * n := by
  rw [tallied_log, Tally.empty, List.nil_append, List.length_flatMap]
  calc ((List.range k).map fun j =>
        ((body (0 + j) (stateAt body 0 j s)).1.filter failed).length).sum
      ≤ ((List.range k).map fun j =>
        ((body (0 + j) (stateAt body 0 j s)).1.filter failed).length).length * n := by
        apply List.sum_le_card_nsmul
        intro l hl
        rcases List.mem_map.mp hl with ⟨j, _, rfl⟩
        exact (List.length_filter_le _ _).trans (hround _ _)
    _ = k * n := by rw [List.length_map, List.length_range]

/-- While the word cannot wrap, the status is 0 where nothing is logged. -/
theorem tallied_status (hround : ∀ i s, (body i s).1.length ≤ n) (hfits : k * n < 2 ^ 64) :
    (tallied failed body 0 k s Tally.empty).status = 0 ↔
      (tallied failed body 0 k s Tally.empty).log = [] :=
  Tally.status_eq_zero_iff_of_lt (tallied_counted failed body 0 k s Tally.empty_counted)
    ((tallied_length_le hround).trans_lt hfits)

theorem tallied_log_eq_nil_iff :
    (tallied failed body 0 k s Tally.empty).log = [] ↔
      ∀ j < k, ∀ c ∈ (body j (stateAt body 0 j s)).1, failed c = false := by
  rw [tallied_log, Tally.empty, List.nil_append, List.flatMap_eq_nil_iff]
  simp only [List.mem_range, List.filter_eq_nil_iff, Bool.not_eq_true, Nat.zero_add]

/-- A loop each of whose rounds fails one check. -/
theorem tallied_log_map {report : ℕ → α}
    (hround : ∀ j, j < k → (body j (stateAt body 0 j s)).1.filter failed = [report j]) :
    (tallied failed body 0 k s Tally.empty).log = (List.range k).map report := by
  rw [tallied_log, Tally.empty, List.nil_append, List.map_eq_flatMap]
  apply List.flatMap_congr
  intro j hj
  rw [Nat.zero_add]
  exact hround j (List.mem_range.mp hj)

end

end Rounds
end CMFuzz
