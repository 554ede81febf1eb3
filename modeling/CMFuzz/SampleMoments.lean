import Mathlib.Algebra.Order.Field.Basic
import Mathlib.Algebra.Order.BigOperators.Group.List
import Mathlib.Algebra.BigOperators.Ring.List
import Mathlib.Tactic

/-!
# Moments of a finite sample

The mean of a sample and the sum of the squared deviations from it: how one more
value changes them, and what they become when the values are reordered, shifted
or scaled.
-/

namespace CMFuzz
namespace Moments

section

variable {K : Type} [Field K]

def mean (xs : List K) : K := xs.sum / xs.length

def sqDev (xs : List K) : K := (xs.map fun x => (x - mean xs) ^ 2).sum

theorem mean_perm {xs ys : List K} (hperm : xs.Perm ys) : mean xs = mean ys := by
  rw [mean, mean, hperm.sum_eq, hperm.length_eq]

theorem sqDev_perm {xs ys : List K} (hperm : xs.Perm ys) : sqDev xs = sqDev ys := by
  rw [sqDev, sqDev, mean_perm hperm]
  exact (hperm.map _).sum_eq

theorem mean_map_mul (xs : List K) (c : K) : mean (xs.map (c * ·)) = c * mean xs := by
  rw [mean, mean, List.sum_map_mul_left, List.length_map, List.map_id', mul_div_assoc]

theorem sqDev_map_mul (xs : List K) (c : K) : sqDev (xs.map (c * ·)) = c ^ 2 * sqDev xs := by
  rw [sqDev, sqDev, mean_map_mul, List.map_map, ← List.sum_map_mul_left]
  congr 1
  apply List.map_congr_left
  intro x _
  show (c * x - c * mean xs) ^ 2 = c ^ 2 * (x - mean xs) ^ 2
  ring

variable [CharZero K]

theorem length_ne_zero {xs : List K} (hxs : xs ≠ []) : (xs.length : K) ≠ 0 :=
  Nat.cast_ne_zero.mpr (List.length_pos_iff.mpr hxs).ne'

theorem sum_eq (xs : List K) : xs.sum = xs.length * mean xs := by
  cases xs with
  | nil => simp
  | cons x xs => rw [mean, mul_div_cancel₀ _ (length_ne_zero (List.cons_ne_nil x xs))]

theorem sum_sq_sub (xs : List K) (c : K) :
    (xs.map fun x => (x - c) ^ 2).sum = sqDev xs + xs.length * (mean xs - c) ^ 2 := by
  have hexpand : ∀ (ys : List K) (d : K), (ys.map fun x => (x - d) ^ 2).sum =
      (ys.map (· ^ 2)).sum - 2 * d * ys.sum + ys.length * d ^ 2 := by
    intro ys d
    induction ys with
    | nil => simp
    | cons y ys ih =>
        simp only [List.map_cons, List.sum_cons, List.length_cons, ih, Nat.cast_add,
          Nat.cast_one]
        ring
  rw [sqDev, hexpand, hexpand, sum_eq xs]
  ring

theorem mean_concat (xs : List K) (x : K) :
    mean (xs ++ [x]) = mean xs + (x - mean xs) / (xs.length + 1) := by
  have hpos : (xs.length : K) + 1 ≠ 0 := Nat.cast_add_one_ne_zero xs.length
  have hsum := sum_eq xs
  rw [mean, List.sum_append, List.sum_singleton, List.length_append, List.length_singleton,
    Nat.cast_add, Nat.cast_one, hsum]
  field_simp
  ring

/-- One more value adds the product of its deviations from the old and from the
new mean. -/
theorem sqDev_concat (xs : List K) (x : K) :
    sqDev (xs ++ [x]) = sqDev xs + (x - mean xs) * (x - mean (xs ++ [x])) := by
  have hpos : (xs.length : K) + 1 ≠ 0 := Nat.cast_add_one_ne_zero xs.length
  rw [sqDev, List.map_append, List.sum_append, sum_sq_sub, List.map_singleton,
    List.sum_singleton, mean_concat]
  field_simp
  ring

theorem mean_map_add {xs : List K} (hxs : xs ≠ []) (c : K) :
    mean (xs.map (· + c)) = mean xs + c := by
  have hlen := length_ne_zero hxs
  have hsum : (xs.map (· + c)).sum = xs.sum + xs.length * c := by
    rw [List.sum_map_add]
    simp
  rw [mean, mean, hsum, List.length_map, add_div, mul_div_cancel_left₀ _ hlen]

theorem sqDev_map_add {xs : List K} (hxs : xs ≠ []) (c : K) :
    sqDev (xs.map (· + c)) = sqDev xs := by
  rw [sqDev, sqDev, mean_map_add hxs, List.map_map]
  congr 1
  apply List.map_congr_left
  intro x _
  show (x + c - (mean xs + c)) ^ 2 = (x - mean xs) ^ 2
  rw [add_sub_add_right_eq_sub]

end

theorem mean_of_constant {K : Type} [Field K] [CharZero K] {xs : List K} {c : K} (hxs : xs ≠ [])
    (hconst : ∀ x ∈ xs, x = c) : mean xs = c := by
  have hreplicate := List.eq_replicate_of_mem hconst
  rw [mean, hreplicate, List.sum_replicate, List.length_replicate, nsmul_eq_mul,
    mul_div_cancel_left₀ _ (length_ne_zero hxs)]

theorem sqDev_of_constant {K : Type} [Field K] [CharZero K] {xs : List K} {c : K}
    (hconst : ∀ x ∈ xs, x = c) : sqDev xs = 0 := by
  apply List.sum_eq_zero
  intro y hy
  rcases List.mem_map.mp hy with ⟨x, hx, rfl⟩
  rw [mean_of_constant (List.ne_nil_of_mem hx) hconst, hconst x hx, sub_self,
    zero_pow two_ne_zero]

section

variable {K : Type} [Field K] [LinearOrder K] [IsStrictOrderedRing K]

theorem sqDev_nonneg (xs : List K) : 0 ≤ sqDev xs := by
  apply List.sum_nonneg
  intro y hy
  obtain ⟨x, _, rfl⟩ := List.mem_map.mp hy
  exact sq_nonneg _

theorem mean_le {xs : List K} {u : K} (hxs : xs ≠ []) (hle : ∀ x ∈ xs, x ≤ u) : mean xs ≤ u := by
  have hlen : (0 : K) < xs.length := Nat.cast_pos.mpr (List.length_pos_iff.mpr hxs)
  have hsum := List.sum_le_card_nsmul xs u hle
  rw [mean, div_le_iff₀ hlen, mul_comm, ← nsmul_eq_mul]
  exact hsum

/-- The squared deviations of values from an interval are at most those of its
ends, counted from one of them. -/
theorem sqDev_le {xs : List K} {l u : K} (hlow : ∀ x ∈ xs, l ≤ x) (hhigh : ∀ x ∈ xs, x ≤ u) :
    sqDev xs ≤ xs.length * (u - l) ^ 2 := by
  have hshift : sqDev xs ≤ (xs.map fun x => (x - l) ^ 2).sum := by
    rw [sum_sq_sub]
    exact le_add_of_nonneg_right (mul_nonneg (Nat.cast_nonneg _) (sq_nonneg _))
  have hbound : (xs.map fun x => (x - l) ^ 2).sum ≤
      (xs.map fun x => (x - l) ^ 2).length • (u - l) ^ 2 := by
    apply List.sum_le_card_nsmul
    intro y hy
    rcases List.mem_map.mp hy with ⟨x, hx, rfl⟩
    exact pow_le_pow_left₀ (sub_nonneg.mpr (hlow x hx)) (sub_le_sub_right (hhigh x hx) l) 2
  rw [List.length_map, nsmul_eq_mul] at hbound
  exact hshift.trans hbound

theorem sqDev_pos {xs : List K} {x y : K} (hx : x ∈ xs) (hy : y ∈ xs) (hne : x ≠ y) :
    0 < sqDev xs := by
  have hterm : ∀ z ∈ xs, z ≠ mean xs → 0 < sqDev xs := by
    intro z hz hmean
    have hsquare : 0 < (z - mean xs) ^ 2 := sq_pos_of_ne_zero (sub_ne_zero.mpr hmean)
    apply hsquare.trans_le
    apply List.single_le_sum
    · intro w hw
      rcases List.mem_map.mp hw with ⟨v, _, rfl⟩
      exact sq_nonneg _
    · exact List.mem_map_of_mem hz
  by_cases hmean : x = mean xs
  · exact hterm y hy (fun heq => hne (hmean.trans heq.symm))
  · exact hterm x hx hmean

end

end Moments
end CMFuzz
