import CMFuzz.SampleMoments
import Mathlib.Analysis.Real.Sqrt

/-!
# The statistics of the timing engine

`t_push` and `welch_t` of `ct_dudect.c` and `ct_dudect_trad.c`, over numbers
that are not rounded.  The square root is a parameter.
-/

namespace CMFuzz
namespace Dudect

open Moments

variable {K : Type} [Field K] [LinearOrder K]

structure Tstat (K : Type) where
  n : K
  mean : K
  m2 : K

def Tstat.zero : Tstat K := ⟨0, 0, 0⟩

def tPush (t : Tstat K) (x : K) : Tstat K :=
  let n := t.n + 1
  let d := x - t.mean
  let mean := t.mean + d / n
  ⟨n, mean, t.m2 + d * (x - mean)⟩

def pushAll (xs : List K) : Tstat K := xs.foldl tPush .zero

/-- The same numbers in a larger field. -/
def Tstat.map {L : Type} (f : K → L) (t : Tstat K) : Tstat L := ⟨f t.n, f t.mean, f t.m2⟩

def radicand (a b : Tstat K) : K :=
  let va := a.m2 / (a.n - 1)
  let vb := b.m2 / (b.n - 1)
  va / a.n + vb / b.n

def welchT (sqrt : K → K) (a b : Tstat K) : K :=
  if a.n < 2 ∨ b.n < 2 then 0
  else
    let denom := sqrt (radicand a b)
    if denom = 0 then 0 else (a.mean - b.mean) / denom

/-! ## Divisions -/

/-- A division that is told apart from one by zero. -/
def div? (x y : K) : Option K := if y = 0 then none else some (x / y)

def tPush? (t : Tstat K) (x : K) : Option (Tstat K) := do
  let n := t.n + 1
  let d := x - t.mean
  let mean := t.mean + (← div? d n)
  some ⟨n, mean, t.m2 + d * (x - mean)⟩

def welchT? (sqrt : K → K) (a b : Tstat K) : Option K :=
  if a.n < 2 ∨ b.n < 2 then some 0
  else do
    let va ← div? a.m2 (a.n - 1)
    let vb ← div? b.m2 (b.n - 1)
    let denom := sqrt ((← div? va a.n) + (← div? vb b.n))
    if denom = 0 then some 0 else div? (a.mean - b.mean) denom

theorem div?_of_ne {x y : K} (hy : y ≠ 0) : div? x y = some (x / y) := if_neg hy

theorem tPush?_eq {t : Tstat K} (hn : t.n + 1 ≠ 0) (x : K) : tPush? t x = some (tPush t x) := by
  rw [tPush?, div?_of_ne hn]
  rfl

theorem welchT?_eq (sqrt : K → K) {a b : Tstat K} (ha : a.n ≠ 0) (ha' : a.n - 1 ≠ 0)
    (hb : b.n ≠ 0) (hb' : b.n - 1 ≠ 0) : welchT? sqrt a b = some (welchT sqrt a b) := by
  rw [welchT?, welchT]
  split
  · rfl
  · simp only [div?_of_ne ha, div?_of_ne ha', div?_of_ne hb, div?_of_ne hb',
      Option.bind_eq_bind, Option.bind_some]
    show (if sqrt (radicand a b) = 0 then some 0
      else div? (a.mean - b.mean) (sqrt (radicand a b))) = _
    split
    · rfl
    · rename_i hdenom
      exact div?_of_ne hdenom

/-! ## The accumulator -/

section

variable {K L : Type} [Field K] [Field L] (f : K →+* L)

theorem tPush_map (t : Tstat K) (x : K) : tPush (t.map f) (f x) = (tPush t x).map f := by
  simp only [tPush, Tstat.map, map_add, map_sub, map_mul, map_div₀, map_one]

theorem pushAll_map (xs : List K) : pushAll (xs.map f) = (pushAll xs).map f := by
  induction xs using List.reverseRecOn with
  | nil => simp [pushAll, Tstat.zero, Tstat.map]
  | append_singleton xs x ih =>
      rw [pushAll, pushAll, List.map_append, List.foldl_append, List.foldl_append, ← pushAll,
        ← pushAll, ih]
      exact tPush_map f (pushAll xs) x

end

variable [IsStrictOrderedRing K]

theorem pushAll_eq (xs : List K) : pushAll xs = ⟨xs.length, mean xs, sqDev xs⟩ := by
  induction xs using List.reverseRecOn with
  | nil => simp [pushAll, Tstat.zero, mean, sqDev]
  | append_singleton xs x ih =>
      rw [pushAll, List.foldl_append, List.foldl_cons, List.foldl_nil, ← pushAll, ih, tPush,
        sqDev_concat, mean_concat, List.length_append, List.length_singleton, Nat.cast_add,
        Nat.cast_one]

theorem pushAll_perm {xs ys : List K} (hperm : xs.Perm ys) : pushAll xs = pushAll ys := by
  rw [pushAll_eq, pushAll_eq, mean_perm hperm, sqDev_perm hperm, hperm.length_eq]

/-! ## Two accumulators -/

omit [IsStrictOrderedRing K] in
theorem welchT_sq {sqrt : K → K} {a b : Tstat K} (ha : ¬ a.n < 2) (hb : ¬ b.n < 2)
    (hsqrt : sqrt (radicand a b) * sqrt (radicand a b) = radicand a b) :
    welchT sqrt a b ^ 2 = (a.mean - b.mean) ^ 2 / radicand a b := by
  rw [welchT, if_neg (not_or.mpr ⟨ha, hb⟩)]
  dsimp only
  split
  · rename_i hdenom
    rw [hdenom, mul_zero] at hsqrt
    rw [← hsqrt, div_zero, zero_pow two_ne_zero]
  · rw [div_pow, sq (sqrt _), hsqrt]

def variance (xs : List K) : K := sqDev xs / (xs.length - 1)

theorem radicand_pushAll (xs ys : List K) : radicand (pushAll xs) (pushAll ys) =
    variance xs / xs.length + variance ys / ys.length := by
  rw [pushAll_eq, pushAll_eq]
  rfl

theorem variance_nonneg {xs : List K} (hxs : 2 ≤ xs.length) : 0 ≤ variance xs := by
  have hlen : (2 : K) ≤ xs.length := by exact_mod_cast hxs
  exact div_nonneg (sqDev_nonneg xs) (by linarith)

theorem radicand_nonneg {xs ys : List K} (hxs : 2 ≤ xs.length) (hys : 2 ≤ ys.length) :
    0 ≤ radicand (pushAll xs) (pushAll ys) := by
  rw [radicand_pushAll]
  exact add_nonneg (div_nonneg (variance_nonneg hxs) (Nat.cast_nonneg _))
    (div_nonneg (variance_nonneg hys) (Nat.cast_nonneg _))

theorem n_not_lt {xs : List K} (hxs : 2 ≤ xs.length) : ¬ (pushAll xs).n < 2 := by
  have hlen : (2 : K) ≤ xs.length := by exact_mod_cast hxs
  rw [pushAll_eq]
  exact not_lt.mpr hlen

section

variable {sqrt : K → K} (hsqrt : ∀ x, 0 ≤ x → sqrt x * sqrt x = x)

include hsqrt

theorem welchT_pushAll_sq {xs ys : List K} (hxs : 2 ≤ xs.length) (hys : 2 ≤ ys.length) :
    welchT sqrt (pushAll xs) (pushAll ys) ^ 2 = (mean xs - mean ys) ^ 2 /
      (variance xs / xs.length + variance ys / ys.length) := by
  rw [welchT_sq (n_not_lt hxs) (n_not_lt hys) (hsqrt _ (radicand_nonneg hxs hys)),
    radicand_pushAll, pushAll_eq, pushAll_eq]

theorem welchT_swap {xs ys : List K} (hxs : 2 ≤ xs.length) (hys : 2 ≤ ys.length) :
    welchT sqrt (pushAll ys) (pushAll xs) ^ 2 = welchT sqrt (pushAll xs) (pushAll ys) ^ 2 := by
  rw [welchT_pushAll_sq hsqrt hys hxs, welchT_pushAll_sq hsqrt hxs hys, sub_sq_comm, add_comm]

theorem welchT_shift {xs ys : List K} (hxs : 2 ≤ xs.length) (hys : 2 ≤ ys.length) (c : K) :
    welchT sqrt (pushAll (xs.map (· + c))) (pushAll (ys.map (· + c))) ^ 2 =
      welchT sqrt (pushAll xs) (pushAll ys) ^ 2 := by
  have hxs0 : xs ≠ [] := List.length_pos_iff.mp (by omega)
  have hys0 : ys ≠ [] := List.length_pos_iff.mp (by omega)
  rw [welchT_pushAll_sq hsqrt (by rwa [List.length_map]) (by rwa [List.length_map]),
    welchT_pushAll_sq hsqrt hxs hys, variance, variance, sqDev_map_add hxs0,
    sqDev_map_add hys0, mean_map_add hxs0, mean_map_add hys0, List.length_map,
    List.length_map, add_sub_add_right_eq_sub]
  rfl

theorem welchT_scale {xs ys : List K} (hxs : 2 ≤ xs.length) (hys : 2 ≤ ys.length) {c : K}
    (hc : c ≠ 0) :
    welchT sqrt (pushAll (xs.map (c * ·))) (pushAll (ys.map (c * ·))) ^ 2 =
      welchT sqrt (pushAll xs) (pushAll ys) ^ 2 := by
  have hvariance : ∀ zs : List K, variance (zs.map (c * ·)) / (zs.map (c * ·)).length =
      c ^ 2 * (variance zs / zs.length) := by
    intro zs
    rw [variance, variance, sqDev_map_mul, List.length_map, mul_div_assoc, mul_div_assoc]
  rw [welchT_pushAll_sq hsqrt (by rwa [List.length_map]) (by rwa [List.length_map]),
    welchT_pushAll_sq hsqrt hxs hys, hvariance, hvariance, mean_map_mul, mean_map_mul,
    ← mul_sub, mul_pow, ← mul_add, mul_div_mul_left _ _ (pow_ne_zero 2 hc)]

end

/-- The accumulators are exact in any order of the samples, nothing divides by
zero, and the square of Welch's statistic does not see the order, the origin or
the unit of the samples. -/
theorem statistics_exact (K : Type) [Field K] [LinearOrder K] [IsStrictOrderedRing K] :
    (∀ xs : List K, xs ≠ [] →
      (pushAll xs).n = xs.length ∧ (pushAll xs).mean = xs.sum / xs.length ∧
      (pushAll xs).m2 = (xs.map fun x => (x - xs.sum / xs.length) ^ 2).sum ∧
      0 ≤ (pushAll xs).m2 ∧ ∀ ys : List K, ys.Perm xs → pushAll ys = pushAll xs) ∧
    (∀ (xs : List K) (x : K), tPush? (pushAll xs) x = some (tPush (pushAll xs) x)) ∧
    ∀ sqrt : K → K, (∀ x, 0 ≤ x → sqrt x * sqrt x = x) →
      ∀ xs ys : List K, 2 ≤ xs.length → 2 ≤ ys.length →
        welchT sqrt (pushAll xs) (pushAll ys) ^ 2 = (mean xs - mean ys) ^ 2 /
          (variance xs / xs.length + variance ys / ys.length) ∧
        (variance xs / xs.length + variance ys / ys.length = 0 →
          welchT sqrt (pushAll xs) (pushAll ys) = 0) ∧
        welchT? sqrt (pushAll xs) (pushAll ys) =
          some (welchT sqrt (pushAll xs) (pushAll ys)) ∧
        welchT sqrt (pushAll ys) (pushAll xs) ^ 2 =
          welchT sqrt (pushAll xs) (pushAll ys) ^ 2 ∧
        (∀ c, welchT sqrt (pushAll (xs.map (· + c))) (pushAll (ys.map (· + c))) ^ 2 =
          welchT sqrt (pushAll xs) (pushAll ys) ^ 2) ∧
        ∀ c, c ≠ 0 → welchT sqrt (pushAll (xs.map (c * ·))) (pushAll (ys.map (c * ·))) ^ 2 =
          welchT sqrt (pushAll xs) (pushAll ys) ^ 2 := by
  refine ⟨?_, ?_, ?_⟩
  · intro xs _
    refine ⟨by rw [pushAll_eq], by rw [pushAll_eq]; rfl, by rw [pushAll_eq]; rfl, ?_,
      fun ys hperm => pushAll_perm hperm⟩
    rw [pushAll_eq]
    exact sqDev_nonneg xs
  · intro xs x
    apply tPush?_eq
    rw [pushAll_eq]
    exact Nat.cast_add_one_ne_zero xs.length
  · intro sqrt hsqrt xs ys hxs hys
    have hne : ∀ zs : List K, 2 ≤ zs.length →
        (pushAll zs).n ≠ 0 ∧ (pushAll zs).n - 1 ≠ 0 := by
      intro zs hzs
      have hn := not_lt.mp (n_not_lt hzs)
      constructor
      · linarith
      · linarith
    refine ⟨welchT_pushAll_sq hsqrt hxs hys, ?_,
      welchT?_eq sqrt (hne xs hxs).1 (hne xs hxs).2 (hne ys hys).1 (hne ys hys).2,
      welchT_swap hsqrt hxs hys, welchT_shift hsqrt hxs hys,
      fun c hc => welchT_scale hsqrt hxs hys hc⟩
    intro hzero
    have hsq := welchT_pushAll_sq hsqrt hxs hys
    rw [hzero, div_zero] at hsq
    exact pow_eq_zero_iff two_ne_zero |>.mp hsq

/-- Rational samples, with the square root of the reals. -/
theorem statistics_exact_real :
    (pushAll ([1, 2] : List ℚ)).mean = 3 / 2 ∧
    welchT Real.sqrt ((pushAll [1, 2]).map (algebraMap ℚ ℝ))
      ((pushAll [4, 6]).map (algebraMap ℚ ℝ)) ^ 2 = 49 / 5 := by
  constructor
  · have hpush := (statistics_exact ℚ).1 [1, 2] (List.cons_ne_nil 1 [2])
    rw [hpush.2.1]
    norm_num
  · have hwelch := (statistics_exact ℝ).2.2 Real.sqrt (fun x hx => Real.mul_self_sqrt hx)
      ([1, 2].map (algebraMap ℚ ℝ)) ([4, 6].map (algebraMap ℚ ℝ)) (by simp) (by simp)
    rw [← pushAll_map, ← pushAll_map, hwelch.1]
    norm_num [mean, variance, sqDev]

end Dudect
end CMFuzz
