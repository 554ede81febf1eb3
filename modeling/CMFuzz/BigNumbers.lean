import Mathlib.Algebra.Field.ZMod
import Mathlib.Data.Int.GCD
import Mathlib.Data.ZMod.Basic
import Mathlib.GroupTheory.OrderOfElement
import Mathlib.Tactic

/-!
# Signed big numbers modulo a prime

The modular operations of a big-number library as functions on the integers,
and what they are as residues.  Only the plain remainder keeps the sign of what
it divides; the others return the residue between zero and the modulus.
-/

namespace CMFuzz
namespace BigNumbers

def bnMod (a n : ℤ) : ℤ := a.tmod n

def bnModMul (a b n : ℤ) : ℤ := (a * b) % n

def bnModAdd (a b n : ℤ) : ℤ := (a + b) % n

def bnModSub (a b n : ℤ) : ℤ := (a - b) % n

/-- The residue that Bézout's identity gives; the operation fails where `a` and
`n` share a factor. -/
def bnModInverse (a n : ℤ) : ℤ := Int.gcdA a n % n

/-- Big-endian bytes as a number. -/
def bnBin2bn (bytes : List UInt8) : ℤ := bytes.foldl (fun v b => v * 256 + b.toNat) 0

section

variable {n : ℕ}

@[simp] theorem cast_bnMod (a : ℤ) : ((bnMod a n : ℤ) : ZMod n) = a := by
  rw [bnMod, Int.tmod_def]
  simp

@[simp] theorem cast_bnModMul (a b : ℤ) : ((bnModMul a b n : ℤ) : ZMod n) = a * b := by
  rw [bnModMul, ZMod.intCast_mod, Int.cast_mul]

@[simp] theorem cast_bnModAdd (a b : ℤ) : ((bnModAdd a b n : ℤ) : ZMod n) = a + b := by
  rw [bnModAdd, ZMod.intCast_mod, Int.cast_add]

@[simp] theorem cast_bnModSub (a b : ℤ) : ((bnModSub a b n : ℤ) : ZMod n) = a - b := by
  rw [bnModSub, ZMod.intCast_mod, Int.cast_sub]

theorem cast_bnModInverse [Fact n.Prime] {a : ℤ} (ha : (a : ZMod n) ≠ 0) :
    ((bnModInverse a n : ℤ) : ZMod n) = (a : ZMod n)⁻¹ := by
  have hcoprime : Int.gcd a n = 1 := by
    rw [Int.gcd_comm, ← Int.isCoprime_iff_gcd_eq_one]
    have hprime : Prime (n : ℤ) := Nat.prime_iff_prime_int.mp Fact.out
    exact hprime.coprime_iff_not_dvd.mpr fun hdvd =>
      ha ((ZMod.intCast_zmod_eq_zero_iff_dvd a n).mpr hdvd)
  have hbezout := congrArg (Int.cast : ℤ → ZMod n) (Int.gcd_eq_gcd_ab a n)
  rw [hcoprime] at hbezout
  push_cast at hbezout
  rw [ZMod.natCast_self, zero_mul, add_zero] at hbezout
  rw [bnModInverse, ZMod.intCast_mod]
  exact eq_inv_of_mul_eq_one_right hbezout.symm

theorem bnMod_eq_zero_iff (a : ℤ) : bnMod a n = 0 ↔ (a : ZMod n) = 0 := by
  rw [bnMod, ZMod.intCast_zmod_eq_zero_iff_dvd, Int.dvd_iff_tmod_eq_zero]

theorem bnModMul_eq_zero_iff (a b : ℤ) : bnModMul a b n = 0 ↔ (a * b : ZMod n) = 0 := by
  rw [bnModMul, ← Int.dvd_iff_emod_eq_zero, ← ZMod.intCast_zmod_eq_zero_iff_dvd, Int.cast_mul]

/-- Between zero and the modulus a number is its residue. -/
theorem eq_of_cast_eq {a b : ℤ} (ha : 0 ≤ a) (ha' : a < n) (hb : 0 ≤ b) (hb' : b < n)
    (heq : (a : ZMod n) = b) : a = b := by
  rw [ZMod.intCast_eq_intCast_iff', Int.emod_eq_of_lt ha ha', Int.emod_eq_of_lt hb hb'] at heq
  exact heq

theorem cast_ne_zero {a : ℤ} (ha : 0 < a) (ha' : a < n) : (a : ZMod n) ≠ 0 := by
  intro hzero
  rw [ZMod.intCast_zmod_eq_zero_iff_dvd] at hzero
  exact absurd (Int.le_of_dvd ha hzero) (by omega)

/-- Multiples of an element of order `n` are told by the residue of the factor. -/
theorem zsmul_eq_of_cast_eq {P : Type} [AddCommGroup P] {g : P} (hg : addOrderOf g = n)
    {a b : ℤ} (heq : (a : ZMod n) = b) : a • g = b • g := by
  rw [zsmul_eq_zsmul_iff_modEq, hg]
  exact (ZMod.intCast_eq_intCast_iff a b n).mp heq

theorem zsmul_ne_zero {P : Type} [AddCommGroup P] {g : P} (hg : addOrderOf g = n) {a : ℤ}
    (ha : (a : ZMod n) ≠ 0) : a • g ≠ 0 := by
  intro hzero
  rw [← hg, ne_eq, ZMod.intCast_zmod_eq_zero_iff_dvd, addOrderOf_dvd_iff_zsmul_eq_zero] at ha
  exact ha hzero

theorem zsmul_eq_iff {P : Type} [AddCommGroup P] {g : P} (hg : addOrderOf g = n) {a b : ℤ}
    (ha : 0 < a) (ha' : a < n) (hb : 0 < b) (hb' : b < n) : a • g = b • g ↔ a = b := by
  constructor
  · intro heq
    rw [zsmul_eq_zsmul_iff_modEq, hg] at heq
    exact eq_of_cast_eq ha.le ha' hb.le hb' ((ZMod.intCast_eq_intCast_iff a b n).mpr heq)
  · exact fun heq => congrArg (· • g) heq

theorem zsmul_eq_neg_iff {P : Type} [AddCommGroup P] {g : P} (hg : addOrderOf g = n) {a b : ℤ}
    (ha : 0 < a) (ha' : a < n) (hb : 0 < b) (hb' : b < n) : a • g = -(b • g) ↔ a + b = n := by
  have hn : ((n : ℤ) - b) • g = -(b • g) := by
    rw [sub_zsmul, natCast_zsmul, ← hg, addOrderOf_nsmul_eq_zero, zero_add]
  rw [← hn, zsmul_eq_iff hg ha ha' (by omega) (by omega), eq_sub_iff_add_eq]

/-- Below twice the modulus two numbers of one residue are at most one modulus
apart. -/
theorem bnMod_eq_bnMod_iff {a b : ℤ} (ha : 0 ≤ a) (ha' : a < 2 * n) (hb : 0 ≤ b)
    (hb' : b < 2 * n) : bnMod a n = bnMod b n ↔ a = b ∨ a = b + n ∨ b = a + n := by
  have hmod : ∀ x : ℤ, 0 ≤ x → x < 2 * n → bnMod x n = if x < n then x else x - n := by
    intro x hx hx'
    rw [bnMod, Int.tmod_eq_emod_of_nonneg hx]
    split
    · exact Int.emod_eq_of_lt hx ‹_›
    · rw [← Int.sub_emod_right]
      exact Int.emod_eq_of_lt (by omega) (by omega)
  rw [hmod a ha ha', hmod b hb hb']
  split <;> split <;> omega

end

/-! ## Signatures over a field -/

section

variable {F : Type} [Field F]

theorem nonce_of_signature {k z r d s : F} (hk : k ≠ 0) (hs : s = k⁻¹ * (r * d + z))
    (hs0 : s ≠ 0) : z * s⁻¹ + r * s⁻¹ * d = k := by
  have hsum : r * d + z = k * s := by
    rw [hs, mul_inv_cancel_left₀ hk]
  calc
    z * s⁻¹ + r * s⁻¹ * d = (r * d + z) * s⁻¹ := by ring
    _ = k * s * s⁻¹ := by rw [hsum]
    _ = k := mul_inv_cancel_right₀ hs0 k

theorem signature_sub {k z z' r d s s' : F} (hs : s = k⁻¹ * (r * d + z))
    (hs' : s' = k⁻¹ * (r * d + z')) : s - s' = k⁻¹ * (z - z') := by
  rw [hs, hs']
  ring

theorem nonce_of_reuse {k z z' r d s s' : F} (hk : k ≠ 0) (hs : s = k⁻¹ * (r * d + z))
    (hs' : s' = k⁻¹ * (r * d + z')) (hz : z ≠ z') :
    s - s' ≠ 0 ∧ (z - z') * (s - s')⁻¹ = k := by
  have hdiff : z - z' ≠ 0 := sub_ne_zero.mpr hz
  have hsub := signature_sub hs hs'
  have hne : s - s' ≠ 0 := by
    rw [hsub]
    exact mul_ne_zero (inv_ne_zero hk) hdiff
  refine ⟨hne, ?_⟩
  rw [hsub, mul_inv, inv_inv, mul_comm k, mul_inv_cancel_left₀ hdiff]

theorem key_of_reuse {k z r d s : F} (hk : k ≠ 0) (hr : r ≠ 0) (hs : s = k⁻¹ * (r * d + z)) :
    (s * k - z) * r⁻¹ = d := by
  have hsum : s * k = r * d + z := by
    rw [hs, mul_comm _ k, mul_inv_cancel_left₀ hk]
  rw [hsum, add_sub_cancel_right, mul_comm r, mul_inv_cancel_right₀ hr]

end

end BigNumbers
end CMFuzz
