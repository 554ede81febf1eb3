import Mathlib.Tactic
import Mathlib.Data.Nat.ModEq

/-!
# Invertible operations on words

The steps that bit mixers are made of: a word xored with its own right shift,
and a word multiplied by an odd constant.  A counter that is advanced by an
odd constant runs through all words before it repeats one, and an accumulator of
invertible steps keeps apart what it once told apart.
-/

namespace CMFuzz
namespace WordMixing

variable {w : ℕ}

theorem xorShift_injective {k : ℕ} (hk : 0 < k) :
    Function.Injective fun x : BitVec w => x ^^^ (x >>> k) := by
  intro x y heq
  -- from the top: a bit is decided by the bit `k` places above it
  have hbit : ∀ n i, w ≤ i + n → x.getLsbD i = y.getLsbD i := by
    intro n
    induction n with
    | zero =>
        intro i hi
        rw [BitVec.getLsbD_of_ge x i hi, BitVec.getLsbD_of_ge y i hi]
    | succ n ih =>
        intro i hi
        have habove : x.getLsbD (k + i) = y.getLsbD (k + i) := ih (k + i) (by omega)
        have hboth := congrArg (fun z : BitVec w => z.getLsbD i) heq
        simp only [BitVec.getLsbD_xor, BitVec.getLsbD_ushiftRight, habove] at hboth
        exact Bool.xor_left_inj.mp hboth
  exact BitVec.eq_of_getLsbD_eq fun i _ => hbit w i (by omega)

theorem mul_injective {c : BitVec w} (hc : Nat.Coprime (2 ^ w) c.toNat) :
    Function.Injective fun x : BitVec w => x * c := by
  intro x y heq
  have hmod : x.toNat * c.toNat ≡ y.toNat * c.toNat [MOD 2 ^ w] := by
    have htoNat := congrArg BitVec.toNat heq
    rwa [BitVec.toNat_mul, BitVec.toNat_mul] at htoNat
  have hcancel := Nat.ModEq.cancel_right_of_coprime hc hmod
  exact BitVec.eq_of_toNat_eq (Nat.ModEq.eq_of_lt_of_lt hcancel x.isLt y.isLt)

theorem coprime_of_odd {c : ℕ} (hc : c % 2 = 1) : Nat.Coprime (2 ^ w) c :=
  Nat.Coprime.pow_left w (Nat.coprime_two_left.mpr (Nat.odd_iff.mpr hc))

/-- The counter after `i` steps. -/
def weyl (s c : BitVec w) (i : ℕ) : BitVec w := s + BitVec.ofNat w i * c

theorem weyl_injective {c : BitVec w} (hc : Nat.Coprime (2 ^ w) c.toNat) (s : BitVec w)
    {i j : ℕ} (hi : i < 2 ^ w) (hj : j < 2 ^ w) (heq : weyl s c i = weyl s c j) : i = j := by
  have hmul : BitVec.ofNat w i * c = BitVec.ofNat w j * c := (BitVec.add_right_inj s).mp heq
  have hindex := congrArg BitVec.toNat (mul_injective hc hmul)
  rwa [BitVec.toNat_ofNat, BitVec.toNat_ofNat, Nat.mod_eq_of_lt hi,
    Nat.mod_eq_of_lt hj] at hindex

/-! ## Accumulators -/

section

variable {σ β : Type} {step : σ → β → σ} (hstate : ∀ b, Function.Injective fun s => step s b)

include hstate

theorem foldl_injective (bs : List β) : Function.Injective fun s => bs.foldl step s := by
  induction bs with
  | nil => exact Function.injective_id
  | cons b bs ih =>
      intro s t heq
      exact hstate b (ih heq)

theorem foldl_ne (hinput : ∀ s, Function.Injective (step s)) (s : σ) (p q : List β) {a b : β}
    (hab : a ≠ b) : (p ++ a :: q).foldl step s ≠ (p ++ b :: q).foldl step s := by
  intro heq
  rw [List.foldl_append, List.foldl_append, List.foldl_cons, List.foldl_cons] at heq
  exact hab (hinput _ (foldl_injective hstate q heq))

end

end WordMixing
end CMFuzz
