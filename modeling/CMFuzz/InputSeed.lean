import CMFuzz.DrawGranularity

/-!
# The seed of an input

`cmf_prng_seed` hashes the fuzz input to the state of the random source.  Every
step of the hash can be undone, so no byte of the input is without effect on the
state, and the state has an effect on every word that is drawn.
-/

namespace CMFuzz
namespace Engine

open ByteCodec
open SplitMix
open WordMixing (foldl_ne)

/-! ## The accumulator -/

/-- `s ^= buf[i]; s *= 0x100000001b3`. -/
def fnvStep (s : UInt64) (b : UInt8) : UInt64 := (s ^^^ b.toUInt64) * 0x100000001b3

theorem fnv_eq_foldl (buf : Bytes) : fnv buf = buf.foldl fnvStep 0xcbf29ce484222325 := rfl

theorem fnvStep_injective (b : UInt8) : Function.Injective fun s => fnvStep s b := by
  intro s t heq
  have hxor := mul_injective (c := 0x100000001b3) (by decide) heq
  exact (UInt64.xor_left_inj _).mp hxor

theorem fnvStep_injective_byte (s : UInt64) : Function.Injective (fnvStep s) := by
  intro a b heq
  have hxor := mul_injective (c := 0x100000001b3) (by decide) heq
  exact UInt8.toUInt64_inj.mp ((UInt64.xor_right_inj _).mp hxor)

theorem fnv_ne (p q : Bytes) {a b : UInt8} (hab : a ≠ b) :
    fnv (p ++ a :: q) ≠ fnv (p ++ b :: q) := by
  rw [fnv_eq_foldl, fnv_eq_foldl]
  exact foldl_ne fnvStep_injective fnvStep_injective_byte _ p q hab

/-! ## The state -/

theorem cmfPrngSeed_of_ne_zero {buf : Bytes} (hfnv : fnv buf ≠ 0) :
    cmfPrngSeed buf = fnv buf := if_pos hfnv

theorem cmfPrngSeed_of_zero {buf : Bytes} (hfnv : fnv buf = 0) :
    cmfPrngSeed buf = 0x1234567890abcdef := if_neg (not_not_intro hfnv)

theorem cmfPrngSeed_ne_zero (buf : Bytes) : cmfPrngSeed buf ≠ 0 := by
  by_cases hfnv : fnv buf = 0
  · rw [cmfPrngSeed_of_zero hfnv]
    decide
  · rwa [cmfPrngSeed_of_ne_zero hfnv]

/-- Inputs of different accumulators share a state only where one of them is
zero and the other is what stands in for zero. -/
theorem cmfPrngSeed_eq_iff {x y : Bytes} : cmfPrngSeed x = cmfPrngSeed y ↔ fnv x = fnv y ∨
    fnv x = 0 ∧ fnv y = 0x1234567890abcdef ∨ fnv x = 0x1234567890abcdef ∧ fnv y = 0 := by
  have hconst : (0x1234567890abcdef : UInt64) ≠ 0 := by decide
  by_cases hx : fnv x = 0
  · rw [cmfPrngSeed_of_zero hx]
    by_cases hy : fnv y = 0
    · rw [cmfPrngSeed_of_zero hy]
      exact iff_of_true rfl (Or.inl (hx.trans hy.symm))
    · rw [cmfPrngSeed_of_ne_zero hy]
      constructor
      · intro heq
        exact Or.inr (Or.inl ⟨hx, heq.symm⟩)
      · rintro (heq | ⟨_, heq⟩ | ⟨heq, _⟩)
        · exact absurd (heq.symm.trans hx) hy
        · exact heq.symm
        · exact absurd (heq.symm.trans hx) hconst
  · rw [cmfPrngSeed_of_ne_zero hx]
    by_cases hy : fnv y = 0
    · rw [cmfPrngSeed_of_zero hy]
      constructor
      · intro heq
        exact Or.inr (Or.inr ⟨heq, hy⟩)
      · rintro (heq | ⟨heq, _⟩ | ⟨heq, _⟩)
        · exact absurd (heq.trans hy) hx
        · exact absurd heq hx
        · exact heq
    · rw [cmfPrngSeed_of_ne_zero hy]
      constructor
      · exact Or.inl
      · rintro (heq | ⟨heq, _⟩ | ⟨_, heq⟩)
        · exact heq
        · exact absurd heq hx
        · exact absurd heq hy

theorem cmfPrngSeed_ne {p q : Bytes} {a b : UInt8} (hab : a ≠ b) (ha : fnv (p ++ a :: q) ≠ 0)
    (hb : fnv (p ++ b :: q) ≠ 0) : cmfPrngSeed (p ++ a :: q) ≠ cmfPrngSeed (p ++ b :: q) := by
  intro heq
  rcases cmfPrngSeed_eq_iff.mp heq with hsame | ⟨hzero, _⟩ | ⟨_, hzero⟩
  · exact fnv_ne p q hab hsame
  · exact ha hzero
  · exact hb hzero

/-! ## What is drawn -/

theorem word_injective_state (i : ℕ) : Function.Injective fun s => word s i := by
  intro s t heq
  exact (UInt64.add_left_inj _).mp (mix_injective heq)

theorem cmfRandombytes_word {n i : ℕ} (hi : 8 * i + 8 ≤ n) (s : UInt64) :
    ((cmfRandombytes n s).1.drop (8 * i)).take 8 = wordBytes (word s i) := by
  obtain ⟨m, rfl⟩ : ∃ m, n = 8 * i + m := ⟨n - 8 * i, by omega⟩
  have hstate : (cmfRandombytes (8 * i) s).2 = advance s i := by
    rw [cmfRandombytes_state]
    congr 1
    omega
  rw [← (cmfRandombytes_add (Nat.dvd_mul_right 8 i) m s).1,
    List.drop_left' (cmfRandombytes_length (8 * i) s), hstate, cmfRandombytes_take (by omega),
    word_advance, Nat.add_zero]

/-- Runs that are seeded apart differ in every buffer of eight bytes or more. -/
theorem results_ne {s t : UInt64} (hst : s ≠ t) {calls : List Call} {i : ℕ} {c : Call}
    {x y : Bytes} (hc : calls[i]? = some c) (hsize : 8 ≤ c.size)
    (hx : (results calls s).1[i]? = some x) (hy : (results calls t).1[i]? = some y) :
    x.take 8 ≠ y.take 8 := by
  rw [results_take hc hsize hx, results_take hc hsize hy]
  intro heq
  exact hst (word_injective_state _ (wordBytes_injective heq))

/-- Every byte of an input matters to the accumulator, and where no accumulator
is zero to the state and to all that is drawn from it. -/
theorem every_byte_seeds :
    (∀ b, Function.Bijective fun s => fnvStep s b) ∧
    (∀ (p q : Bytes) (a b : UInt8), a ≠ b →
      fnv (p ++ a :: q) ≠ fnv (p ++ b :: q) ∧
      (fnv (p ++ a :: q) ≠ 0 → fnv (p ++ b :: q) ≠ 0 →
        cmfPrngSeed (p ++ a :: q) ≠ cmfPrngSeed (p ++ b :: q) ∧
        ∀ n, 8 ≤ n →
          (cmfRandombytes n (cmfPrngSeed (p ++ a :: q))).1 ≠
            (cmfRandombytes n (cmfPrngSeed (p ++ b :: q))).1 ∧
          ∀ i, 8 * i + 8 ≤ n →
            ((cmfRandombytes n (cmfPrngSeed (p ++ a :: q))).1.drop (8 * i)).take 8 ≠
              ((cmfRandombytes n (cmfPrngSeed (p ++ b :: q))).1.drop (8 * i)).take 8)) ∧
    ∀ buf, cmfPrngSeed buf ≠ 0 := by
  refine ⟨fun b => bijective_of_injective (fnvStep_injective b), ?_, cmfPrngSeed_ne_zero⟩
  intro p q a b hab
  refine ⟨fnv_ne p q hab, ?_⟩
  intro ha hb
  have hseed := cmfPrngSeed_ne hab ha hb
  refine ⟨hseed, ?_⟩
  intro n hn
  have hwords : ∀ i, 8 * i + 8 ≤ n →
      ((cmfRandombytes n (cmfPrngSeed (p ++ a :: q))).1.drop (8 * i)).take 8 ≠
        ((cmfRandombytes n (cmfPrngSeed (p ++ b :: q))).1.drop (8 * i)).take 8 := by
    intro i hi
    rw [cmfRandombytes_word hi, cmfRandombytes_word hi]
    intro heq
    exact hseed (word_injective_state i (wordBytes_injective heq))
  constructor
  · intro heq
    exact hwords 0 (by omega) (by rw [heq])
  · exact hwords

theorem every_byte_seeds_middle :
    fnv ([1] ++ 2 :: [3]) ≠ fnv ([1] ++ 4 :: [3]) ∧
    (cmfRandombytes 20 (cmfPrngSeed ([1] ++ 2 :: [3]))).1 ≠
      (cmfRandombytes 20 (cmfPrngSeed ([1] ++ 4 :: [3]))).1 := by
  have hseeds := every_byte_seeds.2.1 [1] [3] 2 4 (by decide)
  constructor
  · exact hseeds.1
  · exact ((hseeds.2 (by decide) (by decide)).2 20 (by decide)).1

end Engine
end CMFuzz
