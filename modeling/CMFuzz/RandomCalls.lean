import CMFuzz.FuzzEngine
import Mathlib.Data.Fintype.EquivFin
import Mathlib.Logic.Function.Iterate

/-!
# Runs of the random source

Between two seedings a harness draws words and buffers in any order.  The words
of one run are all different, because the state goes through all of its 2^64
values before it comes back, and so are the buffers of eight bytes or more.
-/

namespace CMFuzz
namespace Engine

open ByteCodec
open SplitMix

/-- The value that call number `i` of `cmf_splitmix64` returns. -/
def nthOutput (s : UInt64) (i : ℕ) : UInt64 :=
  (next ((fun state => (next state).2)^[i] s)).1

theorem iterate_state (s : UInt64) (i : ℕ) :
    (fun state => (next state).2)^[i] s = advance s i := by
  induction i with
  | zero => exact (advance_zero s).symm
  | succ i ih =>
      rw [Function.iterate_succ_apply', ih, next_run, advance_advance]

theorem nthOutput_eq (s : UInt64) (i : ℕ) : nthOutput s i = word s i := by
  rw [nthOutput, iterate_state, next_run, word_advance, Nat.add_zero]

theorem bijective_of_injective {f : UInt64 → UInt64} (hf : Function.Injective f) :
    Function.Bijective f := by
  have hfinite : Finite UInt64 :=
    Finite.of_injective UInt64.toFin fun _ _ heq => UInt64.toFin_inj.mp heq
  exact Finite.injective_iff_bijective.mp hf

theorem mix_bijective : Function.Bijective mix := bijective_of_injective mix_injective

theorem word_ne (s : UInt64) {i j : ℕ} (hij : i < j) (hgap : j - i < 2 ^ 64) :
    word s i ≠ word s j := by
  intro heq
  have hleft : advance s (i + 1) = advance (advance s (i + 1)) 0 :=
    (advance_zero _).symm
  have hright : advance s (j + 1) = advance (advance s (i + 1)) (j - i) := by
    rw [advance_advance]
    congr 1
    omega
  have hstates := mix_injective heq
  rw [hleft, hright] at hstates
  have hzero := advance_injective _ (by norm_num) hgap hstates
  omega

inductive Call where
  | splitmix64
  | randombytes (n : ℕ)
  deriving DecidableEq, Repr

/-- What a call returns, as bytes in memory. -/
def Call.draw : Call → Draw Bytes
  | .splitmix64 => do
      let r ← next
      pure (wordBytes r)
  | .randombytes n => cmfRandombytes n

def Call.size : Call → ℕ
  | .splitmix64 => 8
  | .randombytes n => n

def Call.words : Call → ℕ
  | .splitmix64 => 1
  | .randombytes n => (n + 7) / 8

def results : List Call → Draw (List Bytes)
  | [] => pure []
  | c :: calls => do
      let out ← c.draw
      let outs ← results calls
      pure (out :: outs)

def wordsTaken (calls : List Call) : ℕ := (calls.map Call.words).sum

theorem Call.draw_state (c : Call) (s : UInt64) : (c.draw s).2 = advance s c.words := by
  cases c with
  | splitmix64 => rw [Call.draw, bind_run, next_run]; rfl
  | randombytes n => rw [Call.draw, cmfRandombytes_run]; rfl

theorem Call.draw_eq (c : Call) (s : UInt64) : c.draw s = cmfRandombytes c.size s := by
  cases c with
  | splitmix64 =>
      rw [Call.size, cmfRandombytes.eq_2 0, Call.draw, bind_run, bind_run, bind_run,
        cmfRandombytes.eq_1]
      show (_, _) = (wordBytes (next s).1 ++ [], (next s).2)
      rw [List.append_nil]
  | randombytes n => rfl

/-- A call of a run starts at the word that the calls before it left. -/
theorem results_getElem? (calls : List Call) (s : UInt64) (i : ℕ) :
    (results calls s).1[i]? =
      calls[i]?.map fun c => (c.draw (advance s (wordsTaken (calls.take i)))).1 := by
  induction calls generalizing s i with
  | nil => rfl
  | cons c calls ih =>
      rw [results, bind_run, bind_run]
      cases i with
      | zero =>
          rw [List.take_zero, wordsTaken, List.map_nil, List.sum_nil, advance_zero]
          rfl
      | succ i =>
          have htaken : wordsTaken ((c :: calls).take (i + 1)) =
              c.words + wordsTaken (calls.take i) := by
            rw [List.take_succ_cons, wordsTaken, List.map_cons, List.sum_cons, wordsTaken]
          have hrest := ih (c.draw s).2 i
          rw [Call.draw_state, advance_advance, ← htaken, ← Call.draw_state] at hrest
          exact hrest

theorem results_take {calls : List Call} {s : UInt64} {i : ℕ} {c : Call} {x : Bytes}
    (hc : calls[i]? = some c) (hsize : 8 ≤ c.size) (hx : (results calls s).1[i]? = some x) :
    x.take 8 = wordBytes (word s (wordsTaken (calls.take i))) := by
  rw [results_getElem?, hc, Option.map_some, Option.some.injEq] at hx
  rw [← hx, Call.draw_eq, cmfRandombytes_take hsize, word_advance, Nat.add_zero]

/-- Two buffers of one run, as far as their first words are fewer than 2^64
words apart. -/
theorem results_fresh (calls : List Call) (s : UInt64) {i j n : ℕ} {x y : Bytes}
    (hi : calls[i]? = some (.randombytes n)) (hj : calls[j]? = some (.randombytes n))
    (hij : i < j) (hn : 8 ≤ n)
    (hgap : wordsTaken (calls.take j) - wordsTaken (calls.take i) < 2 ^ 64)
    (hx : (results calls s).1[i]? = some x) (hy : (results calls s).1[j]? = some y) :
    x.take 8 ≠ y.take 8 := by
  rw [results_take hi hn hx, results_take hj hn hy]
  intro heq
  have hlater : wordsTaken (calls.take i) < wordsTaken (calls.take j) := by
    have hsplit : calls.take j = calls.take i ++ (calls.drop i).take (j - i) := by
      rw [← List.take_add, Nat.add_sub_cancel' (le_of_lt hij)]
    have hhead : calls.drop i = .randombytes n :: calls.drop (i + 1) := by
      rw [List.drop_eq_getElem?_toList_append, hi]
      rfl
    obtain ⟨m, hm⟩ : ∃ m, j - i = m + 1 := ⟨j - i - 1, by omega⟩
    rw [hsplit, hhead, hm, List.take_succ_cons, wordsTaken, wordsTaken, List.map_append,
      List.sum_append, List.map_cons, List.sum_cons, Call.words]
    omega
  exact word_ne s (by omega) (by omega) (wordBytes_injective heq)

/-- The stream never repeats a word, and no two buffers of a run begin with the
same eight bytes. -/
theorem stream_never_repeats :
    Function.Bijective mix ∧ gamma.toNat % 2 = 1 ∧
    (∀ (s : UInt64) (i j : ℕ), i < 2 ^ 64 → j < 2 ^ 64 → i ≠ j →
      nthOutput s i ≠ nthOutput s j) ∧
    ∀ (s : UInt64) (calls : List Call) (i j n : ℕ) (x y : Bytes),
      i < j → calls[i]? = some (.randombytes n) → calls[j]? = some (.randombytes n) →
      8 ≤ n → wordsTaken (calls.take j) - wordsTaken (calls.take i) < 2 ^ 64 →
      (results calls s).1[i]? = some x → (results calls s).1[j]? = some y →
      x.take 8 ≠ y.take 8 := by
  refine ⟨mix_bijective, by decide, ?_, ?_⟩
  · intro s i j hi hj hne
    rw [nthOutput_eq, nthOutput_eq]
    rcases Nat.lt_or_gt_of_ne hne with hlt | hgt
    · exact word_ne s hlt (by omega)
    · exact (word_ne s hgt (by omega)).symm
  · intro s calls i j n x y hij hi hj hn hgap hx hy
    exact results_fresh calls s hi hj hij hn hgap hx hy

theorem stream_never_repeats_keys :
    nthOutput 7 0 ≠ nthOutput 7 5 ∧
    ((results [.randombytes 32, .splitmix64, .randombytes 32] 7).1[0]?.map (List.take 8) ≠
      (results [.randombytes 32, .splitmix64, .randombytes 32] 7).1[2]?.map
        (List.take 8)) := by
  constructor
  · exact stream_never_repeats.2.2.1 7 0 5 (by norm_num) (by norm_num) (by decide)
  · intro heq
    rw [results_getElem?, results_getElem?] at heq
    exact stream_never_repeats.2.2.2 7 [.randombytes 32, .splitmix64, .randombytes 32] 0 2 32
      _ _ (by decide) rfl rfl (by decide) (by norm_num [wordsTaken, Call.words])
      (results_getElem? _ _ _) (results_getElem? _ _ _) (Option.some.inj heq)

end Engine
end CMFuzz
