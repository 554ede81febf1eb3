import CMFuzz.SplitMix

/-!
# The fuzzing engine

`cmfuzz_common.h`: a random source seeded from the fuzz input, a reader for
the bytes of the input, and the assertions of the harnesses.
-/

namespace CMFuzz
namespace Engine

open ByteCodec
open SplitMix

/-! ## Randomness -/

/-- The FNV-1a accumulator of the input, which is the seed unless it is zero. -/
def fnv (buf : Bytes) : UInt64 :=
  buf.foldl (fun s b => (s ^^^ b.toUInt64) * 0x100000001b3) 0xcbf29ce484222325

def cmfPrngSeed (buf : Bytes) : UInt64 :=
  let s := fnv buf
  if s ≠ 0 then s else 0x1234567890abcdef

/-- A word in memory, low byte first. -/
def wordBytes (r : UInt64) : Bytes :=
  (List.range 8).map fun i => (r >>> UInt64.ofNat (8 * i)).toUInt8

/-- Whole words while eight bytes are left, and a cut one at the end. -/
def cmfRandombytes : ℕ → Draw Bytes
  | 0 => pure []
  | n + 8 => do
      let r ← next
      let rest ← cmfRandombytes n
      pure (wordBytes r ++ rest)
  | n => do
      let r ← next
      pure ((wordBytes r).take n)

@[simp] theorem wordBytes_length (r : UInt64) : (wordBytes r).length = 8 := by
  simp [wordBytes]

theorem eq_of_digits {b k x y : ℕ} (hx : x < b ^ k) (hy : y < b ^ k)
    (hdigits : ∀ i < k, x / b ^ i % b = y / b ^ i % b) : x = y := by
  have hlow : ∀ j ≤ k, x % b ^ j = y % b ^ j := by
    intro j
    induction j with
    | zero => simp [Nat.mod_one]
    | succ j ih =>
        intro hj
        rw [Nat.mod_pow_succ, Nat.mod_pow_succ, ih (by omega), hdigits j (by omega)]
  have hall := hlow k le_rfl
  rwa [Nat.mod_eq_of_lt hx, Nat.mod_eq_of_lt hy] at hall

theorem toNat_ofNat_shift {i : ℕ} (hi : i < 8) :
    (UInt64.ofNat (8 * i)).toNat % 64 = 8 * i := by
  rw [UInt64.toNat_ofNat', Nat.mod_eq_of_lt (by omega : 8 * i < 2 ^ 64),
    Nat.mod_eq_of_lt (by omega)]

theorem wordBytes_injective : Function.Injective wordBytes := by
  intro x y heq
  have hbytes := List.map_inj_left.mp heq
  have hdigits : ∀ i < 8, x.toNat / 256 ^ i % 256 = y.toNat / 256 ^ i % 256 := by
    intro i hi
    have hbyte := congrArg UInt8.toNat (hbytes i (List.mem_range.mpr hi))
    have hpow : (256 : ℕ) ^ i = 2 ^ (8 * i) := pow_mul 2 8 i ▸ rfl
    rw [hpow]
    simpa only [UInt64.toNat_toUInt8, UInt64.toNat_shiftRight, toNat_ofNat_shift hi,
      Nat.shiftRight_eq_div_pow] using hbyte
  have hsize : (2 : ℕ) ^ 64 = 256 ^ 8 := by norm_num
  exact UInt64.toNat_inj.mp
    (eq_of_digits (x.toNat_lt.trans_eq hsize) (y.toNat_lt.trans_eq hsize) hdigits)

theorem cmfRandombytes_run (n : ℕ) (s : UInt64) :
    cmfRandombytes n s =
      (((List.range ((n + 7) / 8)).flatMap fun i => wordBytes (word s i)).take n,
        advance s ((n + 7) / 8)) := by
  induction n using cmfRandombytes.induct generalizing s with
  | case1 =>
      rw [cmfRandombytes.eq_1, advance_zero]
      rfl
  | case2 n ih =>
      have hwords : (n + 8 + 7) / 8 = (n + 7) / 8 + 1 := by omega
      have hrest : ∀ i, wordBytes (word (advance s 1) i) = wordBytes (word s (i + 1)) := by
        intro i
        rw [word_advance, Nat.add_comm]
      rw [cmfRandombytes.eq_2, bind_run, next_run, bind_run, ih, hwords,
        List.range_succ_eq_map, List.flatMap_cons, List.flatMap_map, advance_advance,
        Nat.add_comm 1]
      simp only [Nat.succ_eq_add_one, hrest]
      have hleft : n + 7 + 1 - 8 = n := by omega
      have hwhole : (wordBytes (word s 0)).take (n + 7 + 1) = wordBytes (word s 0) :=
        List.take_of_length_le (by rw [wordBytes_length]; omega)
      rw [List.take_append, wordBytes_length, hleft, hwhole]
      rfl
  | case3 n hzero hlarge =>
      have hpos : n ≠ 0 := hzero
      have hlt : n < 8 := by
        by_contra hge
        exact hlarge (n - 8) (by omega)
      have hwords : (n + 7) / 8 = 1 := by omega
      rw [cmfRandombytes.eq_3 n hzero hlarge, bind_run, next_run, hwords]
      simp only [List.range_one, List.flatMap_cons, List.flatMap_nil, List.append_nil]
      rfl

theorem cmfRandombytes_length (n : ℕ) :
    Always (fun data : Bytes => data.length = n) (cmfRandombytes n) := by
  intro s
  have hlen : ∀ k, ((List.range k).flatMap fun i => wordBytes (word s i)).length = 8 * k := by
    intro k
    induction k with
    | zero => rfl
    | succ k ih =>
        rw [List.range_succ, List.flatMap_append, List.length_append, ih]
        simp only [List.flatMap_cons, List.flatMap_nil, List.append_nil, wordBytes_length]
        omega
  rw [cmfRandombytes_run, List.length_take, hlen]
  omega

theorem cmfRandombytes_take {n : ℕ} (hn : 8 ≤ n) (s : UInt64) :
    (cmfRandombytes n s).1.take 8 = wordBytes (word s 0) := by
  obtain ⟨k, hk⟩ : ∃ k, (n + 7) / 8 = k + 1 := ⟨(n + 7) / 8 - 1, by omega⟩
  rw [cmfRandombytes_run, List.take_take, min_eq_left hn, hk, List.range_succ_eq_map,
    List.flatMap_cons]
  exact List.take_left' (wordBytes_length _)

/-- Two draws of eight bytes or more that follow each other differ in their
first word. -/
theorem cmfRandombytes_fresh {n : ℕ} (hn : 8 ≤ n) (hn' : n < 2 ^ 64) (s : UInt64) :
    (cmfRandombytes n s).1 ≠ (cmfRandombytes n (cmfRandombytes n s).2).1 := by
  intro heq
  have hwords : wordBytes (word s 0) =
      wordBytes (word (cmfRandombytes n s).2 0) := by
    rw [← cmfRandombytes_take hn, ← cmfRandombytes_take hn, ← heq]
  rw [cmfRandombytes_run, word_advance] at hwords
  have hindex := word_injective s (by omega) (by omega) (wordBytes_injective hwords)
  omega

/-! ## The byte reader -/

structure Reader where
  data : Bytes
  pos : ℕ

def cmfReaderInit (data : Bytes) : Reader := ⟨data, 0⟩

def cmfU8 (r : Reader) : UInt8 × Reader :=
  if r.pos < r.data.length then (r.data.getD r.pos 0, { r with pos := r.pos + 1 })
  else (0, r)

def cmfU32 (r : Reader) : UInt32 × Reader :=
  let (b0, r) := cmfU8 r
  let (b1, r) := cmfU8 r
  let (b2, r) := cmfU8 r
  let (b3, r) := cmfU8 r
  let shift := fun (v : UInt32) (b : UInt8) => (v <<< 8) ||| b.toUInt32
  (shift (shift (shift (shift 0 b0) b1) b2) b3, r)

def cmfRest (r : Reader) : Bytes × Reader :=
  (r.data.drop r.pos, { r with pos := r.data.length })

/-! ## Assertions -/

/-- `CMF_ASSERT(holds, alg, oracle, msg)`. -/
structure Check where
  alg : String
  oracle : String
  msg : String
  holds : Bool
  deriving DecidableEq, Repr

/-- The assertions a run evaluates: it aborts at the first that does not
hold. -/
def evaluated : List Check → List Check
  | [] => []
  | c :: rest => c :: if c.holds then evaluated rest else []

def violation (checks : List Check) : Option Check := checks.find? fun c => !c.holds

theorem holds_of_quiet {checks : List Check} (hquiet : violation checks = none) :
    ∀ c ∈ checks, c.holds = true := by
  intro c hc
  have hnone := List.find?_eq_none.mp hquiet c hc
  simpa only [Bool.not_eq_true', Bool.not_eq_false] using hnone

theorem evaluated_of_quiet {checks : List Check} (hquiet : violation checks = none) :
    evaluated checks = checks := by
  induction checks with
  | nil => rfl
  | cons c rest ih =>
      have hc := holds_of_quiet hquiet c List.mem_cons_self
      have hrest : violation rest = none := by
        rwa [violation, List.find?_cons_of_neg (by rw [hc]; decide)] at hquiet
      rw [evaluated, if_pos hc, ih hrest]

end Engine
end CMFuzz
