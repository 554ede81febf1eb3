import CMFuzz.PqcDifferential
import CMFuzz.Rounds
import Mathlib.Data.ZMod.Basic

/-!
# Oracles of the BFV scheme

`fhe_diff_harness` compares SEAL and OpenFHE with sums and products modulo
65537, and `seal_fhe_harness` takes three operands from its input and compares
SEAL with itself and with the plaintext ring.  Encryption is randomised, so the
libraries are functions of the iteration or of coins.
-/

namespace CMFuzz
namespace Fhe

open ByteCodec
open Engine
open Pqc
open Rounds

/-! ## Runs -/

/-- A run stops at the first iteration that reports. -/
theorem iterate_violation {σ : Type} (body : ℕ → σ → List Check × σ) (i k : ℕ) (s : σ) :
    (iterate body i k s).violation =
      (List.range k).findSome? fun j => violation (body (i + j) (stateAt body i j s)).1 := by
  induction k generalizing i s with
  | zero => rfl
  | succ k ih =>
      rw [iterate, List.range_succ_eq_map, List.findSome?_cons, List.findSome?_map]
      have hfirst : body (i + 0) (stateAt body i 0 s) = body i s := rfl
      rw [hfirst]
      cases hviolation : Engine.violation (body i s).1 with
      | some c => rfl
      | none =>
          dsimp only
          rw [ih]
          apply congrArg (fun f => (List.range k).findSome? f)
          funext j
          show _ = violation (body (i + (j + 1)) (stateAt body (i + 1) j (body i s).2)).1
          rw [Nat.add_assoc i 1 j, Nat.add_comm 1 j]

theorem printed_isSome_iff (run : Run) :
    run.printed.isSome = true ↔ run.progress.violation = none := by
  rw [Run.printed]
  cases run.progress.violation with
  | none => exact iff_of_true rfl rfl
  | some c => exact iff_of_false Bool.false_ne_true (Option.some_ne_none c)

/-! ## Residues -/

/-- `T`. -/
def modulusT : UInt64 := 65537

theorem mod_lt (x : UInt64) {t : UInt64} (ht : 0 < t.toNat) : (x % t).toNat < t.toNat := by
  rw [UInt64.toNat_mod]
  exact Nat.mod_lt _ ht

/-- A reduced word is a residue. -/
theorem eq_mod_iff {r t : UInt64} (hr : r.toNat < t.toNat) (x : UInt64) :
    r = x % t ↔ (r.toNat : ZMod t.toNat) = (x.toNat : ZMod t.toNat) := by
  rw [ZMod.natCast_eq_natCast_iff', Nat.mod_eq_of_lt hr, ← UInt64.toNat_mod, UInt64.toNat_inj]

section

variable {a b t : UInt64} (ht : t.toNat ≤ 2 ^ 32) (ha : a.toNat < t.toNat) (hb : b.toNat < t.toNat)

include ht ha hb

theorem toNat_add_residues : (a + b).toNat = a.toNat + b.toNat := by
  rw [UInt64.toNat_add]
  exact Nat.mod_eq_of_lt (by omega)

theorem toNat_mul_residues : (a * b).toNat = a.toNat * b.toNat := by
  rw [UInt64.toNat_mul]
  apply Nat.mod_eq_of_lt
  calc a.toNat * b.toNat < 2 ^ 32 * 2 ^ 32 :=
        Nat.mul_lt_mul'' (ha.trans_le ht) (hb.trans_le ht)
    _ = 2 ^ 64 := by norm_num

end

section

variable {a b c r t : UInt64} (ht : t.toNat ≤ 2 ^ 32) (ha : a.toNat < t.toNat)
  (hb : b.toNat < t.toNat) (hr : r.toNat < t.toNat)

include ht ha hb hr

theorem eq_sum_iff : r = (a + b) % t ↔
    (r.toNat : ZMod t.toNat) = (a.toNat : ZMod t.toNat) + (b.toNat : ZMod t.toNat) := by
  rw [eq_mod_iff hr, toNat_add_residues ht ha hb, Nat.cast_add]

theorem eq_product_iff : r = (a * b) % t ↔
    (r.toNat : ZMod t.toNat) = (a.toNat : ZMod t.toNat) * (b.toNat : ZMod t.toNat) := by
  rw [eq_mod_iff hr, toNat_mul_residues ht ha hb, Nat.cast_mul]

theorem eq_distributed_iff (hc : c.toNat < t.toNat) : r = (a * ((b + c) % t)) % t ↔
    (r.toNat : ZMod t.toNat) = (a.toNat : ZMod t.toNat) *
      ((b.toNat : ZMod t.toNat) + (c.toNat : ZMod t.toNat)) := by
  have hsum := mod_lt (b + c) (t := t) (by omega)
  rw [eq_mod_iff hr, toNat_mul_residues ht ha hsum, Nat.cast_mul, UInt64.toNat_mod,
    ZMod.natCast_mod, toNat_add_residues ht hb hc, Nat.cast_add]

end

/-! ## `fhe_diff_harness` -/

/-- What slot 0 holds after `decode`. -/
structure SealBfv where
  add : UInt64 → UInt64 → UInt64
  mul : UInt64 → UInt64 → UInt64
  distr : UInt64 → UInt64 → UInt64 → UInt64

/-- `GetPackedValue()[0]`. -/
structure OfheBfv where
  add : UInt64 → UInt64 → ℤ
  mul : UInt64 → UInt64 → ℤ
  distr : UInt64 → UInt64 → UInt64 → ℤ

/-- The end of `SealBfv::dec`. -/
def sealDec (v : UInt64) : UInt64 := v % modulusT

/-- The end of `OfheBfv::dec`, with the remainder of C. -/
def ofheDec (v : ℤ) : UInt64 :=
  let v := v.tmod modulusT.toNat
  let v := if v < 0 then v + modulusT.toNat else v
  UInt64.ofNat v.toNat

def bfvAlg : String := "FHE-BFV"

def bfvCheck (what : String) (s o p : UInt64) : Check :=
  ⟨bfvAlg, "O1_fhe_bfv_interop", "SEAL vs OpenFHE " ++ what ++ " disagree",
    !(s ≠ p || o ≠ p || s ≠ o)⟩

/-- One iteration; `enc` reduces its operand once more. -/
def bfvChecks (S : SealBfv) (O : OfheBfv) (fault : Bool) (a b c : UInt64) : List Check :=
  let pAdd := (a + b) % modulusT
  let pMul := (a * b) % modulusT
  let pDis := (a * ((b + c) % modulusT)) % modulusT
  let a := a % modulusT
  let b := b % modulusT
  let c := c % modulusT
  let sAdd := sealDec (S.add a b)
  let sAdd := if fault then sAdd ^^^ 1 else sAdd
  [bfvCheck "homomorphic add" sAdd (ofheDec (O.add a b)) pAdd,
    bfvCheck "homomorphic mul" (sealDec (S.mul a b)) (ofheDec (O.mul a b)) pMul,
    bfvCheck "distributivity" (sealDec (S.distr a b c)) (ofheDec (O.distr a b c)) pDis]

def bfvBody (S : SealBfv) (O : OfheBfv) (fault : Bool) : Pqc.Rand (List Check) := do
  let a ← rand
  let b ← rand
  let c ← rand
  pure (bfvChecks S O fault (UInt64.ofNat a % modulusT) (UInt64.ofNat b % modulusT)
    (UInt64.ofNat c % modulusT))

/-- `main` of `fhe_diff_harness`; each iteration encrypts with fresh coins. -/
def bfvDiff (S : ℕ → SealBfv) (O : ℕ → OfheBfv) (fault : Bool) (seeded : ℕ → ℕ) (iters : ℤ) :
    Run where
  progress := iterate (fun i => bfvBody (S i) (O i) fault) 0 iters.toNat seeded
  line := s!"[fhe-diff] BFV OpenFHE<->SEAL: {iters} iters, add/mul/distributivity agree (t=65537)\n"

/-- The operand that the `n`-th number gives. -/
def bfvOperand (seeded : ℕ → ℕ) (n : ℕ) : UInt64 := UInt64.ofNat (seeded n) % modulusT

theorem bfv_stateAt (S : ℕ → SealBfv) (O : ℕ → OfheBfv) (fault : Bool) (i j : ℕ)
    (seeded : ℕ → ℕ) :
    stateAt (fun i => bfvBody (S i) (O i) fault) i j seeded = fun n => seeded (3 * j + n) := by
  apply stateAt_draws
  intro i s
  funext n
  show s (n + 1 + 1 + 1) = s (3 + n)
  rw [Nat.add_comm 3 n]

theorem modulusT_toNat : modulusT.toNat = 65537 := rfl

theorem bfvOperand_lt (seeded : ℕ → ℕ) (n : ℕ) :
    (bfvOperand seeded n).toNat < modulusT.toNat := mod_lt _ (by decide)

theorem mod_of_lt {x t : UInt64} (hx : x.toNat < t.toNat) : x % t = x := by
  apply UInt64.toNat_inj.mp
  rw [UInt64.toNat_mod, Nat.mod_eq_of_lt hx]

theorem sealDec_lt (v : UInt64) : (sealDec v).toNat < modulusT.toNat := mod_lt _ (by decide)

theorem ofheDec_toNat (v : ℤ) : ((ofheDec v).toNat : ℤ) = v % 65537 := by
  have hrem : (if v.tmod 65537 < 0 then v.tmod 65537 + 65537 else v.tmod 65537) = v % 65537 := by
    rcases v.eq_nat_or_neg with ⟨n, rfl | rfl⟩
    · have hnat : (n : ℤ).tmod 65537 = (n : ℤ) % 65537 :=
        Int.tmod_eq_emod_of_nonneg (Int.natCast_nonneg n)
      rw [hnat, if_neg (by omega)]
    · have hneg : (-(n : ℤ)).tmod 65537 = -((n : ℤ) % 65537) := by
        rw [Int.neg_tmod, Int.tmod_eq_emod_of_nonneg (Int.natCast_nonneg n)]
      rw [hneg]
      split
      · omega
      · omega
  have hlow := Int.emod_nonneg v (show (65537 : ℤ) ≠ 0 by decide)
  have hhigh := Int.emod_lt_of_pos v (show (0 : ℤ) < 65537 by decide)
  show ((UInt64.ofNat (if v.tmod 65537 < 0 then v.tmod 65537 + 65537
    else v.tmod 65537).toNat).toNat : ℤ) = _
  rw [hrem, UInt64.toNat_ofNat', Nat.mod_eq_of_lt (by omega), Int.toNat_of_nonneg hlow]

theorem ofheDec_lt (v : ℤ) : (ofheDec v).toNat < modulusT.toNat := by
  have hvalue := ofheDec_toNat v
  have hhigh := Int.emod_lt_of_pos v (show (0 : ℤ) < 65537 by decide)
  rw [modulusT_toNat]
  omega

theorem bfvCheck_holds_iff (what : String) (s o p : UInt64) :
    (bfvCheck what s o p).holds = true ↔ s = p ∧ o = p := by
  rw [bfvCheck]
  constructor
  · intro h
    simp only [ne_eq, Bool.not_eq_true', Bool.or_eq_false_iff, decide_eq_false_iff_not,
      not_not] at h
    exact h.1
  · rintro ⟨rfl, rfl⟩
    simp

/-- `r` is the residue `x`. -/
def Residue (r : UInt64) (x : ZMod modulusT.toNat) : Prop := (r.toNat : ZMod modulusT.toNat) = x

/-- Both libraries decrypt to the sum, the product and the distributed product. -/
structure BfvRight (S : SealBfv) (O : OfheBfv) (a b c : UInt64) : Prop where
  sealAdd : Residue (sealDec (S.add a b)) (a.toNat + b.toNat)
  sealMul : Residue (sealDec (S.mul a b)) (a.toNat * b.toNat)
  sealDistr : Residue (sealDec (S.distr a b c)) (a.toNat * (b.toNat + c.toNat))
  ofheAdd : Residue (ofheDec (O.add a b)) (a.toNat + b.toNat)
  ofheMul : Residue (ofheDec (O.mul a b)) (a.toNat * b.toNat)
  ofheDistr : Residue (ofheDec (O.distr a b c)) (a.toNat * (b.toNat + c.toNat))

theorem violation_eq_none_iff {checks : List Check} :
    violation checks = none ↔ ∀ c ∈ checks, c.holds = true := by
  constructor
  · exact holds_of_quiet
  · intro hall
    apply List.find?_eq_none.mpr
    intro c hc
    rw [hall c hc]
    exact Bool.false_ne_true

section

variable (S : SealBfv) (O : OfheBfv) {a b c : UInt64} (ha : a.toNat < modulusT.toNat)
  (hb : b.toNat < modulusT.toNat) (hc : c.toNat < modulusT.toNat)

include ha hb hc

theorem bfvChecks_quiet_iff :
    violation (bfvChecks S O false a b c) = none ↔ BfvRight S O a b c := by
  have ht : modulusT.toNat ≤ 2 ^ 32 := by decide
  rw [violation_eq_none_iff, bfvChecks]
  simp only [mod_of_lt ha, mod_of_lt hb, mod_of_lt hc, Bool.false_eq_true, if_false,
    List.forall_mem_cons, bfvCheck_holds_iff,
    eq_sum_iff ht ha hb (sealDec_lt _), eq_sum_iff ht ha hb (ofheDec_lt _),
    eq_product_iff ht ha hb (sealDec_lt _), eq_product_iff ht ha hb (ofheDec_lt _),
    eq_distributed_iff ht ha hb (sealDec_lt _) hc, eq_distributed_iff ht ha hb (ofheDec_lt _) hc]
  constructor
  · rintro ⟨⟨h1, h2⟩, ⟨h3, h4⟩, ⟨h5, h6⟩, _⟩
    exact ⟨h1, h3, h5, h2, h4, h6⟩
  · rintro ⟨h1, h3, h5, h2, h4, h6⟩
    exact ⟨⟨h1, h2⟩, ⟨h3, h4⟩, ⟨h5, h6⟩, fun _ h => absurd h List.not_mem_nil⟩

omit hc in
/-- The corrupted sum is not the sum. -/
theorem bfvChecks_fault (hsum : Residue (sealDec (S.add a b)) (a.toNat + b.toNat)) :
    violation (bfvChecks S O true a b c) = some ⟨bfvAlg, "O1_fhe_bfv_interop",
      "SEAL vs OpenFHE homomorphic add disagree", false⟩ := by
  have ht : modulusT.toNat ≤ 2 ^ 32 := by decide
  have hright : sealDec (S.add a b) = (a + b) % modulusT :=
    (eq_sum_iff ht ha hb (sealDec_lt _)).mpr hsum
  have hcorrupt : (a + b) % modulusT ^^^ 1 ≠ (a + b) % modulusT := by
    intro h
    have hzero := (UInt64.xor_right_inj ((a + b) % modulusT)).mp (h.trans UInt64.xor_zero.symm)
    exact absurd hzero (by decide)
  rw [bfvChecks]
  simp only [mod_of_lt ha, mod_of_lt hb, if_true, hright]
  rw [violation, List.find?_cons_of_pos]
  · rw [bfvCheck, decide_eq_true hcorrupt]
    rfl
  · rw [bfvCheck, decide_eq_true hcorrupt]
    rfl

end

/-- The line of agreement is printed exactly when in every iteration both
libraries decrypt to what the ring of residues says.  A fault build compares one
iteration: it stops there on a library that adds right. -/
theorem bfv_diff_exact (S : ℕ → SealBfv) (O : ℕ → OfheBfv) (seeded : ℕ → ℕ) (iters : ℤ) :
    ((bfvDiff S O false seeded iters).printed.isSome = true ↔
      ∀ i < iters.toNat, BfvRight (S i) (O i) (bfvOperand seeded (3 * i))
        (bfvOperand seeded (3 * i + 1)) (bfvOperand seeded (3 * i + 2))) ∧
    (0 < iters → Residue (sealDec ((S 0).add (bfvOperand seeded 0) (bfvOperand seeded 1)))
        ((bfvOperand seeded 0).toNat + (bfvOperand seeded 1).toNat) →
      (bfvDiff S O true seeded iters).printed = none ∧
        (bfvDiff S O true seeded iters).progress.compared.length = 1 ∧
        (bfvDiff S O true seeded iters).progress.violation = some ⟨bfvAlg, "O1_fhe_bfv_interop",
          "SEAL vs OpenFHE homomorphic add disagree", false⟩) := by
  have hbody : ∀ fault j, (bfvBody (S (0 + j)) (O (0 + j)) fault
      (stateAt (fun i => bfvBody (S i) (O i) fault) 0 j seeded)).1 =
        bfvChecks (S j) (O j) fault (bfvOperand seeded (3 * j)) (bfvOperand seeded (3 * j + 1))
          (bfvOperand seeded (3 * j + 2)) := by
    intro fault j
    rw [bfv_stateAt, Nat.zero_add]
    rfl
  constructor
  · rw [printed_isSome_iff, bfvDiff, iterate_violation, List.findSome?_eq_none_iff]
    simp only [List.mem_range, hbody]
    apply forall₂_congr
    intro i _
    exact bfvChecks_quiet_iff _ _ (bfvOperand_lt _ _) (bfvOperand_lt _ _) (bfvOperand_lt _ _)
  · intro hiters hsum
    rcases Nat.exists_eq_succ_of_ne_zero (show iters.toNat ≠ 0 by omega) with ⟨k, hk⟩
    have hfirst : violation (bfvBody (S 0) (O 0) true seeded).1 = some ⟨bfvAlg,
        "O1_fhe_bfv_interop", "SEAL vs OpenFHE homomorphic add disagree", false⟩ :=
      bfvChecks_fault (S 0) (O 0) (bfvOperand_lt seeded 0) (bfvOperand_lt seeded 1) hsum
    have hrun : iterate (fun i => bfvBody (S i) (O i) true) 0 (k + 1) seeded = _ :=
      iterate_of_violation hfirst
    have hviolation : (bfvDiff S O true seeded iters).progress.violation =
        some ⟨bfvAlg, "O1_fhe_bfv_interop", "SEAL vs OpenFHE homomorphic add disagree", false⟩ := by
      rw [bfvDiff, hk, hrun]
    refine ⟨?_, ?_, hviolation⟩
    · rw [Run.printed, hviolation]
    · rw [bfvDiff, hk, hrun]
      rfl

/-- Arithmetic on words, taken for a library. -/
def plainSeal : SealBfv where
  add := (· + ·)
  mul := (· * ·)
  distr := fun a b c => a * (b + c)

def plainOfhe : OfheBfv where
  add := fun a b => a.toNat + b.toNat
  mul := fun a b => a.toNat * b.toNat
  distr := fun a b c => a.toNat * (b.toNat + c.toNat)

theorem bfv_diff_exact_plain :
    (bfvDiff (fun _ => plainSeal) (fun _ => plainOfhe) true (fun n => n + 7) 3).printed = none :=
  ((bfv_diff_exact (fun _ => plainSeal) (fun _ => plainOfhe) (fun n => n + 7) 3).2 (by decide)
    ((eq_sum_iff (by decide) (bfvOperand_lt _ _) (bfvOperand_lt _ _) (sealDec_lt _)).mp rfl)).1

/-! ## `seal_fhe_harness` -/

/-- SEAL with its keys.  A call returns nothing where it throws. -/
structure SealCtx (Coin Ct : Type) where
  t : UInt64
  encrypt : Coin → UInt64 → Option Ct
  add : Ct → Ct → Option Ct
  multiply : Ct → Ct → Option Ct
  relinearize : Ct → Option Ct
  decrypt : Ct → Option UInt64

/-- Why a run ends before its last line. -/
inductive Stop where
  | thrown
  | violation (oracle msg : String)
  deriving DecidableEq, Repr

def call {α : Type} (r : Option α) : Except Stop α :=
  match r with
  | none => .error .thrown
  | some x => .ok x

def dieUnless (holds : Bool) (oracle msg : String) : Except Stop Unit :=
  if holds then .ok () else .error (.violation oracle msg)

section

variable {Coin Ct : Type} (g : SealCtx Coin Ct)

/-- The `try` block. -/
def sealBody (r1 r2 r3 : Coin) (a b c : UInt64) : Except Stop Unit := do
  let ca ← call (g.encrypt r1 a)
  let cb ← call (g.encrypt r2 b)
  let cc ← call (g.encrypt r3 c)
  let sum ← call (g.add ca cb)
  let v ← call (g.decrypt sum)
  dieUnless (v = (a + b) % g.t) "MR1_add" "hom add != plaintext add"
  let prod ← call (g.multiply ca cb)
  let prod ← call (g.relinearize prod)
  let v ← call (g.decrypt prod)
  dieUnless (v = (a * b) % g.t) "MR1_mul" "hom mul != plaintext mul"
  let bc ← call (g.add cb cc)
  let lhs ← call (g.multiply ca bc)
  let lhs ← call (g.relinearize lhs)
  let ab ← call (g.multiply ca cb)
  let ab ← call (g.relinearize ab)
  let ac ← call (g.multiply ca cc)
  let ac ← call (g.relinearize ac)
  let rhs ← call (g.add ab ac)
  let l ← call (g.decrypt lhs)
  let r ← call (g.decrypt rhs)
  dieUnless (l = r) "MR2_distributivity" "a*(b+c) != a*b+a*c under FHE"
  let l ← call (g.decrypt lhs)
  dieUnless (l = (a * ((b + c) % g.t)) % g.t) "MR2_vs_plain" "a*(b+c) FHE != plaintext"

/-- Up to eight bytes, the most significant first. -/
def rd (p : Bytes) : UInt64 × Bytes :=
  ((p.take 8).foldl (fun v b => (v <<< 8) ||| b.toUInt64) 0, p.drop 8)

/-- The operands of an input. -/
def sealOperands (data : Bytes) : UInt64 × UInt64 × UInt64 :=
  let (a, p) := rd data
  let (b, p) := rd p
  let (c, _) := rd p
  (a % g.t, b % g.t, c % g.t)

/-- `LLVMFuzzerTestOneInput` of `seal_fhe_harness`: the violation it dies of. -/
def sealTestOneInput (r1 r2 r3 : Coin) (data : Bytes) : Option (String × String) :=
  if data.length < 24 then none
  else
    let (a, b, c) := sealOperands g data
    match sealBody g r1 r2 r3 a b c with
    | .error (.violation oracle msg) => some (oracle, msg)
    | _ => none

/-- No call throws. -/
structure SealCtx.Total (g : SealCtx Coin Ct) : Prop where
  encrypt : ∀ r x, ∃ ct, g.encrypt r x = some ct
  add : ∀ x y, ∃ ct, g.add x y = some ct
  multiply : ∀ x y, ∃ ct, g.multiply x y = some ct
  relinearize : ∀ x, ∃ ct, g.relinearize x = some ct
  decrypt : ∀ x, ∃ v, g.decrypt x = some v

/-- `v` stands for `x` in the plaintext ring. -/
def SealCtx.Stands (v : UInt64) (x : ZMod g.t.toNat) : Prop :=
  v.toNat < g.t.toNat ∧ (v.toNat : ZMod g.t.toNat) = x

/-- A reduced product of two ciphertexts. -/
def SealCtx.product (x y : Ct) : Option Ct := g.multiply x y >>= g.relinearize

/-- What is decrypted, if anything is, stands for `x`. -/
def SealCtx.Yields (r : Option UInt64) (x : ZMod g.t.toNat) : Prop := ∀ v ∈ r, g.Stands v x

def SealCtx.sumOf (x y : Ct) : Option UInt64 := g.add x y >>= g.decrypt

def SealCtx.productOf (x y : Ct) : Option UInt64 := g.product x y >>= g.decrypt

/-- `x * (y + z)`. -/
def SealCtx.distributedOf (x y z : Ct) : Option UInt64 := do
  let s ← g.add y z
  g.productOf x s

/-- `x * y + x * z`. -/
def SealCtx.expandedOf (x y z : Ct) : Option UInt64 := do
  let p ← g.product x y
  let q ← g.product x z
  g.sumOf p q

/-- Three ciphertexts can be combined like their plaintexts. -/
structure SealCtx.Homomorphic (ca cb cc : Ct) (a b c : ZMod g.t.toNat) : Prop where
  sum : g.Yields (g.sumOf ca cb) (a + b)
  product : g.Yields (g.productOf ca cb) (a * b)
  distributed : g.Yields (g.distributedOf ca cb cc) (a * (b + c))
  expanded : g.Yields (g.expandedOf ca cb cc) (a * (b + c))

theorem dieUnless_bind (holds : Bool) (oracle msg : String) (next : Unit → Except Stop Unit) :
    (dieUnless holds oracle msg >>= next) =
      if holds = true then next () else .error (.violation oracle msg) := by
  cases holds
  · rfl
  · rfl

theorem call_some_bind {α : Type} (x : α) (next : α → Except Stop Unit) :
    (call (some x) >>= next) = next x := rfl

variable {g}

theorem eq_mod_iff_stands {t v x : UInt64} (ht : 0 < t.toNat) :
    v = x % t ↔ v.toNat < t.toNat ∧ (v.toNat : ZMod t.toNat) = (x.toNat : ZMod t.toNat) := by
  constructor
  · intro hv
    have hlt : v.toNat < t.toNat := hv ▸ mod_lt x ht
    exact ⟨hlt, (eq_mod_iff hlt x).mp hv⟩
  · rintro ⟨hlt, hcast⟩
    exact (eq_mod_iff hlt x).mpr hcast

theorem Stands.unique {v w : UInt64} {x : ZMod g.t.toNat} (hv : g.Stands v x)
    (hw : g.Stands w x) : v = w := by
  have hcast := (ZMod.natCast_eq_natCast_iff' _ _ _).mp (hv.2.trans hw.2.symm)
  rw [Nat.mod_eq_of_lt hv.1, Nat.mod_eq_of_lt hw.1] at hcast
  exact UInt64.toNat_inj.mp hcast

theorem yields_some {v : UInt64} {x : ZMod g.t.toNat} : g.Yields (some v) x ↔ g.Stands v x :=
  ⟨fun h => h v rfl, fun h _ hv => Option.some.inj hv ▸ h⟩

/-- The `try` block of a scheme that throws nothing. -/
theorem sealBody_total (htotal : g.Total) {r1 r2 r3 : Coin} {a b c : UInt64} {ca cb cc : Ct}
    (hca : g.encrypt r1 a = some ca) (hcb : g.encrypt r2 b = some cb)
    (hcc : g.encrypt r3 c = some cc) :
    ∃ s p l r, g.sumOf ca cb = some s ∧ g.productOf ca cb = some p ∧
      g.distributedOf ca cb cc = some l ∧ g.expandedOf ca cb cc = some r ∧
      sealBody g r1 r2 r3 a b c =
        if s = (a + b) % g.t then
          if p = (a * b) % g.t then
            if l = r then
              if l = (a * ((b + c) % g.t)) % g.t then .ok ()
              else .error (.violation "MR2_vs_plain" "a*(b+c) FHE != plaintext")
            else .error (.violation "MR2_distributivity" "a*(b+c) != a*b+a*c under FHE")
          else .error (.violation "MR1_mul" "hom mul != plaintext mul")
        else .error (.violation "MR1_add" "hom add != plaintext add") := by
  rcases htotal.add ca cb with ⟨sum, hsum⟩
  rcases htotal.decrypt sum with ⟨s, hs⟩
  rcases htotal.multiply ca cb with ⟨m1, hm1⟩
  rcases htotal.relinearize m1 with ⟨ab, hab⟩
  rcases htotal.decrypt ab with ⟨p, hp⟩
  rcases htotal.add cb cc with ⟨bc, hbc⟩
  rcases htotal.multiply ca bc with ⟨m2, hm2⟩
  rcases htotal.relinearize m2 with ⟨lhs, hlhs⟩
  rcases htotal.multiply ca cc with ⟨m3, hm3⟩
  rcases htotal.relinearize m3 with ⟨ac, hac⟩
  rcases htotal.add ab ac with ⟨rhs, hrhs⟩
  rcases htotal.decrypt lhs with ⟨l, hl⟩
  rcases htotal.decrypt rhs with ⟨r, hr⟩
  have hproduct : ∀ {x y m z}, g.multiply x y = some m → g.relinearize m = some z →
      g.product x y = some z := by
    intro x y m z hm hz
    rw [SealCtx.product, hm]
    exact hz
  refine ⟨s, p, l, r, ?_, ?_, ?_, ?_, ?_⟩
  · rw [SealCtx.sumOf, hsum]
    exact hs
  · rw [SealCtx.productOf, hproduct hm1 hab]
    exact hp
  · rw [SealCtx.distributedOf, hbc]
    show g.product ca bc >>= g.decrypt = some l
    rw [hproduct hm2 hlhs]
    exact hl
  · rw [SealCtx.expandedOf, hproduct hm1 hab, hproduct hm3 hac]
    show g.add ab ac >>= g.decrypt = some r
    rw [hrhs]
    exact hr
  · simp only [sealBody, hca, hcb, hcc, hsum, hs, hm1, hab, hp, hbc, hm2, hlhs, hm3, hac, hrhs,
      hl, hr, call_some_bind, dieUnless_bind]
    simp only [dieUnless, decide_eq_true_eq]

/-- Without exceptions a run reports nothing exactly where the scheme is
homomorphic on its ciphertexts. -/
theorem sealBody_quiet_iff (htotal : g.Total) (ht0 : 0 < g.t.toNat) (ht : g.t.toNat ≤ 2 ^ 32)
    {r1 r2 r3 : Coin} {a b c : UInt64} {ca cb cc : Ct} (hca : g.encrypt r1 a = some ca)
    (hcb : g.encrypt r2 b = some cb) (hcc : g.encrypt r3 c = some cc) (ha : a.toNat < g.t.toNat)
    (hb : b.toNat < g.t.toNat) (hc : c.toNat < g.t.toNat) :
    (∀ oracle msg, sealBody g r1 r2 r3 a b c ≠ .error (.violation oracle msg)) ↔
      g.Homomorphic ca cb cc a.toNat b.toNat c.toNat := by
  rcases sealBody_total htotal hca hcb hcc with ⟨s, p, l, r, hs, hp, hl, hr, hrun⟩
  have hadd : s = (a + b) % g.t ↔ g.Stands s (a.toNat + b.toNat) := by
    rw [eq_mod_iff_stands ht0, toNat_add_residues ht ha hb, Nat.cast_add]
    exact Iff.rfl
  have hmul : p = (a * b) % g.t ↔ g.Stands p (a.toNat * b.toNat) := by
    rw [eq_mod_iff_stands ht0, toNat_mul_residues ht ha hb, Nat.cast_mul]
    exact Iff.rfl
  have hdistr : l = (a * ((b + c) % g.t)) % g.t ↔
      g.Stands l (a.toNat * (b.toNat + c.toNat)) := by
    rw [eq_mod_iff_stands ht0, toNat_mul_residues ht ha (mod_lt _ ht0), Nat.cast_mul,
      UInt64.toNat_mod, ZMod.natCast_mod, toNat_add_residues ht hb hc, Nat.cast_add]
    exact Iff.rfl
  rw [hrun]
  constructor
  · intro hquiet
    have h1 : s = (a + b) % g.t := by
      by_contra h
      exact hquiet _ _ (if_neg h)
    rw [if_pos h1] at hquiet
    have h2 : p = (a * b) % g.t := by
      by_contra h
      exact hquiet _ _ (if_neg h)
    rw [if_pos h2] at hquiet
    have h3 : l = r := by
      by_contra h
      exact hquiet _ _ (if_neg h)
    rw [if_pos h3] at hquiet
    have h4 : l = (a * ((b + c) % g.t)) % g.t := by
      by_contra h
      exact hquiet _ _ (if_neg h)
    exact ⟨hs ▸ yields_some.mpr (hadd.mp h1), hp ▸ yields_some.mpr (hmul.mp h2),
      hl ▸ yields_some.mpr (hdistr.mp h4), hr ▸ yields_some.mpr (h3 ▸ hdistr.mp h4)⟩
  · intro h oracle msg
    have hleft := yields_some.mp (hl ▸ h.distributed)
    have hright := yields_some.mp (hr ▸ h.expanded)
    rw [if_pos (hadd.mpr (yields_some.mp (hs ▸ h.sum))),
      if_pos (hmul.mpr (yields_some.mp (hp ▸ h.product))), if_pos (Stands.unique hleft hright),
      if_pos (hdistr.mpr hleft)]
    exact fun h => nomatch h

/-! ## Every triple is an input -/

theorem word_step (v : UInt64) (b : UInt8) :
    ((v <<< 8) ||| b.toUInt64).toNat = v.toNat % 2 ^ 56 * 256 + b.toNat := by
  have height : UInt64.toNat 8 % 64 = 8 := rfl
  have hshift : (v <<< 8).toNat = v.toNat % 2 ^ 56 * 256 := by
    rw [UInt64.toNat_shiftLeft, Nat.shiftLeft_eq, height]
    omega
  have hor := Nat.shiftLeft_add_eq_or_of_lt (i := 8) b.toNat_lt (v.toNat % 2 ^ 56)
  rw [Nat.shiftLeft_eq] at hor
  rw [UInt64.toNat_or, hshift, UInt8.toNat_toUInt64]
  exact hor.symm

/-- Without overflow the bytes are digits. -/
theorem word_fold {l : Bytes} {k : ℕ} (hk : l.length + k = 8) {v : UInt64}
    (hv : v.toNat < 256 ^ k) :
    (l.foldl (fun (v : UInt64) b => (v <<< 8) ||| b.toUInt64) v).toNat =
      l.foldl (fun n b => n * 256 + b.toNat) v.toNat := by
  induction l generalizing k v with
  | nil => rfl
  | cons b l ih =>
      have hroom : 256 ^ k ≤ 2 ^ 56 := by
        calc 256 ^ k ≤ 256 ^ 7 := by
              apply Nat.pow_le_pow_right (by decide)
              rw [List.length_cons] at hk
              omega
          _ = 2 ^ 56 := by norm_num
      have hstep : ((v <<< 8) ||| b.toUInt64).toNat = v.toNat * 256 + b.toNat := by
        rw [word_step, Nat.mod_eq_of_lt (hv.trans_le hroom)]
      have hnext : ((v <<< 8) ||| b.toUInt64).toNat < 256 ^ (k + 1) := by
        have hb := b.toNat_lt
        rw [hstep, pow_succ]
        omega
      rw [List.foldl_cons, List.foldl_cons, ih (k := k + 1) _ hnext, hstep]
      rw [List.length_cons] at hk
      omega

theorem exists_digits {n x : ℕ} (hx : x < 256 ^ n) :
    ∃ l : Bytes, l.length = n ∧ l.foldl (fun n b => n * 256 + b.toNat) 0 = x := by
  induction n generalizing x with
  | zero => exact ⟨[], rfl, (Nat.lt_one_iff.mp hx).symm⟩
  | succ n ih =>
      rw [pow_succ] at hx
      rcases ih (x := x / 256) (by omega) with ⟨l, hlen, hfold⟩
      refine ⟨l ++ [UInt8.ofNat (x % 256)], ?_, ?_⟩
      · rw [List.length_append, hlen]
        rfl
      · rw [List.foldl_append, hfold, List.foldl_cons, List.foldl_nil, UInt8.toNat_ofNat']
        omega

theorem exists_rd (v : UInt64) :
    ∃ l : Bytes, l.length = 8 ∧ ∀ rest, rd (l ++ rest) = (v, rest) := by
  rcases exists_digits (n := 8) v.toNat_lt with ⟨l, hlen, hfold⟩
  refine ⟨l, hlen, fun rest => ?_⟩
  rw [rd, List.take_left' hlen, List.drop_left' hlen]
  congr 1
  apply UInt64.toNat_inj.mp
  exact (word_fold (k := 0) hlen (v := 0) Nat.one_pos).trans hfold

theorem exists_operands (g : SealCtx Coin Ct) {a b c : UInt64} (ha : a.toNat < g.t.toNat)
    (hb : b.toNat < g.t.toNat) (hc : c.toNat < g.t.toNat) :
    ∃ data : Bytes, data.length = 24 ∧ sealOperands g data = (a, b, c) := by
  rcases exists_rd a with ⟨la, hla, hrda⟩
  rcases exists_rd b with ⟨lb, hlb, hrdb⟩
  rcases exists_rd c with ⟨lc, hlc, hrdc⟩
  refine ⟨la ++ (lb ++ lc), ?_, ?_⟩
  · rw [List.length_append, List.length_append, hla, hlb, hlc]
  · have hlast := hrdc []
    rw [List.append_nil] at hlast
    simp only [sealOperands, hrda, hrdb, hlast, mod_of_lt ha, mod_of_lt hb, mod_of_lt hc]

/-- On a scheme that throws nothing the harness is silent on every input exactly
when the scheme is homomorphic on all residues and all coins. -/
theorem seal_oracle_complete (htotal : g.Total) (ht0 : 0 < g.t.toNat)
    (ht : g.t.toNat ≤ 2 ^ 32) :
    (∀ r1 r2 r3 data, sealTestOneInput g r1 r2 r3 data = none) ↔
      ∀ r1 r2 r3 (a b c : UInt64), a.toNat < g.t.toNat → b.toNat < g.t.toNat →
        c.toNat < g.t.toNat → ∀ ca cb cc, g.encrypt r1 a = some ca → g.encrypt r2 b = some cb →
          g.encrypt r3 c = some cc → g.Homomorphic ca cb cc a.toNat b.toNat c.toNat := by
  constructor
  · intro hsilent r1 r2 r3 a b c ha hb hc ca cb cc hca hcb hcc
    rw [← sealBody_quiet_iff htotal ht0 ht hca hcb hcc ha hb hc]
    intro oracle msg hviolation
    rcases exists_operands g ha hb hc with ⟨data, hlen, hoperands⟩
    have hnone := hsilent r1 r2 r3 data
    rw [sealTestOneInput, if_neg (by omega), hoperands] at hnone
    dsimp only at hnone
    rw [hviolation] at hnone
    exact nomatch hnone
  · intro hright r1 r2 r3 data
    rw [sealTestOneInput]
    split
    · rfl
    · have hlt : ∀ x : UInt64, (x % g.t).toNat < g.t.toNat := fun x => mod_lt x ht0
      rcases htotal.encrypt r1 (sealOperands g data).1 with ⟨ca, hca⟩
      rcases htotal.encrypt r2 (sealOperands g data).2.1 with ⟨cb, hcb⟩
      rcases htotal.encrypt r3 (sealOperands g data).2.2 with ⟨cc, hcc⟩
      have hquiet := (sealBody_quiet_iff htotal ht0 ht hca hcb hcc (hlt _) (hlt _) (hlt _)).mpr
        (hright _ _ _ _ _ _ (hlt _) (hlt _) (hlt _) _ _ _ hca hcb hcc)
      dsimp only
      split
      · rename_i oracle msg hviolation
        exact absurd hviolation (hquiet oracle msg)
      · rfl

end

/-- A ciphertext is its plaintext, modulo 1032193. -/
def clearSeal : SealCtx Unit UInt64 where
  t := 1032193
  encrypt := fun _ x => some x
  add := fun x y => some ((x + y) % 1032193)
  multiply := fun x y => some ((x * y) % 1032193)
  relinearize := some
  decrypt := some

theorem clearSeal_total : clearSeal.Total where
  encrypt _ x := ⟨x, rfl⟩
  add _ _ := ⟨_, rfl⟩
  multiply _ _ := ⟨_, rfl⟩
  relinearize x := ⟨x, rfl⟩
  decrypt x := ⟨x, rfl⟩

theorem clearSeal_homomorphic {a b c : UInt64} (ha : a.toNat < clearSeal.t.toNat)
    (hb : b.toNat < clearSeal.t.toNat) (hc : c.toNat < clearSeal.t.toNat) :
    clearSeal.Homomorphic a b c a.toNat b.toNat c.toNat := by
  have ht : clearSeal.t.toNat ≤ 2 ^ 32 := by decide
  have hlt : ∀ x : UInt64, (x % clearSeal.t).toNat < clearSeal.t.toNat :=
    fun x => mod_lt x (by decide)
  have hsum : ∀ {x y : UInt64}, x.toNat < clearSeal.t.toNat → y.toNat < clearSeal.t.toNat →
      clearSeal.Yields (clearSeal.sumOf x y) (x.toNat + y.toNat) := fun hx hy =>
    yields_some.mpr ⟨hlt _, (eq_sum_iff ht hx hy (hlt _)).mp rfl⟩
  have hproduct : ∀ {x y : UInt64}, x.toNat < clearSeal.t.toNat →
      y.toNat < clearSeal.t.toNat →
      clearSeal.Yields (clearSeal.productOf x y) (x.toNat * y.toNat) := fun hx hy =>
    yields_some.mpr ⟨hlt _, (eq_product_iff ht hx hy (hlt _)).mp rfl⟩
  have hvalue : ∀ {x y : UInt64}, x.toNat < clearSeal.t.toNat → y.toNat < clearSeal.t.toNat →
      (((x * y) % clearSeal.t).toNat : ZMod clearSeal.t.toNat) = x.toNat * y.toNat :=
    fun hx hy => (eq_product_iff ht hx hy (hlt _)).mp rfl
  refine ⟨hsum ha hb, hproduct ha hb, ?_, ?_⟩
  · exact yields_some.mpr ⟨hlt _, (eq_distributed_iff ht ha hb (hlt _) hc).mp rfl⟩
  · have hexpanded := hsum (hlt (a * b)) (hlt (a * c))
    rw [hvalue ha hb, hvalue ha hc, ← mul_add] at hexpanded
    exact hexpanded

theorem seal_oracle_complete_clear :
    sealTestOneInput clearSeal () () () (List.replicate 24 0xA5) = none :=
  (seal_oracle_complete clearSeal_total (by decide) (by decide)).mpr
    (fun _ _ _ _ _ _ ha hb hc _ _ _ hca hcb hcc => by
      cases hca
      cases hcb
      cases hcc
      exact clearSeal_homomorphic ha hb hc) () () () _

end Fhe
end CMFuzz
