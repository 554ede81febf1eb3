import CMFuzz.FuzzEngine
import CMFuzz.Rounds
import CMFuzz.SplitMix
import Mathlib.Algebra.Module.LinearMap.Basic

/-!
# The TFHE-rs and Groth16 programs

Both run a number of iterations from their arguments, log every relation that
does not hold and exit with status 1 if they counted any.  TFHE arithmetic is
exact, so its oracle compares with machine words; a Groth16 proof is accepted
on one equation of pairings, so each soundness relation is a value of the
pairing.
-/

namespace CMFuzz
namespace Bridges

open Engine
open Rounds
open SplitMix

/-! ## Arguments -/

/-- `parse::<u64>`. -/
def parseU64 (s : List Char) : Option UInt64 :=
  let digits := if s.head? = some '+' then s.tail else s
  if digits.isEmpty || !digits.all Char.isDigit then none
  else
    let v := digits.foldl (fun v c => v * 10 + (c.toNat - '0'.toNat)) 0
    if v < 2 ^ 64 then some (UInt64.ofNat v) else none

def argument (args : List (List Char)) (i : ℕ) (default : UInt64) : UInt64 :=
  ((args[i]?).bind parseU64).getD default

def failed (c : Check) : Bool := !c.holds

theorem failed_iff (c : Check) : failed c = false ↔ c.holds = true := by
  rw [failed, Bool.not_eq_false']

/-! ## TFHE-rs -/

/-- `FheUint32` and its client key.  Encryption is randomised: it also takes
the number of the encryption. -/
structure FheUint32 where
  Ct : Type
  CtBool : Type
  encrypt : ℕ → UInt32 → Ct
  decrypt : Ct → UInt32
  decryptBool : CtBool → Bool
  add : Ct → Ct → Ct
  sub : Ct → Ct → Ct
  mul : Ct → Ct → Ct
  and : Ct → Ct → Ct
  or : Ct → Ct → Ct
  xor : Ct → Ct → Ct
  gt : Ct → Ct → CtBool
  lt : Ct → Ct → CtBool
  eq : Ct → Ct → CtBool
  ne : Ct → Ct → CtBool

namespace Tfhe

def u32 : Draw UInt32 := do
  let r ← next
  pure r.toUInt32

def relation (detail : String) (holds : Bool) : Check :=
  ⟨"FHE-tfhe", "O_tfhe_int_correctness", detail, holds⟩

def mulRelation (a b rMul : UInt32) : Check :=
  relation s!"mul mismatch a={a} b={b} got={rMul}" (rMul = a * b)

/-- Iteration `i`. -/
def checks (L : FheUint32) (fault : Bool) (i : ℕ) (a b c : UInt32) : List Check :=
  let ea := L.encrypt (3 * i) a
  let eb := L.encrypt (3 * i + 1) b
  let ec := L.encrypt (3 * i + 2) c
  let rAdd := L.decrypt (L.add ea eb)
  let rSub := L.decrypt (L.sub ea eb)
  let rMul := L.decrypt (L.mul ea eb)
  let rDis := L.decrypt (L.mul ea (L.add eb ec))
  let rAnd := L.decrypt (L.and ea eb)
  let rOr := L.decrypt (L.or ea eb)
  let rXor := L.decrypt (L.xor ea eb)
  let rGt := L.decryptBool (L.gt ea eb)
  let rLt := L.decryptBool (L.lt ea eb)
  let rEq := L.decryptBool (L.eq ea eb)
  let rNe := L.decryptBool (L.ne ea eb)
  let rMul := if fault then rMul + 1 else rMul
  [relation s!"add mismatch a={a} b={b} got={rAdd}" (rAdd = a + b),
    relation s!"sub mismatch a={a} b={b} got={rSub}" (rSub = a - b),
    mulRelation a b rMul,
    relation s!"distributivity mismatch a={a} b={b} c={c} got={rDis}" (rDis = a * (b + c)),
    relation s!"and mismatch a={a} b={b} got={rAnd}" (rAnd = a &&& b),
    relation s!"or mismatch a={a} b={b} got={rOr}" (rOr = a ||| b),
    relation s!"xor mismatch a={a} b={b} got={rXor}" (rXor = a ^^^ b),
    relation s!"gt mismatch a={a} b={b} got={rGt}" (rGt = decide (b < a)),
    relation s!"lt mismatch a={a} b={b} got={rLt}" (rLt = decide (a < b)),
    relation s!"eq mismatch a={a} b={b} got={rEq}" (rEq = decide (a = b)),
    relation s!"ne mismatch a={a} b={b} got={rNe}" (rNe = decide (a ≠ b))]

def body (L : FheUint32) (fault : Bool) (i : ℕ) : Draw (List Check) := do
  let a ← u32
  let b ← u32
  let c ← u32
  pure (checks L fault i a b c)

def iters (args : List (List Char)) : ℕ := (argument args 1 20).toNat

def seed (args : List (List Char)) : UInt64 := argument args 2 42

def main (L : FheUint32) (fault : Bool) (args : List (List Char)) : Tally Check :=
  tallied failed (body L fault) 0 (iters args) (seed args) Tally.empty

/-- Operand `n` of a run. -/
def operand (args : List (List Char)) (n : ℕ) : UInt32 := (word (seed args) n).toUInt32

theorem u32_run (s : UInt64) : u32 s = ((word s 0).toUInt32, advance s 1) := by
  rw [u32, bind_run, next_run]
  rfl

theorem draw_pure_run {α : Type} (a : α) (s : UInt64) : (pure a : Draw α) s = (a, s) := rfl

theorem body_run (L : FheUint32) (fault : Bool) (i : ℕ) (s : UInt64) :
    body L fault i s = (checks L fault i (word s 0).toUInt32 (word s 1).toUInt32
      (word s 2).toUInt32, advance s 3) := by
  rw [body, bind_run, u32_run, bind_run, u32_run, bind_run, u32_run, word_advance,
    advance_advance, word_advance, advance_advance, draw_pure_run]

theorem body_stateAt (L : FheUint32) (fault : Bool) (i j : ℕ) (s : UInt64) :
    stateAt (body L fault) i j s = advance s (3 * j) := by
  induction j generalizing i s with
  | zero => exact (advance_zero s).symm
  | succ j ih =>
      rw [stateAt, ih, body_run, advance_advance, Nat.mul_succ, Nat.add_comm 3]

theorem body_checks (L : FheUint32) (fault : Bool) (args : List (List Char)) (j : ℕ) :
    (body L fault j (stateAt (body L fault) 0 j (seed args))).1 =
      checks L fault j (operand args (3 * j)) (operand args (3 * j + 1))
        (operand args (3 * j + 2)) := by
  rw [body_stateAt, body_run, word_advance, word_advance, word_advance, Nat.add_zero, operand,
    operand, operand]

/-- The operations of an iteration decrypt to those of machine words. -/
structure Right (L : FheUint32) (i : ℕ) (a b c : UInt32) : Prop where
  add : L.decrypt (L.add (L.encrypt (3 * i) a) (L.encrypt (3 * i + 1) b)) = a + b
  sub : L.decrypt (L.sub (L.encrypt (3 * i) a) (L.encrypt (3 * i + 1) b)) = a - b
  mul : L.decrypt (L.mul (L.encrypt (3 * i) a) (L.encrypt (3 * i + 1) b)) = a * b
  distr : L.decrypt (L.mul (L.encrypt (3 * i) a)
    (L.add (L.encrypt (3 * i + 1) b) (L.encrypt (3 * i + 2) c))) = a * (b + c)
  and : L.decrypt (L.and (L.encrypt (3 * i) a) (L.encrypt (3 * i + 1) b)) = a &&& b
  or : L.decrypt (L.or (L.encrypt (3 * i) a) (L.encrypt (3 * i + 1) b)) = a ||| b
  xor : L.decrypt (L.xor (L.encrypt (3 * i) a) (L.encrypt (3 * i + 1) b)) = a ^^^ b
  gt : L.decryptBool (L.gt (L.encrypt (3 * i) a) (L.encrypt (3 * i + 1) b)) = decide (b < a)
  lt : L.decryptBool (L.lt (L.encrypt (3 * i) a) (L.encrypt (3 * i + 1) b)) = decide (a < b)
  eq : L.decryptBool (L.eq (L.encrypt (3 * i) a) (L.encrypt (3 * i + 1) b)) = decide (a = b)
  ne : L.decryptBool (L.ne (L.encrypt (3 * i) a) (L.encrypt (3 * i + 1) b)) = decide (a ≠ b)

/-- TFHE integer arithmetic is exact. -/
structure Exact (L : FheUint32) : Prop where
  decrypt_encrypt : ∀ n a, L.decrypt (L.encrypt n a) = a
  add : ∀ x y, L.decrypt (L.add x y) = L.decrypt x + L.decrypt y
  sub : ∀ x y, L.decrypt (L.sub x y) = L.decrypt x - L.decrypt y
  mul : ∀ x y, L.decrypt (L.mul x y) = L.decrypt x * L.decrypt y
  and : ∀ x y, L.decrypt (L.and x y) = L.decrypt x &&& L.decrypt y
  or : ∀ x y, L.decrypt (L.or x y) = L.decrypt x ||| L.decrypt y
  xor : ∀ x y, L.decrypt (L.xor x y) = L.decrypt x ^^^ L.decrypt y
  gt : ∀ x y, L.decryptBool (L.gt x y) = decide (L.decrypt y < L.decrypt x)
  lt : ∀ x y, L.decryptBool (L.lt x y) = decide (L.decrypt x < L.decrypt y)
  eq : ∀ x y, L.decryptBool (L.eq x y) = decide (L.decrypt x = L.decrypt y)
  ne : ∀ x y, L.decryptBool (L.ne x y) = decide (L.decrypt x ≠ L.decrypt y)

theorem Exact.right {L : FheUint32} (h : Exact L) (i : ℕ) (a b c : UInt32) : Right L i a b c where
  add := by rw [h.add, h.decrypt_encrypt, h.decrypt_encrypt]
  sub := by rw [h.sub, h.decrypt_encrypt, h.decrypt_encrypt]
  mul := by rw [h.mul, h.decrypt_encrypt, h.decrypt_encrypt]
  distr := by
    rw [h.mul, h.add, h.decrypt_encrypt, h.decrypt_encrypt, h.decrypt_encrypt]
  and := by rw [h.and, h.decrypt_encrypt, h.decrypt_encrypt]
  or := by rw [h.or, h.decrypt_encrypt, h.decrypt_encrypt]
  xor := by rw [h.xor, h.decrypt_encrypt, h.decrypt_encrypt]
  gt := by rw [h.gt, h.decrypt_encrypt, h.decrypt_encrypt]
  lt := by rw [h.lt, h.decrypt_encrypt, h.decrypt_encrypt]
  eq := by rw [h.eq, h.decrypt_encrypt, h.decrypt_encrypt]
  ne := by rw [h.ne, h.decrypt_encrypt, h.decrypt_encrypt]

theorem relation_failed_iff (detail : String) (holds : Bool) :
    failed (relation detail holds) = false ↔ holds = true := failed_iff _

theorem checks_quiet_iff (L : FheUint32) (i : ℕ) (a b c : UInt32) :
    (∀ r ∈ checks L false i a b c, failed r = false) ↔ Right L i a b c := by
  simp only [checks, mulRelation, List.forall_mem_cons, relation_failed_iff, decide_eq_true_eq,
    Bool.false_eq_true, if_false]
  constructor
  · rintro ⟨h1, h2, h3, h4, h5, h6, h7, h8, h9, h10, h11, _⟩
    exact ⟨h1, h2, h3, h4, h5, h6, h7, h8, h9, h10, h11⟩
  · intro h
    exact ⟨h.add, h.sub, h.mul, h.distr, h.and, h.or, h.xor, h.gt, h.lt, h.eq, h.ne,
      fun _ hr => absurd hr List.not_mem_nil⟩

/-- The corrupted product is the one relation that fails. -/
theorem checks_fault {L : FheUint32} {i : ℕ} {a b c : UInt32} (h : Right L i a b c) :
    (checks L true i a b c).filter failed = [mulRelation a b (a * b + 1)] := by
  have hcorrupt : a * b + 1 ≠ a * b := by
    intro heq
    have hzero : (1 : UInt32) = 0 := (UInt32.add_right_inj (a * b)).mp
      (heq.trans (UInt32.add_zero _).symm)
    exact absurd hzero (by decide)
  have hmul : failed (mulRelation a b (a * b + 1)) = true := by
    rw [failed, mulRelation, relation, decide_eq_false hcorrupt]
    rfl
  have hother : ∀ detail, failed (relation detail true) = false := fun _ => rfl
  simp only [checks, h.add, h.sub, h.mul, h.distr, h.and, h.or, h.xor, h.gt, h.lt, h.eq, h.ne,
    if_true, decide_true, List.filter_cons, List.filter_nil, hother, hmul, Bool.false_eq_true,
    if_false]

theorem checks_length (L : FheUint32) (fault : Bool) (i : ℕ) (s : UInt64) :
    (body L fault i s).1.length ≤ 11 := by
  rw [body_run]
  exact le_refl 11

theorem main_log_eq_nil_iff (L : FheUint32) (args : List (List Char)) :
    (main L false args).log = [] ↔ ∀ i < iters args, Right L i (operand args (3 * i))
      (operand args (3 * i + 1)) (operand args (3 * i + 2)) := by
  rw [main, tallied_log_eq_nil_iff]
  simp only [body_checks, checks_quiet_iff]

theorem main_fault_log {L : FheUint32} (hexact : Exact L) (args : List (List Char)) :
    (main L true args).log = (List.range (iters args)).map fun i =>
      mulRelation (operand args (3 * i)) (operand args (3 * i + 1))
        (operand args (3 * i) * operand args (3 * i + 1) + 1) := by
  rw [main]
  apply tallied_log_map
  intro j _
  rw [body_checks]
  exact checks_fault (hexact.right _ _ _ _)

/-- Nothing is logged exactly when every iteration decrypts to the arithmetic
of machine words, and the status says so while the count of failures cannot
wrap.  Over exact arithmetic the fault build logs one product an iteration. -/
theorem tfhe_exact (L : FheUint32) (args : List (List Char)) :
    ((main L false args).log = [] ↔ ∀ i < iters args, Right L i (operand args (3 * i))
      (operand args (3 * i + 1)) (operand args (3 * i + 2))) ∧
    (∀ fault, iters args * 11 < 2 ^ 64 →
      ((main L fault args).status = 0 ↔ (main L fault args).log = [])) ∧
    (Exact L → (main L false args).status = 0 ∧
      ((main L true args).log = (List.range (iters args)).map fun i =>
        mulRelation (operand args (3 * i)) (operand args (3 * i + 1))
          (operand args (3 * i) * operand args (3 * i + 1) + 1)) ∧
      ((main L true args).status = 1 ↔ 0 < iters args)) := by
  have hcounted : ∀ fault, (main L fault args).Counted := fun fault =>
    tallied_counted failed (body L fault) 0 (iters args) (seed args) Tally.empty_counted
  constructor
  · exact main_log_eq_nil_iff L args
  constructor
  · exact fun fault hfits => tallied_status (checks_length L fault) hfits
  · intro hexact
    have hquiet := (main_log_eq_nil_iff L args).mpr fun i _ => hexact.right i _ _ _
    have hlog := main_fault_log hexact args
    have hlength : (main L true args).log.length = iters args := by
      rw [hlog, List.length_map, List.length_range]
    have hword : iters args < 2 ^ 64 := (argument args 1 20).toNat_lt
    constructor
    · exact (Tally.status_eq_zero_iff (hcounted false)).mpr (by rw [hquiet]; exact Nat.dvd_zero _)
    · constructor
      · exact hlog
      · rw [Tally.status_eq_one_iff,
          Tally.status_eq_zero_iff_of_lt (hcounted true) (hlength.trans_lt hword),
          ← List.length_eq_zero_iff, hlength]
        exact Nat.pos_iff_ne_zero.symm

/-- Words that decrypt to themselves. -/
def clearWords : FheUint32 where
  Ct := UInt32
  CtBool := Bool
  encrypt := fun _ a => a
  decrypt := id
  decryptBool := id
  add := (· + ·)
  sub := (· - ·)
  mul := (· * ·)
  and := (· &&& ·)
  or := (· ||| ·)
  xor := (· ^^^ ·)
  gt := fun a b => decide (b < a)
  lt := fun a b => decide (a < b)
  eq := fun a b => decide (a = b)
  ne := fun a b => decide (a ≠ b)

theorem clearWords_exact : Exact clearWords where
  decrypt_encrypt := fun _ _ => rfl
  add := fun _ _ => rfl
  sub := fun _ _ => rfl
  mul := fun _ _ => rfl
  and := fun _ _ => rfl
  or := fun _ _ => rfl
  xor := fun _ _ => rfl
  gt := fun _ _ => rfl
  lt := fun _ _ => rfl
  eq := fun _ _ => rfl
  ne := fun _ _ => rfl

/-- The arguments of the self-test. -/
def selfTestArgs : List (List Char) :=
  [['c', 'm', 'f', '_', 't', 'f', 'h', 'e'], ['1'], ['1', '2', '3', '4', '5']]

theorem tfhe_exact_selfTest :
    (main clearWords false selfTestArgs).log = [] ∧
      (main clearWords true selfTestArgs).status = 1 := by
  rcases tfhe_exact clearWords selfTestArgs with ⟨_, hstatus, hexact⟩
  rcases hexact clearWords_exact with ⟨hquiet, _, hfault⟩
  exact ⟨(hstatus false (by decide)).mp hquiet, hfault.mpr (by decide)⟩

end Tfhe

/-! ## Groth16 -/

structure VerifyingKey (G1 G2 : Type) where
  alphaG1 : G1
  betaG2 : G2
  gammaG2 : G2
  deltaG2 : G2
  /-- For the constant and for the one public input. -/
  gammaAbcG1 : G1 × G1

structure Proof (G1 G2 : Type) where
  a : G1
  b : G2
  c : G1

/-- Knowledge of `a` and `b` with `a * b = c`. -/
structure MulCircuit (F : Type) where
  a : Option F
  b : Option F
  c : Option F

/-- `circuit_specific_setup`, `prove` and `verify_with_processed_vk`.  Setups
and proofs are randomised: they also take their number in the run. -/
structure Groth16 (F G1 G2 : Type) where
  Pk : Type
  setup : ℕ → MulCircuit F → Option (Pk × VerifyingKey G1 G2)
  prove : Pk → ℕ → MulCircuit F → Option (Proof G1 G2)
  verify : VerifyingKey G1 G2 → List F → Proof G1 G2 → Option Bool

namespace Zk

section

variable {F G1 G2 : Type} [Field F]

def relation (detail : String) (holds : Bool) : Check :=
  ⟨"ZK-groth16", "O_zk_groth16_verify", detail, holds⟩

/-- The numbers an iteration draws. -/
structure Drawn (F : Type) where
  a : F
  b : F
  a2 : F
  b2 : F

def completenessRelation (completeness : Bool) : Check :=
  relation "completeness: honest proof rejected by verifier" completeness

/-- Iteration `i`; `none` where an `expect` panics. -/
def checks (S : Groth16 F G1 G2) (fault : Bool) (pk : S.Pk) (vk vk2 : VerifyingKey G1 G2)
    (i : ℕ) (d : Drawn F) : Option (List Check) := do
  let c := d.a * d.b
  let proof ← S.prove pk (2 * i) ⟨some d.a, some d.b, some c⟩
  let c2 := d.a2 * d.b2
  let proof2 ← S.prove pk (2 * i + 1) ⟨some d.a2, some d.b2, some c2⟩
  let completeness ← S.verify vk [c] proof
  let soundWrongPub ← S.verify vk [c + 1] proof
  let soundWrongStmt ← S.verify vk [c] proof2
  let tampered := { proof with c := proof.a }
  let soundTampered ← S.verify vk [c] tampered
  let soundWrongCrs ← S.verify vk2 [c] proof
  let completeness := if fault then !completeness else completeness
  pure [completenessRelation completeness,
    relation "soundness: proof accepted under wrong public input c+1" (!soundWrongPub),
    relation "soundness: proof for a different statement accepted" (!soundWrongStmt),
    relation "soundness: tampered proof accepted" (!soundTampered),
    relation "soundness: proof accepted under an independent CRS" (!soundWrongCrs)]

def loop (S : Groth16 F G1 G2) (fault : Bool) (pk : S.Pk) (vk vk2 : VerifyingKey G1 G2)
    (draws : ℕ → Drawn F) : ℕ → ℕ → Tally Check → Option (Tally Check)
  | _, 0, t => some t
  | i, k + 1, t => do
      let made ← checks S fault pk vk vk2 i (draws i)
      loop S fault pk vk vk2 draws (i + 1) k (t.round failed made)

def iters (args : List (List Char)) : ℕ := (argument args 1 5).toNat

/-- `main`; `seed` chooses the setups and what is drawn. -/
def main (S : Groth16 F G1 G2) (fault : Bool) (draws : ℕ → Drawn F) (args : List (List Char)) :
    Option (Tally Check) := do
  let setupCircuit : MulCircuit F := ⟨none, none, none⟩
  let keys ← S.setup 0 setupCircuit
  let keys2 ← S.setup 1 setupCircuit
  loop S fault keys.1 keys.2 keys2.2 draws 0 (iters args) Tally.empty

/-- A loop that meets no panic is a tallied one. -/
theorem loop_eq_tallied {S : Groth16 F G1 G2} {fault : Bool} {pk : S.Pk}
    {vk vk2 : VerifyingKey G1 G2} {draws : ℕ → Drawn F} {made : ℕ → List Check}
    (hmade : ∀ i, checks S fault pk vk vk2 i (draws i) = some (made i)) (i k : ℕ)
    (t : Tally Check) :
    loop S fault pk vk vk2 draws i k t =
      some (tallied failed (fun i s => (made i, s)) i k () t) := by
  induction k generalizing i t with
  | zero => rfl
  | succ k ih =>
      rw [loop, hmade]
      exact ih (i + 1) _

end

section

variable {F G1 G2 GT : Type} [Field F] [AddCommGroup G1] [AddCommGroup G2] [AddCommGroup GT]
  [Module F G1] [Module F G2] [Module F GT]

/-- The verification equation, written additively. -/
def Accepts (e : G1 →ₗ[F] G2 →ₗ[F] GT) (vk : VerifyingKey G1 G2) (x : F) (proof : Proof G1 G2) :
    Prop :=
  e proof.a proof.b = e vk.alphaG1 vk.betaG2 +
    e (vk.gammaAbcG1.1 + x • vk.gammaAbcG1.2) vk.gammaG2 + e proof.c vk.deltaG2

/-- Two inputs under one proof: the equation sees their difference. -/
theorem accepts_iff_of_accepts {e : G1 →ₗ[F] G2 →ₗ[F] GT} {vk : VerifyingKey G1 G2} {x : F}
    {proof : Proof G1 G2} (haccepts : Accepts e vk x proof) (y : F) :
    Accepts e vk y proof ↔ y = x ∨ e vk.gammaAbcG1.2 vk.gammaG2 = 0 := by
  have hinput : ∀ z : F, e (vk.gammaAbcG1.1 + z • vk.gammaAbcG1.2) vk.gammaG2 =
      e vk.gammaAbcG1.1 vk.gammaG2 + z • e vk.gammaAbcG1.2 vk.gammaG2 := by
    intro z
    rw [map_add, map_smul, LinearMap.add_apply, LinearMap.smul_apply]
  rw [Accepts] at haccepts
  rw [Accepts, haccepts, add_left_inj, add_right_inj, hinput, hinput, add_right_inj,
    ← sub_eq_zero, ← sub_smul, smul_eq_zero, sub_eq_zero, eq_comm]

/-- A proof whose last element is replaced. -/
theorem tampered_accepts_iff {e : G1 →ₗ[F] G2 →ₗ[F] GT} {vk : VerifyingKey G1 G2} {x : F}
    {proof : Proof G1 G2} (haccepts : Accepts e vk x proof) :
    Accepts e vk x { proof with c := proof.a } ↔ e proof.a vk.deltaG2 = e proof.c vk.deltaG2 := by
  rw [Accepts] at haccepts
  rw [Accepts, haccepts, add_right_inj, eq_comm]

variable [DecidableEq GT]

instance (e : G1 →ₗ[F] G2 →ₗ[F] GT) (vk : VerifyingKey G1 G2) (x : F) (proof : Proof G1 G2) :
    Decidable (Accepts e vk x proof) := inferInstanceAs (Decidable (_ = _))

/-- What is documented of the library: one public input is accepted on the
verification equation, and the proof of a satisfied constraint is accepted
under the key of its setup. -/
structure Documented (S : Groth16 F G1 G2) (e : G1 →ₗ[F] G2 →ₗ[F] GT) : Prop where
  verify_eq : ∀ vk x proof, S.verify vk [x] proof = some (decide (Accepts e vk x proof))
  complete : ∀ {n pk vk}, S.setup n ⟨none, none, none⟩ = some (pk, vk) → ∀ k a b,
    ∃ proof, S.prove pk k ⟨some a, some b, some (a * b)⟩ = some proof ∧
      Accepts e vk (a * b) proof

/-- No forgery that an iteration tries verifies. -/
structure Sound (e : G1 →ₗ[F] G2 →ₗ[F] GT) (vk vk2 : VerifyingKey G1 G2) (d : Drawn F)
    (proof : Proof G1 G2) : Prop where
  input : e vk.gammaAbcG1.2 vk.gammaG2 ≠ 0
  statement : d.a * d.b ≠ d.a2 * d.b2
  element : e proof.a vk.deltaG2 ≠ e proof.c vk.deltaG2
  crs : ¬ Accepts e vk2 (d.a * d.b) proof

/-- The checks of an iteration on honest proofs. -/
def honestChecks (e : G1 →ₗ[F] G2 →ₗ[F] GT) (fault : Bool) (vk vk2 : VerifyingKey G1 G2)
    (d : Drawn F) (proof proof2 : Proof G1 G2) : List Check :=
  let c := d.a * d.b
  [completenessRelation (!fault),
    relation "soundness: proof accepted under wrong public input c+1"
      (!decide (Accepts e vk (c + 1) proof)),
    relation "soundness: proof for a different statement accepted"
      (!decide (Accepts e vk c proof2)),
    relation "soundness: tampered proof accepted"
      (!decide (Accepts e vk c { proof with c := proof.a })),
    relation "soundness: proof accepted under an independent CRS"
      (!decide (Accepts e vk2 c proof))]

section

variable {S : Groth16 F G1 G2} {e : G1 →ₗ[F] G2 →ₗ[F] GT} {vk vk2 : VerifyingKey G1 G2}
  {d : Drawn F} {proof proof2 : Proof G1 G2}

theorem checks_eq_honestChecks (hdoc : Documented S e) {pk : S.Pk} {i : ℕ}
    (hproof : S.prove pk (2 * i) ⟨some d.a, some d.b, some (d.a * d.b)⟩ = some proof)
    (hproof2 : S.prove pk (2 * i + 1) ⟨some d.a2, some d.b2, some (d.a2 * d.b2)⟩ = some proof2)
    (haccepts : Accepts e vk (d.a * d.b) proof) (fault : Bool) :
    checks S fault pk vk vk2 i d = some (honestChecks e fault vk vk2 d proof proof2) := by
  rw [checks]
  simp only [hproof, hproof2, hdoc.verify_eq, decide_eq_true haccepts, Option.bind_eq_bind,
    Option.bind_some]
  cases fault with
  | false => rfl
  | true => rfl

/-- The relations of soundness are values of the pairing. -/
theorem sound_iff (haccepts : Accepts e vk (d.a * d.b) proof)
    (haccepts2 : Accepts e vk (d.a2 * d.b2) proof2) :
    (∀ r ∈ (honestChecks e false vk vk2 d proof proof2).tail, failed r = false) ↔
      Sound e vk vk2 d proof := by
  have hnext : ¬ d.a * d.b + 1 = d.a * d.b := fun h => one_ne_zero (add_eq_left.mp h)
  simp only [honestChecks, List.tail_cons, List.forall_mem_cons, failed_iff, relation,
    Bool.not_eq_true', decide_eq_false_iff_not, accepts_iff_of_accepts haccepts,
    accepts_iff_of_accepts haccepts2, tampered_accepts_iff haccepts, hnext, false_or, not_or]
  constructor
  · rintro ⟨hinput, ⟨hstatement, _⟩, helement, hcrs, _⟩
    exact ⟨hinput, hstatement, helement, hcrs⟩
  · intro h
    exact ⟨h.input, ⟨h.statement, h.input⟩, h.element, h.crs,
      fun _ hr => absurd hr List.not_mem_nil⟩

/-- Only the first relation sees the fault. -/
theorem honestChecks_failed (fault : Bool) (haccepts : Accepts e vk (d.a * d.b) proof)
    (haccepts2 : Accepts e vk (d.a2 * d.b2) proof2) (hsound : Sound e vk vk2 d proof) :
    (honestChecks e fault vk vk2 d proof proof2).filter failed =
      if fault then [completenessRelation false] else [] := by
  have htail : (honestChecks e false vk vk2 d proof proof2).tail.filter failed = [] := by
    rw [List.filter_eq_nil_iff]
    intro r hr
    rw [(sound_iff haccepts haccepts2).mpr hsound r hr]
    exact Bool.false_ne_true
  show (completenessRelation (!fault) :: (honestChecks e false vk vk2 d proof proof2).tail).filter
    failed = _
  rw [List.filter_cons, htail]
  cases fault with
  | false => rfl
  | true => rfl

end

/-- A run over honest proofs. -/
def honestRun (e : G1 →ₗ[F] G2 →ₗ[F] GT) (vk vk2 : VerifyingKey G1 G2) (draws : ℕ → Drawn F)
    (proofs proofs2 : ℕ → Proof G1 G2) (n : ℕ) (fault : Bool) : Tally Check :=
  tallied failed (fun i s => (honestChecks e fault vk vk2 (draws i) (proofs i) (proofs2 i), s))
    0 n () Tally.empty

section

variable {e : G1 →ₗ[F] G2 →ₗ[F] GT} {vk vk2 : VerifyingKey G1 G2} {draws : ℕ → Drawn F}
  {proofs proofs2 : ℕ → Proof G1 G2} {n : ℕ}

theorem honestRun_status (hfits : n * 5 < 2 ^ 64) (fault : Bool) :
    (honestRun e vk vk2 draws proofs proofs2 n fault).status = 0 ↔
      (honestRun e vk vk2 draws proofs proofs2 n fault).log = [] :=
  tallied_status (fun _ _ => le_refl 5) hfits

/-- Completeness fails in every iteration of the fault build. -/
theorem honestRun_fault_log_eq_nil_iff :
    (honestRun e vk vk2 draws proofs proofs2 n true).log = [] ↔ n = 0 := by
  rw [honestRun, tallied_log_eq_nil_iff]
  constructor
  · intro hquiet
    by_contra hpos
    have hfirst := hquiet 0 (Nat.pos_of_ne_zero hpos) (completenessRelation false)
      List.mem_cons_self
    exact absurd hfirst (by decide)
  · rintro rfl j hj
    exact absurd hj (Nat.not_lt_zero j)

variable (haccepts : ∀ i, Accepts e vk ((draws i).a * (draws i).b) (proofs i))
  (haccepts2 : ∀ i, Accepts e vk ((draws i).a2 * (draws i).b2) (proofs2 i))

include haccepts haccepts2

theorem honestRun_log_eq_nil_iff :
    (honestRun e vk vk2 draws proofs proofs2 n false).log = [] ↔
      ∀ i < n, Sound e vk vk2 (draws i) (proofs i) := by
  rw [honestRun, tallied_log_eq_nil_iff]
  apply forall₂_congr
  intro i _
  rw [← sound_iff (haccepts i) (haccepts2 i)]
  constructor
  · exact fun hquiet r hr => hquiet r (List.mem_of_mem_tail hr)
  · intro hquiet r hr
    rcases List.mem_cons.mp hr with rfl | hr
    · rfl
    · exact hquiet r hr

theorem honestRun_fault_log (hsound : ∀ i < n, Sound e vk vk2 (draws i) (proofs i)) :
    (honestRun e vk vk2 draws proofs proofs2 n true).log =
      List.replicate n (completenessRelation false) := by
  have hmap : (honestRun e vk vk2 draws proofs proofs2 n true).log =
      (List.range n).map fun _ => completenessRelation false :=
    tallied_log_map fun j hj =>
      honestChecks_failed true (haccepts j) (haccepts2 j) (hsound j hj)
  rw [hmap, List.map_const', List.length_range]

end

/-- On a library that does what is documented of it no iteration panics.  The
shipped build logs nothing exactly when no forgery verifies; there the fault
build logs the completeness relation alone, once an iteration. -/
theorem groth16_exact {S : Groth16 F G1 G2} {e : G1 →ₗ[F] G2 →ₗ[F] GT} (hdoc : Documented S e)
    {pk pk2 : S.Pk} {vk vk2 : VerifyingKey G1 G2}
    (hsetup : S.setup 0 ⟨none, none, none⟩ = some (pk, vk))
    (hsetup2 : S.setup 1 ⟨none, none, none⟩ = some (pk2, vk2))
    (draws : ℕ → Drawn F) (args : List (List Char)) :
    ∃ (proofs : ℕ → Proof G1 G2) (shipped fault : Tally Check),
      (∀ i, S.prove pk (2 * i) ⟨some (draws i).a, some (draws i).b,
        some ((draws i).a * (draws i).b)⟩ = some (proofs i)) ∧
      main S false draws args = some shipped ∧ main S true draws args = some fault ∧
      (shipped.log = [] ↔ ∀ i < iters args, Sound e vk vk2 (draws i) (proofs i)) ∧
      ((∀ i < iters args, Sound e vk vk2 (draws i) (proofs i)) →
        fault.log = List.replicate (iters args) (completenessRelation false)) ∧
      (iters args * 5 < 2 ^ 64 → (shipped.status = 0 ↔ shipped.log = []) ∧
        (fault.status = 1 ↔ 0 < iters args)) := by
  have hprove := fun i => hdoc.complete hsetup (2 * i) (draws i).a (draws i).b
  have hprove2 := fun i => hdoc.complete hsetup (2 * i + 1) (draws i).a2 (draws i).b2
  choose proofs hproofs haccepts using hprove
  choose proofs2 hproofs2 haccepts2 using hprove2
  have hmain : ∀ fault, main S fault draws args =
      some (honestRun e vk vk2 draws proofs proofs2 (iters args) fault) := by
    intro fault
    have hchecks : ∀ i, checks S fault pk vk vk2 i (draws i) =
        some (honestChecks e fault vk vk2 (draws i) (proofs i) (proofs2 i)) := fun i =>
      checks_eq_honestChecks hdoc (hproofs i) (hproofs2 i) (haccepts i) fault
    have hloop := loop_eq_tallied hchecks 0 (iters args) Tally.empty
    rw [main, hsetup, hsetup2]
    exact hloop
  refine ⟨proofs, _, _, hproofs, hmain false, hmain true, ?_, ?_, ?_⟩
  · exact honestRun_log_eq_nil_iff haccepts haccepts2
  · exact honestRun_fault_log haccepts haccepts2
  · intro hfits
    constructor
    · exact honestRun_status hfits false
    · rw [Tally.status_eq_one_iff, honestRun_status hfits true, honestRun_fault_log_eq_nil_iff]
      exact Nat.pos_iff_ne_zero.symm

end

/-! A system without blinding: its elements are their own logarithms. -/

def clearKey (alpha : ℚ) : VerifyingKey ℚ ℚ := ⟨alpha, 3, 1, 1, (0, 1)⟩

def clearGroth16 : Groth16 ℚ ℚ ℚ where
  Pk := VerifyingKey ℚ ℚ
  setup := fun n _ => some (clearKey (n + 2), clearKey (n + 2))
  prove := fun pk _ m => do
    let a ← m.a
    let b ← m.b
    let c ← m.c
    if a * b = c then some ⟨pk.alphaG1 + a, pk.betaG2 + b, a * pk.betaG2 + b * pk.alphaG1⟩
    else none
  verify := fun vk x proof =>
    x.head?.map fun x => decide (Accepts (LinearMap.mul ℚ ℚ) vk x proof)

theorem clearGroth16_documented : Documented clearGroth16 (LinearMap.mul ℚ ℚ) where
  verify_eq := fun _ _ _ => rfl
  complete := by
    intro n pk vk hsetup k a b
    have hkeys : (clearKey (n + 2), clearKey (n + 2)) = (pk, vk) := Option.some.inj hsetup
    rcases Prod.mk.inj hkeys with ⟨rfl, rfl⟩
    refine ⟨_, if_pos rfl, ?_⟩
    show (n + 2 + a) * (3 + b) = (n + 2) * 3 + (0 + a * b * 1) * 1 + (a * 3 + b * (n + 2)) * 1
    ring

/-- The arguments of the self-test. -/
def selfTestArgs : List (List Char) :=
  [['c', 'm', 'f', '_', 'z', 'k'], ['1'], ['1', '2', '3', '4', '5']]

theorem groth16_exact_selfTest : ∃ shipped fault : Tally Check,
    main clearGroth16 false (fun _ => ⟨2, 3, 1, 1⟩) selfTestArgs = some shipped ∧
    main clearGroth16 true (fun _ => ⟨2, 3, 1, 1⟩) selfTestArgs = some fault ∧
    shipped.status = 0 ∧ fault.log = [completenessRelation false] ∧ fault.status = 1 := by
  rcases groth16_exact clearGroth16_documented rfl rfl (fun _ => ⟨2, 3, 1, 1⟩) selfTestArgs with
    ⟨proofs, shipped, fault, hproofs, hshipped, hfault, hquiet, hlog, hstatus⟩
  have hsound : ∀ i < iters selfTestArgs, Sound (LinearMap.mul ℚ ℚ) (clearKey ((0 : ℕ) + 2))
      (clearKey ((1 : ℕ) + 2)) ⟨2, 3, 1, 1⟩ (proofs i) := by
    intro i _
    have hproof : (⟨((0 : ℕ) : ℚ) + 2 + 2, 3 + 3, 2 * 3 + 3 * (((0 : ℕ) : ℚ) + 2)⟩ : Proof ℚ ℚ) =
        proofs i := Option.some.inj ((if_pos rfl).symm.trans (hproofs i))
    rw [← hproof]
    constructor
    · norm_num [clearKey]
    · norm_num
    · norm_num [clearKey]
    · norm_num [clearKey, Accepts]
  rcases hstatus (by decide) with ⟨hzero, hone⟩
  exact ⟨shipped, fault, hshipped, hfault, hzero.mpr (hquiet.mpr hsound), hlog hsound,
    hone.mpr (by decide)⟩

end Zk

end Bridges
end CMFuzz
