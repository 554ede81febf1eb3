import CMFuzz.FuzzEngine

/-!
# Cross-library comparisons of the PQC schemes

The iterations of `pqc_diff_harness` and `pqc_kat_harness`, liboqs against
PQClean.  A call that fails ends its iteration with `continue`; the line that
reports agreement is printed after the last iteration, whatever was compared.
-/

namespace CMFuzz
namespace Pqc

open ByteCodec
open Engine

/-! ## Loops of comparisons -/

/-- What a run compared, iteration by iteration, and the violation that ended
it. -/
structure Progress where
  compared : List (List Check)
  violation : Option Check
  deriving DecidableEq, Repr

/-- The iterations `i, …, i + k - 1`. -/
def iterate {σ : Type} (body : ℕ → σ → List Check × σ) : ℕ → ℕ → σ → Progress
  | _, 0, _ => ⟨[], none⟩
  | i, k + 1, s =>
      match Engine.violation (body i s).1 with
      | some c => ⟨[evaluated (body i s).1], some c⟩
      | none =>
          let rest := iterate body (i + 1) k (body i s).2
          ⟨evaluated (body i s).1 :: rest.compared, rest.violation⟩

theorem iterate_of_violation {σ : Type} {body : ℕ → σ → List Check × σ} {i k : ℕ} {s : σ}
    {c : Check} (hfirst : Engine.violation (body i s).1 = some c) :
    iterate body i (k + 1) s = ⟨[evaluated (body i s).1], some c⟩ := by
  rw [iterate, hfirst]

/-- A run, and the line it prints unless it is aborted. -/
structure Run where
  progress : Progress
  line : String
  deriving DecidableEq, Repr

def Run.printed (run : Run) : Option String :=
  match run.progress.violation with
  | some _ => none
  | none => some run.line

/-! ## `pqc_diff_harness` -/

/-- The calls a library makes in one iteration: whether each succeeds, and
what it computes then. -/
structure KemCalls where
  keypair : Option (Bytes × Bytes)
  enc : Option (Bytes → Bytes × Bytes)
  dec : Option (Bytes → Bytes → Bytes)

structure SigCalls where
  keypair : Option (Bytes × Bytes)
  sign : Option (Bytes → Bytes → Bytes)
  verify : Bytes → Bytes → Bytes → Bool

def kemInteropOracle : String := "O1_kem_interop"
def kemDirA : String := "liboqs decaps != PQClean encaps shared secret (dir A)"
def kemDirB : String := "PQClean decaps != liboqs encaps shared secret (dir B)"
def sigInteropOracle : String := "O1_sig_verify_interop"
def sigDirA : String := "liboqs vs PQClean verdict disagree (dir A)"
def sigDirB : String := "PQClean vs liboqs verdict disagree (dir B)"

/-- Keys and decapsulation of one library, encapsulation of the other. -/
def secrets (a b : KemCalls) : Option (Bytes × Bytes) := do
  let (pk, sk) ← a.keypair
  let enc ← b.enc
  let (ct, ss1) := enc pk
  let dec ← a.dec
  pure (ss1, dec ct sk)

/-- An iteration of `kem_interop`; `CMF_PQC_FAULT` spoils the first secret of
direction A. -/
def kemInteropBody (fault : Bool) (name : String) (oqs pqc : KemCalls) : List Check :=
  match secrets oqs pqc with
  | none => []
  | some (ss1, ss2) =>
      ⟨name, kemInteropOracle, kemDirA,
          (if fault then ss1.modify 0 (· ^^^ 0xFF) else ss1) = ss2⟩ ::
        match secrets pqc oqs with
        | none => []
        | some (ss1, ss2) => [⟨name, kemInteropOracle, kemDirB, ss1 = ss2⟩]

def kemInteropLine (name : String) (iters : ℤ) : String :=
  s!"[pqc-diff] {name} KEM interop: {iters} iters, both directions agree\n"

def kemInterop (oqs pqc : ℕ → KemCalls) (name : String) (iters : ℤ) : Run where
  progress := iterate (fun i s => (kemInteropBody false name (oqs i) (pqc i), s)) 0 iters.toNat ()
  line := kemInteropLine name iters

/-- The numbers that `rand` is still to return. -/
abbrev Rand := StateM (ℕ → ℕ)

def rand : Rand ℕ := fun s => (s 0, fun i => s (i + 1))

def EverySeed {α : Type} (P : α → Prop) (draw : Rand α) : Prop := ∀ s, P (draw s).1

theorem EverySeed.pure {α : Type} {P : α → Prop} {a : α} (ha : P a) :
    EverySeed P (Pure.pure a) := fun _ => ha

theorem EverySeed.bind {α β : Type} {P : α → Prop} {Q : β → Prop} {draw : Rand α}
    {cont : α → Rand β} (hdraw : EverySeed P draw) (hcont : ∀ a, P a → EverySeed Q (cont a)) :
    EverySeed Q (draw >>= cont) := fun s => hcont (draw s).1 (hdraw s) (draw s).2

theorem everySeed_true {α : Type} (draw : Rand α) : EverySeed (fun _ => True) draw :=
  fun _ => trivial

def fillRandom : ℕ → Rand Bytes
  | 0 => pure []
  | n + 1 => do
      let r ← rand
      let rest ← fillRandom n
      pure (UInt8.ofNat r :: rest)

def signed (signer : SigCalls) (msg : Bytes) : Option (Bytes × Bytes) := do
  let (pk, sk) ← signer.keypair
  let sign ← signer.sign
  pure (pk, sign msg sk)

/-- The verdicts on a message and on a tampered copy of it. -/
def verdicts (name detail : String) (oqs pqc : SigCalls) (msg pk sig : Bytes) :
    Rand (List Check) := do
  let agree := fun m => decide (oqs.verify sig m pk = pqc.verify sig m pk)
  let r ← rand
  let tampered := msg.modify (r % msg.length) (· ^^^ 0x01)
  pure [⟨name, sigInteropOracle, detail, agree msg⟩,
    ⟨name, sigInteropOracle, detail, agree tampered⟩]

/-- `CMF_PQC_FAULT` turns what PQClean says in direction A. -/
def turned (fault : Bool) (pqc : SigCalls) : SigCalls :=
  if fault then { pqc with verify := fun sig msg pk => !pqc.verify sig msg pk } else pqc

/-- An iteration of `sig_interop`. -/
def sigInteropBody (fault : Bool) (name : String) (oqs pqc : SigCalls) : Rand (List Check) := do
  let r ← rand
  let mlen := 1 + r % 200
  let msg ← fillRandom mlen
  match signed oqs msg with
  | none => pure []
  | some (pk, sig) => do
      let dirA ← verdicts name sigDirA oqs (turned fault pqc) msg pk sig
      let msg ← fillRandom mlen
      match signed pqc msg with
      | none => pure dirA
      | some (pk, sig) => do
          let dirB ← verdicts name sigDirB oqs pqc msg pk sig
          pure (dirA ++ dirB)

def sigInteropLine (name : String) (iters : ℤ) : String :=
  s!"[pqc-diff] {name} sign/verify interop: {iters} iters, both directions agree\n"

def sigInterop (oqs pqc : ℕ → SigCalls) (seeded : ℕ → ℕ) (name : String) (iters : ℤ) :
    Run where
  progress := iterate (fun i => sigInteropBody false name (oqs i) (pqc i)) 0 iters.toNat seeded
  line := sigInteropLine name iters

/-! ## `pqc_kat_harness` -/

/-- The NIST generator both libraries draw from. -/
structure Drbg where
  State : Type
  nistKatInit : Bytes → State
  randombytes : State → ℕ → Bytes × State

section

variable (drbg : Drbg)

/-- Calls that draw from the generator. -/
structure KatKemCalls where
  keypair : Option (drbg.State → (Bytes × Bytes) × drbg.State)
  enc : Option (Bytes → drbg.State → Bytes × Bytes)

structure KatSigCalls where
  keypair : Option (drbg.State → (Bytes × Bytes) × drbg.State)
  sign : Option (Bytes → Bytes → drbg.State → Bytes)

/-- The seed of test `i` is the last of the first `i + 1` that are drawn. -/
def katSeed (i : ℕ) : Bytes :=
  let entropy := (List.range 48).map fun j => UInt8.ofNat (j + 1)
  ((fun d => (drbg.randombytes d.2 48))^[i + 1] ([], drbg.nistKatInit entropy)).1

end

def katOracle : String := "O1_kat_bytes"
def bytesDiffer (what : String) : String := s!"liboqs vs PQClean {what} bytes differ"

def cmp (alg what : String) (a b : Bytes) : Check := ⟨alg, katOracle, bytesDiffer what, a = b⟩

section

variable {drbg : Drbg}

structure KemVector where
  pk : Bytes
  sk : Bytes
  ct : Bytes
  ss : Bytes

def kemVector (calls : KatKemCalls drbg) (seed : Bytes) : Option KemVector := do
  let keypair ← calls.keypair
  let enc ← calls.enc
  let ((pk, sk), d) := keypair (drbg.nistKatInit seed)
  let (ct, ss) := enc pk d
  pure ⟨pk, sk, ct, ss⟩

/-- `CMF_KAT_FAULT` seeds PQClean with one bit changed. -/
def katSeedBuild (fault : Bool) (seed : Bytes) : Bytes :=
  if fault then seed.modify 0 (· ^^^ 0x01) else seed

def kemKatBody (fault : Bool) (name : String) (oqs pqc : KatKemCalls drbg) (seed : Bytes) :
    List Check :=
  match kemVector oqs seed with
  | none => []
  | some o =>
      match kemVector pqc (katSeedBuild fault seed) with
      | none => []
      | some p =>
          [cmp name "KEM pk" o.pk p.pk, cmp name "KEM sk" o.sk p.sk,
            cmp name "KEM ct" o.ct p.ct, cmp name "KEM ss" o.ss p.ss]

def kemKatLine (name : String) (iters : ℤ) : String :=
  s!"[pqc-kat] {name} KEM KAT: {iters} vectors byte-identical (pk/sk/ct/ss)\n"

def kemKat (oqs pqc : ℕ → KatKemCalls drbg) (name : String) (iters : ℤ) : Run where
  progress := iterate (fun i s => (kemKatBody false name (oqs i) (pqc i) (katSeed drbg i), s))
    0 iters.toNat ()
  line := kemKatLine name iters

structure SigVector where
  pk : Bytes
  sk : Bytes
  sig : Bytes

def sigVector (calls : KatSigCalls drbg) (msg seed : Bytes) : Option SigVector := do
  let keypair ← calls.keypair
  let sign ← calls.sign
  let ((pk, sk), d) := keypair (drbg.nistKatInit seed)
  pure ⟨pk, sk, sign msg sk d⟩

def katMessage (i : ℕ) : Bytes := (List.range (32 + i % 64)).map fun j => UInt8.ofNat (i + j)

def sigKatBody (fault : Bool) (name : String) (oqs pqc : KatSigCalls drbg)
    (msg seed : Bytes) : List Check :=
  match sigVector oqs msg seed with
  | none => []
  | some o =>
      match sigVector pqc msg (katSeedBuild fault seed) with
      | none => []
      | some p =>
          [cmp name "SIG pk" o.pk p.pk, cmp name "SIG sk" o.sk p.sk,
            if o.sig.length ≠ p.sig.length then
              ⟨name, katOracle, "liboqs vs PQClean signature length differ", false⟩
            else cmp name "SIG sig" o.sig p.sig]

def sigKatLine (name : String) (iters : ℤ) : String :=
  s!"[pqc-kat] {name} SIG KAT: {iters} vectors byte-identical (pk/sk/sig)\n"

def sigKat (oqs pqc : ℕ → KatSigCalls drbg) (name : String) (iters : ℤ) : Run where
  progress := iterate
    (fun i s => (sigKatBody false name (oqs i) (pqc i) (katMessage i) (katSeed drbg i), s))
    0 iters.toNat ()
  line := sigKatLine name iters

end

/-! ## What a report vouches for -/

inductive Harness where
  | kemInterop (oqs pqc : ℕ → KemCalls)
  | sigInterop (oqs pqc : ℕ → SigCalls) (seeded : ℕ → ℕ)
  | kemKat {drbg : Drbg} (oqs pqc : ℕ → KatKemCalls drbg)
  | sigKat {drbg : Drbg} (oqs pqc : ℕ → KatSigCalls drbg)

namespace Harness

def run (name : String) (iters : ℤ) : Harness → Run
  | .kemInterop oqs pqc => Pqc.kemInterop oqs pqc name iters
  | .sigInterop oqs pqc seeded => Pqc.sigInterop oqs pqc seeded name iters
  | .kemKat oqs pqc => Pqc.kemKat oqs pqc name iters
  | .sigKat oqs pqc => Pqc.sigKat oqs pqc name iters

/-- The comparisons of one iteration, in order. -/
def comparisons : Harness → List String
  | .kemInterop _ _ => [kemDirA, kemDirB]
  | .sigInterop _ _ _ => [sigDirA, sigDirA, sigDirB, sigDirB]
  | .kemKat _ _ =>
      [bytesDiffer "KEM pk", bytesDiffer "KEM sk", bytesDiffer "KEM ct", bytesDiffer "KEM ss"]
  | .sigKat _ _ => [bytesDiffer "SIG pk", bytesDiffer "SIG sk", bytesDiffer "SIG sig"]

end Harness

def KemCalls.Succeed (calls : KemCalls) : Prop :=
  calls.keypair.isSome ∧ calls.enc.isSome ∧ calls.dec.isSome

def SigCalls.Succeed (calls : SigCalls) : Prop := calls.keypair.isSome ∧ calls.sign.isSome

def KatKemCalls.Succeed {drbg : Drbg} (calls : KatKemCalls drbg) : Prop :=
  calls.keypair.isSome ∧ calls.enc.isSome

def KatSigCalls.Succeed {drbg : Drbg} (calls : KatSigCalls drbg) : Prop :=
  calls.keypair.isSome ∧ calls.sign.isSome

/-- No call of either library fails in iteration `i`. -/
def Harness.Succeed (i : ℕ) : Harness → Prop
  | .kemInterop oqs pqc => (oqs i).Succeed ∧ (pqc i).Succeed
  | .sigInterop oqs pqc _ => (oqs i).Succeed ∧ (pqc i).Succeed
  | .kemKat oqs pqc => (oqs i).Succeed ∧ (pqc i).Succeed
  | .sigKat oqs pqc => (oqs i).Succeed ∧ (pqc i).Succeed

/-- All of the comparisons, with equal results, in each of `n` iterations. -/
structure EveryCompared (comparisons : List String) (n : ℕ) (progress : Progress) : Prop where
  iterations : progress.compared.length = n
  performed : ∀ checks ∈ progress.compared, checks.map Check.msg = comparisons
  equal : ∀ checks ∈ progress.compared, ∀ c ∈ checks, c.holds = true

/-- Where nothing differs the comparisons are made exactly if the calls
succeed. -/
def Reads (comparisons : List String) (succeed : Prop) (checks : List Check) : Prop :=
  Engine.violation checks = none → (checks.map Check.msg = comparisons ↔ succeed)

theorem iterate_quiet {σ : Type} (body : ℕ → σ → List Check × σ) {i k : ℕ} {s : σ}
    (hquiet : (iterate body i k s).violation = none) :
    (iterate body i k s).compared.length = k ∧
      ∀ checks ∈ (iterate body i k s).compared, ∀ c ∈ checks, c.holds = true := by
  induction k generalizing i s with
  | zero => exact ⟨rfl, fun checks hchecks => absurd hchecks List.not_mem_nil⟩
  | succ k ih =>
      rw [iterate] at hquiet ⊢
      cases hviolation : Engine.violation (body i s).1 with
      | some c =>
          rw [hviolation] at hquiet
          cases hquiet
      | none =>
          rw [hviolation] at hquiet
          have hrest := ih hquiet
          refine ⟨congrArg (· + 1) hrest.1, fun checks hchecks => ?_⟩
          rcases List.mem_cons.mp hchecks with rfl | htail
          · rw [evaluated_of_quiet hviolation]
            exact holds_of_quiet hviolation
          · exact hrest.2 checks htail

theorem iterate_reads {σ : Type} {body : ℕ → σ → List Check × σ} {comparisons : List String}
    {succeed : ℕ → Prop} (hbody : ∀ i s, Reads comparisons (succeed i) (body i s).1)
    {i k : ℕ} {s : σ} (hquiet : (iterate body i k s).violation = none) :
    (∀ checks ∈ (iterate body i k s).compared, checks.map Check.msg = comparisons) ↔
      ∀ j, i ≤ j → j < i + k → succeed j := by
  induction k generalizing i s with
  | zero =>
      refine iff_of_true (fun checks hchecks => absurd hchecks List.not_mem_nil) ?_
      intro j hij hj
      omega
  | succ k ih =>
      rw [iterate] at hquiet ⊢
      cases hviolation : Engine.violation (body i s).1 with
      | some c =>
          rw [hviolation] at hquiet
          cases hquiet
      | none =>
          rw [hviolation] at hquiet
          have hfirst := hbody i s hviolation
          have hrest := ih hquiet
          dsimp only
          rw [List.forall_mem_cons, evaluated_of_quiet hviolation, hfirst, hrest]
          constructor
          · rintro ⟨hi, hlater⟩ j hij hj
            rcases Nat.eq_or_lt_of_le hij with rfl | hlt
            · exact hi
            · exact hlater j hlt (by omega)
          · intro hall
            exact ⟨hall i le_rfl (by omega), fun j hij hj => hall j (by omega) (by omega)⟩

theorem iterate_everyCompared {σ : Type} {body : ℕ → σ → List Check × σ}
    {comparisons : List String} {succeed : ℕ → Prop}
    (hbody : ∀ i s, Reads comparisons (succeed i) (body i s).1) {n : ℕ} {s : σ}
    (hquiet : (iterate body 0 n s).violation = none) :
    EveryCompared comparisons n (iterate body 0 n s) ↔ ∀ i < n, succeed i := by
  have hloop := iterate_quiet body hquiet
  have hreads := iterate_reads hbody hquiet
  rw [Nat.zero_add] at hreads
  constructor
  · intro hevery i hi
    exact hreads.mp hevery.performed i (Nat.zero_le i) hi
  · intro hall
    exact ⟨hloop.1, hreads.mpr fun j _ hj => hall j hj, hloop.2⟩

/-! ## Iterations -/

theorem secrets_isSome (a b : KemCalls) :
    (secrets a b).isSome ↔ a.keypair.isSome ∧ b.enc.isSome ∧ a.dec.isSome := by
  rw [secrets]
  cases a.keypair with
  | none => simp
  | some keys =>
      cases b.enc with
      | none => simp
      | some enc =>
          cases a.dec with
          | none => simp
          | some dec => simp

theorem kemInteropBody_reads (fault : Bool) (name : String) (oqs pqc : KemCalls) :
    Reads [kemDirA, kemDirB] (oqs.Succeed ∧ pqc.Succeed)
      (kemInteropBody fault name oqs pqc) := by
  intro _
  have hA := secrets_isSome oqs pqc
  have hB := secrets_isSome pqc oqs
  rw [kemInteropBody]
  cases hsecretsA : secrets oqs pqc with
  | none =>
      rw [hsecretsA] at hA
      refine iff_of_false (List.cons_ne_nil _ _).symm ?_
      rintro ⟨⟨hkeypair, -, hdec⟩, -, henc, -⟩
      exact absurd (hA.mpr ⟨hkeypair, henc, hdec⟩) (by decide)
  | some ssA =>
      rw [hsecretsA] at hA
      cases hsecretsB : secrets pqc oqs with
      | none =>
          rw [hsecretsB] at hB
          refine iff_of_false ?_ ?_
          · intro hmap
            cases hmap
          · rintro ⟨⟨-, henc, -⟩, hkeypair, -, hdec⟩
            exact absurd (hB.mpr ⟨hkeypair, henc, hdec⟩) (by decide)
      | some ssB =>
          rw [hsecretsB] at hB
          rcases hA.mp rfl with ⟨hkeypairA, hencA, hdecA⟩
          rcases hB.mp rfl with ⟨hkeypairB, hencB, hdecB⟩
          exact iff_of_true rfl ⟨⟨hkeypairA, hencB, hdecA⟩, hkeypairB, hencA, hdecB⟩

theorem signed_isSome (calls : SigCalls) (msg : Bytes) :
    (signed calls msg).isSome ↔ calls.Succeed := by
  rw [signed, SigCalls.Succeed]
  cases calls.keypair with
  | none => simp
  | some keys =>
      cases calls.sign with
      | none => simp
      | some sign => simp

theorem verdicts_msgs (name detail : String) (oqs pqc : SigCalls) (msg pk sig : Bytes) :
    EverySeed (fun checks => checks.map Check.msg = [detail, detail])
      (verdicts name detail oqs pqc msg pk sig) := fun _ => rfl

theorem sigInteropBody_reads (fault : Bool) (name : String) (oqs pqc : SigCalls) :
    EverySeed (Reads [sigDirA, sigDirA, sigDirB, sigDirB] (oqs.Succeed ∧ pqc.Succeed))
      (sigInteropBody fault name oqs pqc) := by
  refine EverySeed.bind (everySeed_true _) fun r _ => ?_
  refine EverySeed.bind (everySeed_true _) fun msgA _ => ?_
  have hA := signed_isSome oqs msgA
  cases hsignedA : signed oqs msgA with
  | none =>
      rw [hsignedA] at hA
      refine EverySeed.pure fun _ => iff_of_false (List.cons_ne_nil _ _).symm fun h => ?_
      exact Bool.false_ne_true (hA.mpr h.1)
  | some sigA =>
      rw [hsignedA] at hA
      refine EverySeed.bind (verdicts_msgs _ _ _ _ _ _ _) fun dirA hdirA => ?_
      refine EverySeed.bind (everySeed_true _) fun msgB _ => ?_
      have hB := signed_isSome pqc msgB
      cases hsignedB : signed pqc msgB with
      | none =>
          rw [hsignedB] at hB
          refine EverySeed.pure fun _ => iff_of_false ?_ fun h => ?_
          · rw [hdirA]
            exact fun hmsgs => absurd (congrArg List.length hmsgs) (by decide)
          · exact Bool.false_ne_true (hB.mpr h.2)
      | some sigB =>
          rw [hsignedB] at hB
          refine EverySeed.bind (verdicts_msgs _ _ _ _ _ _ _) fun dirB hdirB => ?_
          refine EverySeed.pure fun _ => iff_of_true ?_ ⟨hA.mp rfl, hB.mp rfl⟩
          rw [List.map_append, hdirA, hdirB]
          rfl

theorem kemVector_isSome {drbg : Drbg} (calls : KatKemCalls drbg) (seed : Bytes) :
    (kemVector calls seed).isSome ↔ calls.Succeed := by
  rw [kemVector, KatKemCalls.Succeed]
  cases calls.keypair with
  | none => simp
  | some keypair =>
      cases calls.enc with
      | none => simp
      | some enc => simp

theorem kemKatBody_reads {drbg : Drbg} (fault : Bool) (name : String)
    (oqs pqc : KatKemCalls drbg) (seed : Bytes) :
    Reads [bytesDiffer "KEM pk", bytesDiffer "KEM sk", bytesDiffer "KEM ct",
      bytesDiffer "KEM ss"] (oqs.Succeed ∧ pqc.Succeed)
      (kemKatBody fault name oqs pqc seed) := by
  intro _
  rw [kemKatBody, ← kemVector_isSome oqs seed,
    ← kemVector_isSome pqc (katSeedBuild fault seed)]
  cases kemVector oqs seed with
  | none => exact iff_of_false (List.cons_ne_nil _ _).symm fun h => absurd h.1 (by decide)
  | some o =>
      cases kemVector pqc (katSeedBuild fault seed) with
      | none => exact iff_of_false (List.cons_ne_nil _ _).symm fun h => absurd h.2 (by decide)
      | some p => exact iff_of_true rfl ⟨rfl, rfl⟩

theorem sigVector_isSome {drbg : Drbg} (calls : KatSigCalls drbg) (msg seed : Bytes) :
    (sigVector calls msg seed).isSome ↔ calls.Succeed := by
  rw [sigVector, KatSigCalls.Succeed]
  cases calls.keypair with
  | none => simp
  | some keypair =>
      cases calls.sign with
      | none => simp
      | some sign => simp

theorem sigKatBody_reads {drbg : Drbg} (fault : Bool) (name : String)
    (oqs pqc : KatSigCalls drbg) (msg seed : Bytes) :
    Reads [bytesDiffer "SIG pk", bytesDiffer "SIG sk", bytesDiffer "SIG sig"]
      (oqs.Succeed ∧ pqc.Succeed) (sigKatBody fault name oqs pqc msg seed) := by
  intro hquiet
  rw [sigKatBody] at hquiet ⊢
  rw [← sigVector_isSome oqs msg seed, ← sigVector_isSome pqc msg (katSeedBuild fault seed)]
  cases hvectorO : sigVector oqs msg seed with
  | none => exact iff_of_false (List.cons_ne_nil _ _).symm fun h => absurd h.1 (by decide)
  | some o =>
      cases hvectorP : sigVector pqc msg (katSeedBuild fault seed) with
      | none => exact iff_of_false (List.cons_ne_nil _ _).symm fun h => absurd h.2 (by decide)
      | some p =>
          rw [hvectorO, hvectorP] at hquiet
          refine iff_of_true ?_ ⟨rfl, rfl⟩
          -- a length that differs is a violation, so here the bytes are compared
          by_cases hlen : o.sig.length ≠ p.sig.length
          · have hsig := holds_of_quiet hquiet
              (if o.sig.length ≠ p.sig.length then
                ⟨name, katOracle, "liboqs vs PQClean signature length differ", false⟩
              else cmp name "SIG sig" o.sig p.sig) (by simp)
            rw [if_pos hlen] at hsig
            cases hsig
          · simp only [List.map_cons, List.map_nil, if_neg hlen]
            rfl

theorem agreement_iff (h : Harness) (name : String) (iters : ℤ)
    (hprinted : (h.run name iters).printed.isSome) :
    EveryCompared h.comparisons iters.toNat (h.run name iters).progress ↔
      ∀ i < iters.toNat, h.Succeed i := by
  have hquiet : (h.run name iters).progress.violation = none := by
    rw [Run.printed] at hprinted
    split at hprinted
    · cases hprinted
    · assumption
  cases h with
  | kemInterop oqs pqc =>
      exact iterate_everyCompared
        (fun i _ => kemInteropBody_reads false name (oqs i) (pqc i)) hquiet
  | sigInterop oqs pqc seeded =>
      exact iterate_everyCompared
        (fun i s => sigInteropBody_reads false name (oqs i) (pqc i) s) hquiet
  | kemKat oqs pqc =>
      exact iterate_everyCompared
        (fun i _ => kemKatBody_reads false name (oqs i) (pqc i) _) hquiet
  | sigKat oqs pqc =>
      exact iterate_everyCompared
        (fun i _ => sigKatBody_reads false name (oqs i) (pqc i) _ _) hquiet

/-- Every call succeeds, with the secret taken from the public key. -/
def echoKem : KemCalls := ⟨some ([1], [1]), some fun pk => ([9], pk), some fun _ sk => sk⟩

theorem agreement_iff_echoKem :
    EveryCompared [kemDirA, kemDirB] 2
        ((Harness.kemInterop (fun _ => echoKem) fun _ => echoKem).run "ML-KEM-768" 2).progress ↔
      ∀ i < 2, (Harness.kemInterop (fun _ => echoKem) fun _ => echoKem).Succeed i :=
  agreement_iff (.kemInterop (fun _ => echoKem) fun _ => echoKem) "ML-KEM-768" 2 rfl

/-- liboqs fails to decapsulate what PQClean decapsulates, and the line that
reports agreement is printed. -/
theorem agreement_without_decaps_fails :
    ¬ ∀ (h : Harness) (name : String) (iters : ℤ), (h.run name iters).printed.isSome →
      EveryCompared h.comparisons iters.toNat (h.run name iters).progress := by
  intro hclaim
  have hevery := hclaim (.kemInterop (fun _ => { echoKem with dec := none }) fun _ => echoKem)
    "ML-KEM-768" 1 rfl
  exact absurd (hevery.performed [] List.mem_cons_self) (by decide)

end Pqc
end CMFuzz
