import CMFuzz.FuzzEngine
import CMFuzz.RandomPrograms

/-!
# Replaying inputs of the liboqs harnesses

`liboqs_kem_harness`, `liboqs_sig_harness`, `seq_pqc_harness` and
`comp_authkem_harness` with `CMF_AK_PQC=1`, as runs of one process after
another input.  The first two install `cmf_randombytes` when they create the
handle of the algorithm and seed it from each input; the other two seed it as
well, and leave liboqs with the random source of the system.
-/

namespace CMFuzz
namespace Replay

open ByteCodec
open Engine
open RandomPrograms

/-! ## liboqs -/

abbrev OqsCall := Sampling ℕ Bytes

/-- `enabled` is whether `OQS_KEM_new` succeeds; a call that fails returns
`none`. -/
structure OqsKem where
  name : String
  enabled : Bool
  lengthCiphertext : ℕ
  keypair : OqsCall (Option (Bytes × Bytes))
  encaps : Bytes → OqsCall (Option (Bytes × Bytes))
  decaps : Bytes → Bytes → OqsCall (Option Bytes)

structure OqsSig where
  name : String
  enabled : Bool
  lengthSignature : ℕ
  keypair : OqsCall (Option (Bytes × Bytes))
  sign : Bytes → Bytes → OqsCall (Option Bytes)
  verify : Bytes → Bytes → Bytes → OqsCall Bool

structure Libraries where
  kem : OqsKem
  sig : OqsSig
  hkdf32 : Bytes → Bytes
  gcmSeal : Bytes → Bytes → Bytes
  gcmOpen : Bytes → Bytes → Option Bytes

/-! ## Programs of the harnesses -/

inductive Output where
  | keypair (keys : Option (Bytes × Bytes))
  | encaps (sent : Option (Bytes × Bytes))
  | secret (ss : Option Bytes)
  | signature (sig : Option Bytes)
  | verdict (accepted : Bool)
  deriving DecidableEq, Repr

inductive Stop where
  | exited
  | violation (c : Check)
  deriving DecidableEq, Repr

abbrev Exec := Program ℕ Bytes Output Stop

def keypair (k : OqsKem) : Exec (Option (Bytes × Bytes)) := Program.call .keypair k.keypair

def encaps (k : OqsKem) (pk : Bytes) : Exec (Option (Bytes × Bytes)) :=
  Program.call .encaps (k.encaps pk)

def decaps (k : OqsKem) (ct sk : Bytes) : Exec (Option Bytes) :=
  Program.call .secret (k.decaps ct sk)

def sigKeypair (s : OqsSig) : Exec (Option (Bytes × Bytes)) := Program.call .keypair s.keypair

def sign (s : OqsSig) (m sk : Bytes) : Exec (Option Bytes) :=
  Program.call .signature (s.sign m sk)

def verify (s : OqsSig) (m sig pk : Bytes) : Exec Bool :=
  Program.call .verdict (s.verify m sig pk)

def cmfAssert (c : Check) : Exec Unit := if c.holds then pure () else .stop (.violation c)

/-- `(uint8_t)(1u << (sel & 7))`. -/
def selectedBit (sel : UInt32) : UInt8 := (1 : UInt8) <<< (sel &&& 7).toUInt8

def liboqsKemBody (k : OqsKem) (mode : UInt8) (sel : UInt32) (tail : Bytes) : Exec Unit := do
  let some (pk, sk) ← keypair k | pure ()
  let some (ct, ssE) ← encaps k pk | pure ()
  let some ssD ← decaps k ct sk
    | cmfAssert ⟨k.name, "MR1_decaps_status", "decaps failed on honest ct", false⟩
  cmfAssert ⟨k.name, "MR1_correctness", "shared secrets differ", ssE = ssD⟩
  let ssD2 ← decaps k ct sk
  cmfAssert ⟨k.name, "MR4_determinism", "decaps not deterministic", ssD2.all (· = ssD)⟩
  if mode &&& 0x01 ≠ 0 then
    let ctm := ct.modify (sel.toNat % k.lengthCiphertext) (· ^^^ selectedBit sel)
    let ssD2 ← decaps k ctm sk
    cmfAssert ⟨k.name, "MR2_malleability", "mutated ct yields honest shared secret",
      ssD2 ≠ some ssE⟩
  if mode &&& 0x02 ≠ 0 then
    if let some (_, sk2) ← keypair k then
      let ssD2 ← decaps k ct sk2
      cmfAssert ⟨k.name, "MR3_wrong_key", "foreign sk recovers honest shared secret",
        ssD2 ≠ some ssE⟩
  if mode &&& 0x04 ≠ 0 then
    let n := min tail.length k.lengthCiphertext
    let _ ← decaps k (tail.take n ++ ct.drop n) sk

/-- A message that varies with the input. -/
def sigMessage (tail : Bytes) : Bytes :=
  let mlen := if tail.length ≠ 0 then tail.length % 256 + 1 else 1
  (List.range mlen).map fun i =>
    if tail.length ≠ 0 then tail.getD (i % tail.length) 0 else 0

def liboqsSigBody (s : OqsSig) (mode : UInt8) (sel : UInt32) (tail : Bytes) : Exec Unit := do
  let msg := sigMessage tail
  let some (pk, sk) ← sigKeypair s | pure ()
  let some sig ← sign s msg sk | pure ()
  let valid ← verify s msg sig pk
  cmfAssert ⟨s.name, "MR1_correctness", "valid signature rejected", valid⟩
  if mode &&& 0x01 ≠ 0 ∧ 1 < msg.length then
    let m2 := msg.modify (sel.toNat % msg.length) (· ^^^ 0x01)
    let accepted ← verify s m2 sig pk
    cmfAssert ⟨s.name, "MR2_message_binding", "signature verifies for altered message",
      !accepted⟩
  if mode &&& 0x02 ≠ 0 ∧ 0 < sig.length then
    let sg := sig.modify (sel.toNat % sig.length) (· ^^^ selectedBit sel)
    if sg ≠ sig then
      let accepted ← verify s msg sg pk
      cmfAssert ⟨s.name, "MR3_strong_unforgeability",
        "mutated signature still verifies (SUF violation)", !accepted⟩
  if mode &&& 0x04 ≠ 0 then
    if let some (pk2, _) ← sigKeypair s then
      let accepted ← verify s msg sig pk2
      cmfAssert ⟨s.name, "MR4_wrong_key", "signature verifies under foreign public key",
        !accepted⟩
  if mode &&& 0x08 ≠ 0 then
    let n := min tail.length s.lengthSignature
    let _ ← verify s msg (tail.take n) pk

def seqPqcBody (k : OqsKem) : Exec Unit := do
  let some (pkA, skA) ← keypair k | pure ()
  let some (_, skB) ← keypair k | pure ()
  let some (ct, ssEnc) ← encaps k pkA | pure ()
  if let some ssA ← decaps k ct skA then
    cmfAssert ⟨"ML-KEM-768/seq", "O6-kem-roundtrip",
      "honest KEM decapsulation did not agree", ssA = ssEnc⟩
  if let some ssB ← decaps k ct skB then
    cmfAssert ⟨"ML-KEM-768/seq", "O6-kem-key-confusion",
      "wrong-key decapsulation falsely agreed with sender", ssB ≠ ssEnc⟩

def akName : String := "AuthKEM(ML-KEM-768+ML-DSA-65)"

/-- The status of `OQS_SIG_sign` is not read. -/
def runCase (lib : Libraries) (rest : Bytes) : Exec Unit := do
  let some (pkR, skR) ← keypair lib.kem | pure ()
  let some (pkS, skS) ← sigKeypair lib.sig | pure ()
  let some (enc, ssS) ← encaps lib.kem pkR | pure ()
  let signed ← sign lib.sig enc skS
  let sig := signed.getD []
  let v ← verify lib.sig enc sig pkS
  cmfAssert ⟨akName, "O5-roundtrip", "signature over enc failed to verify", v⟩
  if let some ssR ← decaps lib.kem enc skR then
    let m := rest.take 1024
    let pt := lib.gcmOpen (lib.hkdf32 ssR) (lib.gcmSeal (lib.hkdf32 ssS) m)
    cmfAssert ⟨akName, "O5-roundtrip", "AEAD record mismatch",
      pt.any fun pt => pt.take m.length = m⟩
  let v2 ← verify lib.sig (enc.modify 0 (· ^^^ 0x01)) sig pkS
  cmfAssert ⟨akName, "O5-transcript-binding", "signature accepted a swapped encapsulation",
    !v2⟩

/-! ## Processes -/

/-- The state a run leaves to the next one: `g_cmf_prng`, whether the callback
is installed, whether the handle `g_kem` or `g_sig` is set, and what the source
of the system is still to return. -/
structure Process where
  prng : UInt64
  custom : Bool
  handle : Bool
  os : ℕ → UInt8

def Process.start (os : ℕ → UInt8) : Process := ⟨0, false, false, os⟩

def systemRandombytes (n : ℕ) (os : ℕ → UInt8) : Bytes × (ℕ → UInt8) :=
  ((List.range n).map os, fun i => os (n + i))

def oqsRandombytes (n : ℕ) (p : Process) : Bytes × Process :=
  if p.custom then
    ((cmfRandombytes n p.prng).1, { p with prng := (cmfRandombytes n p.prng).2 })
  else ((systemRandombytes n p.os).1, { p with os := (systemRandombytes n p.os).2 })

/-- `cmf_prng_seed`. -/
def Process.seed (p : Process) (buf : Bytes) : Process := { p with prng := cmfPrngSeed buf }

def ensureInit (enabled : Bool) (p : Process) : Process :=
  if p.handle then p else { p with custom := true, handle := enabled }

abbrev Execution := Outcome Output Stop Unit

def returned : Execution := ⟨[], .ok ()⟩

/-- The fields of an input of `liboqs_kem_harness` and `liboqs_sig_harness`. -/
structure Input where
  mode : UInt8
  sel : UInt32
  tail : Bytes

def parse (data : Bytes) : Input :=
  let (mode, r) := cmfU8 (cmfReaderInit data)
  let (sel, r) := cmfU32 r
  ⟨mode, sel, (cmfRest r).1⟩

/-- `liboqs_kem_harness` and `liboqs_sig_harness`. -/
def runWithHandle (enabled : Bool) (body : UInt8 → UInt32 → Bytes → Exec Unit) (data : Bytes)
    (p : Process) : Execution × Process :=
  let p := ensureInit enabled p
  if p.handle = false then (⟨[], .error .exited⟩, p)
  else if data.length < 8 then (returned, p)
  else
    let input := parse data
    (body input.mode input.sel input.tail).run oqsRandombytes (p.seed input.tail)

/-- `seq_pqc_harness` and `comp_authkem_harness`. -/
def runPerInput (minSize : ℕ) (enabled : Bool) (body : Bytes → Exec Unit) (data : Bytes)
    (p : Process) : Execution × Process :=
  if data.length < minSize then (returned, p)
  else
    let p := p.seed data
    if enabled = false then (returned, p)
    else (body (cmfRest (cmfReaderInit data)).1).run oqsRandombytes p

inductive Harness where
  | liboqsKem
  | liboqsSig
  | seqPqc
  | compAuthkem
  deriving DecidableEq, Repr

def Harness.llvmFuzzerTestOneInput (lib : Libraries) : Harness → Bytes → Process →
    Execution × Process
  | .liboqsKem => runWithHandle lib.kem.enabled (liboqsKemBody lib.kem)
  | .liboqsSig => runWithHandle lib.sig.enabled (liboqsSigBody lib.sig)
  | .seqPqc => runPerInput 8 lib.kem.enabled fun _ => seqPqcBody lib.kem
  | .compAuthkem => runPerInput 2 (lib.kem.enabled && lib.sig.enabled) (runCase lib)

def Harness.after (lib : Libraries) (h : Harness) (earlier : List Bytes) (p : Process) :
    Process :=
  earlier.foldl (fun p data => (h.llvmFuzzerTestOneInput lib data p).2) p

/-- Two executions of one input look the same, whatever came before and
whatever the system returns. -/
def Harness.Replays (lib : Libraries) (h : Harness) (data : Bytes) : Prop :=
  ∀ earlier earlier' os os',
    (h.llvmFuzzerTestOneInput lib data (h.after lib earlier (.start os))).1 =
      (h.llvmFuzzerTestOneInput lib data (h.after lib earlier' (.start os'))).1

def Harness.Seeded : Harness → Prop
  | .liboqsKem => True
  | .liboqsSig => True
  | .seqPqc => False
  | .compAuthkem => False

/-- The inputs on which a harness returns before it calls liboqs. -/
def Harness.ReturnsEarly (lib : Libraries) : Harness → Bytes → Prop
  | .liboqsKem, data => data.length < 8
  | .liboqsSig, data => data.length < 8
  | .seqPqc, data => data.length < 8 ∨ lib.kem.enabled = false
  | .compAuthkem, data =>
      data.length < 2 ∨ (lib.kem.enabled && lib.sig.enabled) = false

/-- Key generation depends on the source of the system. -/
def OqsKem.Varies (k : OqsKem) : Prop :=
  ∃ os os', (k.keypair.run systemRandombytes os).1 ≠ (k.keypair.run systemRandombytes os').1

/-! ## The source a run draws from -/

/-- Once the callback is installed the source of the system is not read. -/
def SamePrng (p q : Process) : Prop := p.custom = true ∧ q.custom = true ∧ p.prng = q.prng

theorem samePrng_seed {p q : Process} (hp : p.custom = true) (hq : q.custom = true)
    (buf : Bytes) : SamePrng (p.seed buf) (q.seed buf) := ⟨hp, hq, rfl⟩

theorem oqsRandombytes_seeded : Alike SamePrng oqsRandombytes oqsRandombytes := by
  rintro n p q ⟨hp, hq, hprng⟩
  rw [oqsRandombytes, oqsRandombytes, if_pos hp, if_pos hq, hprng]
  exact ⟨rfl, hp, hq, rfl⟩

/-- Until then nothing else is. -/
def SystemSource (p : Process) (os : ℕ → UInt8) : Prop := p.custom = false ∧ p.os = os

theorem oqsRandombytes_system : Alike SystemSource oqsRandombytes systemRandombytes := by
  rintro n p os ⟨hp, rfl⟩
  rw [oqsRandombytes, if_neg (by rw [hp]; exact Bool.false_ne_true)]
  exact ⟨rfl, hp, rfl⟩

theorem oqsRandombytes_flags (n : ℕ) (p : Process) :
    (oqsRandombytes n p).2.custom = p.custom ∧ (oqsRandombytes n p).2.handle = p.handle := by
  rw [oqsRandombytes]
  split
  · exact ⟨rfl, rfl⟩
  · exact ⟨rfl, rfl⟩

/-! ## Processes of the harnesses that install the callback -/

/-- A handle that is set was set together with the callback, for an algorithm
that is enabled. -/
def Process.Initialised (enabled : Bool) (p : Process) : Prop :=
  p.handle = true → p.custom = true ∧ enabled = true

theorem Process.Initialised.seed {enabled : Bool} {p : Process} (hp : p.Initialised enabled)
    (buf : Bytes) : (p.seed buf).Initialised enabled := fun hhandle => hp hhandle

theorem oqsRandombytes_initialised {enabled : Bool} (n : ℕ) (p : Process)
    (hp : p.Initialised enabled) : (oqsRandombytes n p).2.Initialised enabled := by
  rcases oqsRandombytes_flags n p with ⟨hcustom, hhandle⟩
  rw [Process.Initialised, hcustom, hhandle]
  exact hp

theorem ensureInit_flags {enabled : Bool} {p : Process} (hp : p.Initialised enabled) :
    (ensureInit enabled p).custom = true ∧ (ensureInit enabled p).handle = enabled := by
  rw [ensureInit]
  split
  · rename_i hhandle
    rcases hp hhandle with ⟨hcustom, henabled⟩
    exact ⟨hcustom, hhandle.trans henabled.symm⟩
  · exact ⟨rfl, rfl⟩

theorem runWithHandle_initialised {enabled : Bool} {body : UInt8 → UInt32 → Bytes → Exec Unit}
    {data : Bytes} {p : Process} (hp : p.Initialised enabled) :
    (runWithHandle enabled body data p).2.Initialised enabled := by
  rcases ensureInit_flags hp with ⟨hcustom, hhandle⟩
  have hinit : (ensureInit enabled p).Initialised enabled := fun h =>
    ⟨hcustom, hhandle.symm.trans h⟩
  rw [runWithHandle]
  dsimp only
  split
  · exact hinit
  · split
    · exact hinit
    · exact Program.run_preserves oqsRandombytes_initialised _ (hinit.seed (parse data).tail)

theorem runWithHandle_alike {enabled : Bool} {body : UInt8 → UInt32 → Bytes → Exec Unit}
    {data : Bytes} {p q : Process} (hp : p.Initialised enabled) (hq : q.Initialised enabled) :
    (runWithHandle enabled body data p).1 = (runWithHandle enabled body data q).1 := by
  rcases ensureInit_flags hp with ⟨hpcustom, hphandle⟩
  rcases ensureInit_flags hq with ⟨hqcustom, hqhandle⟩
  rw [runWithHandle, runWithHandle]
  dsimp only
  rw [hphandle, hqhandle]
  split
  · rfl
  · split
    · rfl
    · have hseeded := samePrng_seed hpcustom hqcustom (parse data).tail
      exact (Program.run_alike oqsRandombytes_seeded _ hseeded).1

theorem after_initialised {lib : Libraries} {h : Harness} {enabled : Bool}
    {body : UInt8 → UInt32 → Bytes → Exec Unit}
    (hrun : h.llvmFuzzerTestOneInput lib = runWithHandle enabled body) (earlier : List Bytes)
    {p : Process} (hp : p.Initialised enabled) :
    (h.after lib earlier p).Initialised enabled := by
  induction earlier generalizing p with
  | nil => exact hp
  | cons data rest ih =>
      have hnext : (h.llvmFuzzerTestOneInput lib data p).2.Initialised enabled := by
        rw [hrun]
        exact runWithHandle_initialised hp
      exact ih hnext

theorem start_initialised (enabled : Bool) (os : ℕ → UInt8) :
    (Process.start os).Initialised enabled := fun h => absurd h Bool.false_ne_true

theorem replays_of_handle {lib : Libraries} {h : Harness} {enabled : Bool}
    {body : UInt8 → UInt32 → Bytes → Exec Unit}
    (hrun : h.llvmFuzzerTestOneInput lib = runWithHandle enabled body) (data : Bytes) :
    h.Replays lib data := by
  intro earlier earlier' os os'
  have hp := after_initialised hrun earlier (start_initialised enabled os)
  have hq := after_initialised hrun earlier' (start_initialised enabled os')
  rw [hrun]
  exact runWithHandle_alike hp hq

/-! ## Processes of the others -/

theorem runPerInput_first {minSize : ℕ} {enabled : Bool} {body : Bytes → Exec Unit}
    {data : Bytes} {k : OqsKem} {next : Option (Bytes × Bytes) → Exec Unit}
    (hsize : ¬ data.length < minSize) (henabled : enabled ≠ false)
    (hbody : body (cmfRest (cmfReaderInit data)).1 = (keypair k).bind next) (os : ℕ → UInt8) :
    (runPerInput minSize enabled body data (.start os)).1.shown.head? =
      some (.keypair (k.keypair.run systemRandombytes os).1) := by
  rw [runPerInput, if_neg hsize]
  dsimp only
  rw [if_neg henabled, hbody, keypair, Program.run_call_bind,
    (Sampling.run_alike oqsRandombytes_system k.keypair ⟨rfl, rfl⟩).1]
  rfl

theorem not_replays {lib : Libraries} {h : Harness} {minSize : ℕ} {enabled : Bool}
    {body : Bytes → Exec Unit} {data : Bytes} {next : Option (Bytes × Bytes) → Exec Unit}
    (hrun : h.llvmFuzzerTestOneInput lib = runPerInput minSize enabled body)
    (hsize : ¬ data.length < minSize) (henabled : enabled ≠ false)
    (hbody : body (cmfRest (cmfReaderInit data)).1 = (keypair lib.kem).bind next)
    (hvaries : lib.kem.Varies) : ¬ h.Replays lib data := by
  intro hreplays
  rcases hvaries with ⟨os, os', hkeys⟩
  have hsame := congrArg (fun e : Execution => e.shown.head?) (hreplays [] [] os os')
  simp only [Harness.after, List.foldl_nil, hrun] at hsame
  rw [runPerInput_first hsize henabled hbody, runPerInput_first hsize henabled hbody] at hsame
  exact hkeys (Output.keypair.inj (Option.some.inj hsame))

theorem replays_of_returned {lib : Libraries} {h : Harness} {minSize : ℕ} {enabled : Bool}
    {body : Bytes → Exec Unit} {data : Bytes}
    (hrun : h.llvmFuzzerTestOneInput lib = runPerInput minSize enabled body)
    (hreturns : data.length < minSize ∨ enabled = false) : h.Replays lib data := by
  have hreturned : ∀ p, (h.llvmFuzzerTestOneInput lib data p).1 = returned := by
    intro p
    rw [hrun, runPerInput]
    split
    · rfl
    · rename_i hsize
      dsimp only
      rw [if_pos (hreturns.resolve_left hsize)]
  intro earlier earlier' os os'
  rw [hreturned, hreturned]

theorem not_replays_of_calls {lib : Libraries} {h : Harness} {minSize : ℕ} {enabled : Bool}
    {body : Bytes → Exec Unit} {data : Bytes} {next : Option (Bytes × Bytes) → Exec Unit}
    (hrun : h.llvmFuzzerTestOneInput lib = runPerInput minSize enabled body)
    (hbody : body (cmfRest (cmfReaderInit data)).1 = (keypair lib.kem).bind next)
    (hvaries : lib.kem.Varies) (hreplays : h.Replays lib data) :
    data.length < minSize ∨ enabled = false := by
  by_contra hcalls
  rcases not_or.mp hcalls with ⟨hsize, henabled⟩
  exact not_replays hrun hsize henabled hbody hvaries hreplays

theorem replays_iff (lib : Libraries) (h : Harness) (data : Bytes) :
    (h.Seeded ∨ h.ReturnsEarly lib data → h.Replays lib data) ∧
      (lib.kem.Varies → h.Replays lib data → h.Seeded ∨ h.ReturnsEarly lib data) := by
  cases h with
  | liboqsKem => exact ⟨fun _ => replays_of_handle rfl data, fun _ _ => Or.inl trivial⟩
  | liboqsSig => exact ⟨fun _ => replays_of_handle rfl data, fun _ _ => Or.inl trivial⟩
  | seqPqc =>
      have hrun : Harness.seqPqc.llvmFuzzerTestOneInput lib =
          runPerInput 8 lib.kem.enabled fun _ => seqPqcBody lib.kem := rfl
      rw [Harness.Seeded, false_or]
      exact ⟨replays_of_returned hrun, not_replays_of_calls hrun rfl⟩
  | compAuthkem =>
      have hrun : Harness.compAuthkem.llvmFuzzerTestOneInput lib =
          runPerInput 2 (lib.kem.enabled && lib.sig.enabled) (runCase lib) := rfl
      rw [Harness.Seeded, false_or]
      exact ⟨replays_of_returned hrun, not_replays_of_calls hrun rfl⟩

/-- One random byte as both keys, which are the secret and the signature as
well. -/
def byteLib : Libraries where
  kem :=
    { name := "ML-KEM-768"
      enabled := true
      lengthCiphertext := 1
      keypair := .draw 1 fun bytes => .done (some (bytes, bytes))
      encaps := fun pk => .draw 1 fun bytes => .done (some (bytes, pk))
      decaps := fun _ sk => .done (some sk) }
  sig :=
    { name := "ML-DSA-65"
      enabled := true
      lengthSignature := 1
      keypair := .draw 1 fun bytes => .done (some (bytes, bytes))
      sign := fun m sk => .done (some (m ++ sk))
      verify := fun m sig pk => .done (sig = m ++ pk) }
  hkdf32 := fun ss => ss
  gcmSeal := fun k m => k ++ m
  gcmOpen := fun k ct => if ct.take k.length = k then some (ct.drop k.length) else none

theorem byteLib_varies : byteLib.kem.Varies := ⟨fun _ => 0, fun _ => 1, by decide⟩

theorem replays_iff_byteLib :
    Harness.liboqsKem.Replays byteLib [1, 0, 0, 0, 0, 5, 6, 7] ∧
      (Harness.seqPqc.Replays byteLib [1, 0, 0, 0, 0, 5, 6, 7] →
        Harness.seqPqc.Seeded ∨ Harness.seqPqc.ReturnsEarly byteLib [1, 0, 0, 0, 0, 5, 6, 7]) :=
  ⟨(replays_iff byteLib .liboqsKem [1, 0, 0, 0, 0, 5, 6, 7]).1 (Or.inl trivial),
    (replays_iff byteLib .seqPqc [1, 0, 0, 0, 0, 5, 6, 7]).2 byteLib_varies⟩

/-- One process that starts with this input, on two systems. -/
theorem replays_seqPqc_fails :
    ¬ ∀ (lib : Libraries) (h : Harness) (data : Bytes), h.Replays lib data := by
  intro hclaim
  have hrun : Harness.seqPqc.llvmFuzzerTestOneInput byteLib =
      runPerInput 8 byteLib.kem.enabled fun _ => seqPqcBody byteLib.kem := rfl
  have hsize : ¬ [0, 0, 0, 0, 0, 0, 0, (0 : UInt8)].length < 8 := by decide
  exact not_replays hrun hsize (by decide) rfl byteLib_varies
    (hclaim byteLib .seqPqc [0, 0, 0, 0, 0, 0, 0, 0])

end Replay
end CMFuzz
