import CMFuzz.HarnessVerdicts
import CMFuzz.ReaderRuns

/-!
# Key schedules

`comp_kdfchain_harness`, a ratchet whose keys seal one message each, and the
X25519 and Ed25519 backend of `comp_authkem_harness`.  HKDF, AES-256-GCM and the
curves of OpenSSL are functions that the harnesses call.
-/

namespace CMFuzz
namespace KeySchedules

open BlockModes
open ByteCodec
open Engine
open SplitMix
open Replay (akMsg)

/-- `uint8_t [32]`. -/
abbrev Key := {k : Bytes // k.length = 32}

structure Library where
  hkdf32 : Bytes → Key
  gcmSeal : Key → Bytes → Bytes
  gcmOpen : Key → Bytes → Option Bytes

/-- AES-256-GCM that opens under the sealing key alone. -/
structure Library.Exact (lib : Library) : Prop where
  opens : ∀ k m, lib.gcmOpen k (lib.gcmSeal k m) = some m
  foreign : ∀ k k' m, k' ≠ k → lib.gcmOpen k' (lib.gcmSeal k m) = none

/-! ## The chain -/

def nChain : ℕ := 4

/-- `keys[i]`.  With `CMF_FAULT_KDF` the chain does not advance. -/
def chainKey (lib : Library) (fault : Bool) (ikm : Bytes) : ℕ → Key
  | 0 => lib.hkdf32 ikm
  | i + 1 =>
      if fault then chainKey lib fault ikm i else lib.hkdf32 (chainKey lib fault ikm i).1

def chainAlg : String := "KDF-chain(HKDF+AES-GCM)"

/-- `msg[i]`: random bytes, made distinct by the index. -/
def chainMessages : ℕ → ℕ → Draw (List Bytes)
  | _, 0 => pure []
  | i, k + 1 => do
      let m ← cmfRandombytes 16
      let rest ← chainMessages (i + 1) k
      pure (m.set 0 (UInt8.ofNat i) :: rest)

def roundtripCheck (lib : Library) (keys : ℕ → Key) (msg : List Bytes) (i : ℕ) : Check :=
  let pt := lib.gcmOpen (keys i) (lib.gcmSeal (keys i) (msg.getD i []))
  ⟨chainAlg, "O5-roundtrip", "message did not open under its own chain key",
    pt.any fun pt => pt.take 16 = (msg.getD i []).take 16⟩

def separationCheck (lib : Library) (keys : ℕ → Key) (msg : List Bytes) (i j : ℕ) : Check :=
  let pt := lib.gcmOpen (keys j) (lib.gcmSeal (keys i) (msg.getD i []))
  ⟨chainAlg, "O5-key-separation", "a chain key decrypted another step's message", pt.isNone⟩

def chainChecks (lib : Library) (keys : ℕ → Key) (msg : List Bytes) (i j : ℕ) : List Check :=
  (List.range nChain).map (roundtripCheck lib keys msg) ++
    if i ≠ j then [separationCheck lib keys msg i j] else []

def chainRun (lib : Library) (fault : Bool) (r : Reader) : Draw (List Check) := do
  let ikm ← cmfRandombytes 32
  let msg ← chainMessages 0 nChain
  let (i, r) := cmfU8 r
  let (j, _) := cmfU8 r
  pure (chainChecks lib (chainKey lib fault ikm) msg (i.toNat % nChain) (j.toNat % nChain))

/-- `LLVMFuzzerTestOneInput` of `comp_kdfchain_harness`. -/
def kdfChainTestOneInput (lib : Library) (fault : Bool) (data : Bytes) : List Check :=
  if data.length < 4 then []
  else (chainRun lib fault (cmfReaderInit data) (cmfPrngSeed data)).1

/-- `ikm`: the first bytes of the generator. -/
def ikmOf (data : Bytes) : Bytes := (cmfRandombytes 32 (cmfPrngSeed data)).1

/-- The step an input chooses with its byte at `n`. -/
def stepOf (data : Bytes) (n : ℕ) : ℕ := (data.getD n 0).toNat % nChain

theorem chainKey_fault (lib : Library) (ikm : Bytes) (i : ℕ) :
    chainKey lib true ikm i = lib.hkdf32 ikm := by
  induction i with
  | zero => rfl
  | succ i ih =>
      rw [chainKey, if_pos rfl]
      exact ih

theorem chainKey_plain (lib : Library) (ikm : Bytes) (i : ℕ) :
    chainKey lib false ikm i = (fun k : Key => lib.hkdf32 k.1)^[i] (lib.hkdf32 ikm) := by
  induction i with
  | zero => rfl
  | succ i ih =>
      rw [chainKey, if_neg Bool.false_ne_true, ih]
      exact (Function.iterate_succ_apply' (fun k : Key => lib.hkdf32 k.1) i _).symm

/-- Two steps with one key run through the same keys from there on. -/
theorem chainKey_cycle {lib : Library} {ikm : Bytes} {i j : ℕ}
    (hsame : chainKey lib false ikm i = chainKey lib false ikm j) (n : ℕ) :
    chainKey lib false ikm (i + n) = chainKey lib false ikm (j + n) := by
  rw [chainKey_plain, chainKey_plain] at hsame
  rw [chainKey_plain, chainKey_plain, Nat.add_comm i n, Nat.add_comm j n,
    Function.iterate_add_apply, Function.iterate_add_apply, hsame]

section

variable {lib : Library} (hexact : lib.Exact)

include hexact

theorem roundtripCheck_holds (keys : ℕ → Key) (msg : List Bytes) (i : ℕ) :
    (roundtripCheck lib keys msg i).holds = true := by
  rw [roundtripCheck, hexact.opens]
  exact decide_eq_true rfl

theorem separationCheck_holds_iff (keys : ℕ → Key) (msg : List Bytes) (i j : ℕ) :
    (separationCheck lib keys msg i j).holds = true ↔ keys i ≠ keys j := by
  rw [separationCheck]
  constructor
  · intro hnone hsame
    rw [hsame, hexact.opens] at hnone
    exact Bool.false_ne_true hnone
  · intro hne
    rw [hexact.foreign _ _ _ (Ne.symm hne)]
    rfl

theorem violation_chainChecks (keys : ℕ → Key) (msg : List Bytes) (i j : ℕ) :
    violation (chainChecks lib keys msg i j) =
      if i ≠ j ∧ keys i = keys j then
        some ⟨chainAlg, "O5-key-separation", "a chain key decrypted another step's message", false⟩
      else none := by
  have hopen : ((List.range nChain).map (roundtripCheck lib keys msg)).find?
      (fun c => !c.holds) = none := by
    apply List.find?_eq_none.mpr
    intro c hc
    rcases List.mem_map.mp hc with ⟨n, _, rfl⟩
    rw [roundtripCheck_holds hexact]
    exact Bool.false_ne_true
  rw [violation, chainChecks, List.find?_append, hopen, Option.none_or]
  by_cases hij : i = j
  · rw [if_neg (not_not_intro hij), if_neg fun h => h.1 hij]
    rfl
  · rw [if_pos hij]
    by_cases hsame : keys i = keys j
    · rw [if_pos ⟨hij, hsame⟩, separationCheck, hsame, hexact.opens]
      rfl
    · rw [if_neg fun h => hsame h.2, List.find?_cons,
        (separationCheck_holds_iff hexact keys msg i j).mpr hsame]
      rfl

end

theorem kdfChain_violation {lib : Library} (hexact : lib.Exact) (fault : Bool) (data : Bytes) :
    violation (kdfChainTestOneInput lib fault data) =
      if 4 ≤ data.length ∧ stepOf data 0 ≠ stepOf data 1 ∧
          chainKey lib fault (ikmOf data) (stepOf data 0) =
            chainKey lib fault (ikmOf data) (stepOf data 1) then
        some ⟨chainAlg, "O5-key-separation", "a chain key decrypted another step's message", false⟩
      else none := by
  rw [kdfChainTestOneInput]
  by_cases hsize : data.length < 4
  · rw [if_pos hsize, if_neg fun h => by omega]
    rfl
  · rcases two_reads (show 2 ≤ data.length by omega) with ⟨hfirst, hsecond⟩
    rw [if_neg hsize]
    simp only [chainRun, hfirst, hsecond]
    refine (violation_chainChecks hexact _ _ _ _).trans ?_
    exact if_congr (by simp only [not_lt.mp hsize, true_and]; exact Iff.rfl) rfl rfl

/-- The ratchet harness reports key separation alone.  The plain build does so
exactly where the two chosen steps have one key, and the chain then runs through
one cycle from there on; the build that does not advance does so whenever the
steps differ. -/
theorem kdf_chain_exact {lib : Library} (hexact : lib.Exact) (fault : Bool) (data : Bytes) :
    (∀ c, violation (kdfChainTestOneInput lib fault data) = some c →
      c.oracle = "O5-key-separation") ∧
    ((violation (kdfChainTestOneInput lib true data)).isSome = true ↔
      4 ≤ data.length ∧ stepOf data 0 ≠ stepOf data 1) ∧
    ((violation (kdfChainTestOneInput lib false data)).isSome = true ↔
      4 ≤ data.length ∧ stepOf data 0 ≠ stepOf data 1 ∧
        ∀ n, chainKey lib false (ikmOf data) (stepOf data 0 + n) =
          chainKey lib false (ikmOf data) (stepOf data 1 + n)) := by
  refine ⟨?_, ?_, ?_⟩
  · intro c hc
    rw [kdfChain_violation hexact] at hc
    split at hc
    · rw [← Option.some.inj hc]
    · exact nomatch hc
  · rw [kdfChain_violation hexact, chainKey_fault, chainKey_fault]
    split
    · rename_i h
      exact iff_of_true rfl ⟨h.1, h.2.1⟩
    · rename_i h
      exact iff_of_false Bool.false_ne_true fun h' => h ⟨h'.1, h'.2, rfl⟩
  · rw [kdfChain_violation hexact]
    split
    · rename_i h
      exact iff_of_true rfl ⟨h.1, h.2.1, chainKey_cycle h.2.2⟩
    · rename_i h
      exact iff_of_false Bool.false_ne_true fun h' => h ⟨h'.1, h'.2.1, h'.2.2 0⟩

/-- Sealing puts the key in front. -/
def prefixLib : Library where
  hkdf32 := fun ikm => ⟨(ikm ++ List.replicate 32 0).take 32, by
    rw [List.length_take, List.length_append, List.length_replicate]
    omega⟩
  gcmSeal := fun k m => k.1 ++ m
  gcmOpen := fun k ct => if ct.take 32 = k.1 then some (ct.drop 32) else none

theorem prefixLib_exact : prefixLib.Exact where
  opens k m := by
    show (if (k.1 ++ m).take 32 = k.1 then some ((k.1 ++ m).drop 32) else none) = some m
    rw [List.take_left' k.2, List.drop_left' k.2, if_pos rfl]
  foreign k k' m hne := by
    show (if (k.1 ++ m).take 32 = k'.1 then some ((k.1 ++ m).drop 32) else none) = none
    rw [List.take_left' k.2, if_neg fun h => hne (Subtype.ext h.symm)]

theorem kdf_chain_exact_prefix :
    (violation (kdfChainTestOneInput prefixLib true [0, 5, 7, 7])).isSome = true :=
  (kdf_chain_exact prefixLib_exact true [0, 5, 7, 7]).2.1.mpr (by decide)

/-! ## X25519 and Ed25519 -/

/-- The curves, over the keys that `EVP_PKEY_Q_keygen` returns. -/
structure Curves (Pkey : Type) where
  x25519Pub : Pkey → Key
  x25519Ecdh : Pkey → Key → Option Key
  edSign : Pkey → Bytes → Bytes
  edVerify : Pkey → Bytes → Bytes → Bool

structure Curves.Exact {Pkey : Type} (c : Curves Pkey) : Prop where
  agree : ∀ a b ss, c.x25519Ecdh a (c.x25519Pub b) = some ss →
    c.x25519Ecdh b (c.x25519Pub a) = some ss
  honest : ∀ sk m, c.edVerify sk m (c.edSign sk m) = true
  bound : ∀ sk m m', m' ≠ m → c.edVerify sk m' (c.edSign sk m) = false

def classicalName : String := "AuthKEM(X25519+Ed25519)"

/-- The assertions of `run_case` with `CMF_AK_PQC` 0. -/
def classicalChecks {Pkey : Type} (lib : Library) (c : Curves Pkey) (fault : Bool)
    (skR eph skS : Pkey) (rest : Bytes) : List Check :=
  let pkR := c.x25519Pub skR
  let enc := c.x25519Pub eph
  match c.x25519Ecdh eph pkR with
  | none => []
  | some ssS =>
      let sig := c.edSign skS (akMsg fault enc.1)
      let signed : Check := ⟨classicalName, "O5-roundtrip", "signature over enc failed to verify",
        c.edVerify skS (akMsg fault enc.1) sig⟩
      let record : List Check := match c.x25519Ecdh skR enc with
        | none => []
        | some ssR =>
            let m := rest.take 1024
            let pt := lib.gcmOpen (lib.hkdf32 ssR.1) (lib.gcmSeal (lib.hkdf32 ssS.1) m)
            [⟨classicalName, "O5-roundtrip", "AEAD record mismatch",
              pt.any fun pt => pt.take m.length = m⟩]
      let bound : Check := ⟨classicalName, "O5-transcript-binding",
        "signature accepted a swapped encapsulation",
        !c.edVerify skS (akMsg fault (enc.1.modify 0 (· ^^^ 0x01))) sig⟩
      signed :: record ++ [bound]

/-- `LLVMFuzzerTestOneInput` of `comp_authkem_harness` with `CMF_AK_PQC` 0 and
the keys that OpenSSL generates for this input. -/
def classicalTestOneInput {Pkey : Type} (lib : Library) (c : Curves Pkey) (fault : Bool)
    (keys : Option (Pkey × Pkey × Pkey)) (data : Bytes) : List Check :=
  if data.length < 2 then []
  else match keys with
    | none => []
    | some (skR, eph, skS) =>
        classicalChecks lib c fault skR eph skS (cmfRest (cmfReaderInit data)).1

theorem violation_classicalChecks {Pkey : Type} {lib : Library} (hexact : lib.Exact)
    {c : Curves Pkey} (hcurves : c.Exact) (fault : Bool) (skR eph skS : Pkey) (rest : Bytes) :
    violation (classicalChecks lib c fault skR eph skS rest) =
      if fault = true ∧ (c.x25519Ecdh eph (c.x25519Pub skR)).isSome = true then
        some ⟨classicalName, "O5-transcript-binding",
          "signature accepted a swapped encapsulation", false⟩
      else none := by
  rw [classicalChecks]
  cases hshared : c.x25519Ecdh eph (c.x25519Pub skR) with
  | none =>
      rw [if_neg fun h => Bool.false_ne_true h.2]
      rfl
  | some ss =>
      have hback := hcurves.agree eph skR ss hshared
      simp only [hback, hexact.opens, hcurves.honest, violation]
      cases fault with
      | false =>
          have hindex : 0 < (c.x25519Pub eph).1.length := by
            rw [(c.x25519Pub eph).2]
            exact Nat.succ_pos _
          have hother : akMsg false ((c.x25519Pub eph).1.modify 0 (· ^^^ 0x01)) ≠
              akMsg false (c.x25519Pub eph).1 := modify_xor_ne hindex (by decide)
          rw [hcurves.bound _ _ _ hother, if_neg fun h => Bool.false_ne_true h.1]
          simp
      | true =>
          have hsame : akMsg true ((c.x25519Pub eph).1.modify 0 (· ^^^ 0x01)) =
              akMsg true (c.x25519Pub eph).1 := rfl
          rw [hsame, hcurves.honest, if_pos ⟨rfl, rfl⟩]
          simp

/-- All keys are generated and the sender agrees on a secret. -/
def shares {Pkey : Type} (c : Curves Pkey) (keys : Option (Pkey × Pkey × Pkey)) : Bool :=
  keys.any fun (skR, eph, _) => (c.x25519Ecdh eph (c.x25519Pub skR)).isSome

theorem classical_violation {Pkey : Type} {lib : Library} (hexact : lib.Exact)
    {c : Curves Pkey} (hcurves : c.Exact) (fault : Bool) (keys : Option (Pkey × Pkey × Pkey))
    (data : Bytes) :
    violation (classicalTestOneInput lib c fault keys data) =
      if fault = true ∧ 2 ≤ data.length ∧ shares c keys = true then
        some ⟨classicalName, "O5-transcript-binding",
          "signature accepted a swapped encapsulation", false⟩
      else none := by
  rw [classicalTestOneInput.eq_def]
  by_cases hsize : data.length < 2
  · rw [if_pos hsize, if_neg fun h => by omega]
    rfl
  · rw [if_neg hsize]
    rcases keys with _ | ⟨skR, eph, skS⟩
    · rw [if_neg fun h => Bool.false_ne_true h.2.2]
      rfl
    · refine (violation_classicalChecks hexact hcurves fault skR eph skS _).trans ?_
      apply if_congr _ rfl rfl
      exact and_congr_right fun _ => ⟨fun h => ⟨not_lt.mp hsize, h⟩, fun h => h.2⟩

/-- The classical backend reports nothing on exact curves, whatever keys are
generated.  With `CMF_FAULT_AK` it reports the unbound transcript on every input
it does not turn away and for which the sender agrees on a secret. -/
theorem classical_authkem_exact {Pkey : Type} {lib : Library} (hexact : lib.Exact)
    {c : Curves Pkey} (hcurves : c.Exact) (keys : Option (Pkey × Pkey × Pkey)) (data : Bytes) :
    violation (classicalTestOneInput lib c false keys data) = none ∧
    (∀ check, violation (classicalTestOneInput lib c true keys data) = some check →
      check.oracle = "O5-transcript-binding") ∧
    ((violation (classicalTestOneInput lib c true keys data)).isSome = true ↔
      2 ≤ data.length ∧ shares c keys = true) := by
  rw [classical_violation hexact hcurves, classical_violation hexact hcurves]
  refine ⟨if_neg fun h => Bool.false_ne_true h.1, ?_, ?_⟩
  · intro check hcheck
    split at hcheck
    · rw [← Option.some.inj hcheck]
    · exact nomatch hcheck
  · split
    · rename_i h
      exact iff_of_true rfl h.2
    · rename_i h
      exact iff_of_false Bool.false_ne_true fun h' => h ⟨rfl, h'⟩

/-- Keys are factors, and a signature shows the key and the message. -/
def factorCurves : Curves UInt8 where
  x25519Pub := fun a => ⟨List.replicate 32 a, List.length_replicate⟩
  x25519Ecdh := fun a p => some ⟨List.replicate 32 (a * p.1.headD 0), List.length_replicate⟩
  edSign := fun sk m => sk :: m
  edVerify := fun sk m sig => sig = sk :: m

theorem factorCurves_exact : factorCurves.Exact where
  agree a b ss hshared := by
    rw [← hshared]
    show some _ = some _
    simp only [factorCurves, List.replicate_succ, List.headD_cons, UInt8.mul_comm b a]
  honest _ _ := decide_eq_true rfl
  bound _ _ _ hne := decide_eq_false fun h => hne (List.cons.inj h).2.symm

theorem classical_authkem_exact_factors :
    (violation (classicalTestOneInput prefixLib factorCurves true (some (3, 5, 7)) [1, 2])).isSome =
      true :=
  (classical_authkem_exact prefixLib_exact factorCurves_exact (some (3, 5, 7)) [1, 2]).2.2.mpr
    ⟨by decide, rfl⟩

end KeySchedules
end CMFuzz
