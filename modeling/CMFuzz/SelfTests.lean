import CMFuzz.HarnessVerdicts

/-!
# Self-tests of the liboqs harnesses

Whole processes of the plain builds, which raise no false alarm on sound
schemes, and of the fault builds of `negative_tests.sh`, which report the
assertion they are made for on every input.
-/

namespace CMFuzz
namespace Replay

open BlockModes
open ByteCodec
open Engine
open RandomPrograms

/-! ## Builds of a harness -/

def Harness.buildOneInput (fault : Bool) (lib : Libraries) : Harness → Bytes → Process →
    Execution × Process
  | .liboqsKem => runWithHandle lib.kem.enabled (liboqsKemBuild fault lib.kem)
  | .liboqsSig => runWithHandle lib.sig.enabled (liboqsSigBuild fault lib.sig)
  | .seqPqc => runPerInput 8 lib.kem.enabled fun _ => seqPqcBuild fault lib.kem
  | .compAuthkem =>
      runPerInput 2 (lib.kem.enabled && lib.sig.enabled) (runCaseBuild fault lib)

def Harness.buildAfter (fault : Bool) (lib : Libraries) (h : Harness) (earlier : List Bytes)
    (p : Process) : Process :=
  earlier.foldl (fun p data => (h.buildOneInput fault lib data p).2) p

/-- The oracle `negative_tests.sh` expects from the fault build. -/
def Harness.expectedOracle : Harness → String
  | .liboqsKem => "MR1_correctness"
  | .liboqsSig => "MR3_strong_unforgeability"
  | .seqPqc => "O6-kem-key-confusion"
  | .compAuthkem => "O5-transcript-binding"

def Harness.minSize : Harness → ℕ
  | .liboqsKem => 8
  | .liboqsSig => 8
  | .seqPqc => 8
  | .compAuthkem => 2

theorem buildOneInput_plain (lib : Libraries) (h : Harness) :
    h.buildOneInput false lib = h.llvmFuzzerTestOneInput lib := by
  cases h
  · rfl
  · rfl
  · rfl
  · rfl

/-! ## Sound libraries -/

structure Libraries.Sound (lib : Libraries) (k : SeededKem) (s : SeededSig) : Prop where
  kem_eq : lib.kem = k.oqs
  sig_eq : lib.sig = s.oqs
  kem : k.Ideal
  sig : s.Ideal
  opens : lib.Opens
  kemCoins : 8 ≤ k.keyCoins
  kemSize : k.keyCoins + k.encCoins < 2 ^ 64
  sigCoins : 8 ≤ s.keyCoins
  sigSize : s.keyCoins + s.signCoins < 2 ^ 64

/-- No call fails. -/
structure Total (k : SeededKem) (s : SeededSig) : Prop where
  kemEnabled : k.enabled = true
  sigEnabled : s.enabled = true
  keypair : ∀ d, ∃ pk sk, k.keypair d = some (pk, sk)
  encaps : ∀ e pk, ∃ ct ss, k.encaps e pk = some (ct, ss) ∧ ss ≠ []
  decaps : ∀ ct sk, (k.decaps ct sk).isSome = true
  sigKeypair : ∀ d, ∃ pk sk, s.keypair d = some (pk, sk)
  sign : ∀ e m sk, ∃ sig, s.sign e m sk = some sig ∧ 0 < sig.length

section

variable {lib : Libraries} {k : SeededKem} {s : SeededSig}

theorem kemBuild_quiet (hsound : lib.Sound k s) (mode : UInt8) (sel : UInt32) (tail : Bytes)
    {p : Process} (hp : p.custom = true) :
    ((liboqsKemBuild false k.oqs mode sel tail).run oqsRandombytes p).1.result = .ok () := by
  by_cases hsent : ∃ pk sk ct ss, k.keypair (oqsRandombytes k.keyCoins p).1 = some (pk, sk) ∧
      k.encaps (oqsRandombytes k.encCoins (oqsRandombytes k.keyCoins p).2).1 pk = some (ct, ss)
  · rcases hsent with ⟨pk, sk, ct, ss, hkeys, hsent⟩
    rw [kemBuild_sent hsound.kem false mode sel tail hkeys hsent
      (keyCoins_fresh hsound.kemCoins hsound.kemSize hp)]
    exact if_neg fun h => Bool.false_ne_true h.1
  · apply kemBuild_unsent
    intro pk sk hkeys
    apply Option.eq_none_iff_forall_ne_some.mpr
    rintro ⟨ct, ss⟩ hencaps
    exact hsent ⟨pk, sk, ct, ss, hkeys, hencaps⟩

theorem sigBuild_quiet (hsound : lib.Sound k s) (mode : UInt8) (sel : UInt32) (tail : Bytes)
    {p : Process} (hp : p.custom = true) :
    ((liboqsSigBuild false s.oqs mode sel tail).run oqsRandombytes p).1.result = .ok () := by
  by_cases hsigned : ∃ pk sk sig, s.keypair (oqsRandombytes s.keyCoins p).1 = some (pk, sk) ∧
      s.sign (oqsRandombytes s.signCoins (oqsRandombytes s.keyCoins p).2).1
        (sigMessage tail) sk = some sig
  · rcases hsigned with ⟨pk, sk, sig, hkeys, hsigned⟩
    rw [sigBuild_signed hsound.sig false mode sel tail hkeys hsigned
      (keyCoins_fresh hsound.sigCoins hsound.sigSize hp)]
    exact if_neg fun h => Bool.false_ne_true h.1
  · apply sigBuild_unsigned
    intro pk sk hkeys
    apply Option.eq_none_iff_forall_ne_some.mpr
    intro sig hsig
    exact hsigned ⟨pk, sk, sig, hkeys, hsig⟩

theorem akBuild_quiet (hsound : lib.Sound k s)
    (hsigns : ∀ e m sk, (s.sign e m sk).isSome = true) (rest : Bytes) (p : Process) :
    ((runCaseBuild false lib rest).run oqsRandombytes p).1.result = .ok () := by
  by_cases hsent : ∃ pkR skR pkS skS enc ss,
      k.keypair (akCoins k s p).receiver = some (pkR, skR) ∧
      s.keypair (akCoins k s p).signer = some (pkS, skS) ∧
      k.encaps (akCoins k s p).encapsulation pkR = some (enc, ss)
  · rcases hsent with ⟨pkR, skR, pkS, skS, enc, ss, hkeys, hkeys', hsent⟩
    rcases Option.isSome_iff_exists.mp (hsigns (akCoins k s p).signature (akMsg false enc) skS)
      with ⟨sig, hsigned⟩
    exact akBuild_sent hsound.kem_eq hsound.sig_eq hsound.kem hsound.sig hsound.opens false rest
      hkeys hkeys' hsent hsigned
  · apply akBuild_unsent hsound.kem_eq hsound.sig_eq
    intro pkR skR keys hkeys hkeys'
    apply Option.eq_none_iff_forall_ne_some.mpr
    rintro ⟨enc, ss⟩ hencaps
    exact hsent ⟨pkR, skR, keys.1, keys.2, enc, ss, hkeys, hkeys', hencaps⟩

theorem kemBuild_fires (hsound : lib.Sound k s) (htotal : Total k s) (mode : UInt8)
    (sel : UInt32) (tail : Bytes) {p : Process} (hp : p.custom = true) :
    ((liboqsKemBuild true k.oqs mode sel tail).run oqsRandombytes p).1.result =
      .error (.violation ⟨k.name, "MR1_correctness", "shared secrets differ", false⟩) := by
  rcases htotal.keypair (oqsRandombytes k.keyCoins p).1 with ⟨pk, sk, hkeys⟩
  rcases htotal.encaps (oqsRandombytes k.encCoins (oqsRandombytes k.keyCoins p).2).1 pk with
    ⟨ct, ss, hsent, hss⟩
  rw [kemBuild_sent hsound.kem true mode sel tail hkeys hsent
    (keyCoins_fresh hsound.kemCoins hsound.kemSize hp)]
  exact if_pos ⟨rfl, hss⟩

theorem sigBuild_fires (hsound : lib.Sound k s) (htotal : Total k s) (mode : UInt8)
    (sel : UInt32) (tail : Bytes) {p : Process} (hp : p.custom = true) :
    ((liboqsSigBuild true s.oqs mode sel tail).run oqsRandombytes p).1.result =
      .error (.violation (sufViolation s.name)) := by
  rcases htotal.sigKeypair (oqsRandombytes s.keyCoins p).1 with ⟨pk, sk, hkeys⟩
  rcases htotal.sign (oqsRandombytes s.signCoins (oqsRandombytes s.keyCoins p).2).1
    (sigMessage tail) sk with ⟨sig, hsigned, hlen⟩
  rw [sigBuild_signed hsound.sig true mode sel tail hkeys hsigned
    (keyCoins_fresh hsound.sigCoins hsound.sigSize hp)]
  exact if_pos ⟨rfl, hlen⟩

theorem seqBuild_fires (hsound : lib.Sound k s) (htotal : Total k s) (p : Process) :
    ((seqPqcBuild true k.oqs).run oqsRandombytes p).1.result =
      .error (.violation keyConfusion) := by
  rcases htotal.keypair (oqsRandombytes k.keyCoins p).1 with ⟨pkA, skA, hkeys⟩
  rcases htotal.keypair (oqsRandombytes k.keyCoins (oqsRandombytes k.keyCoins p).2).1 with
    ⟨pkB, skB, hkeys'⟩
  rcases htotal.encaps (oqsRandombytes k.encCoins
    (oqsRandombytes k.keyCoins (oqsRandombytes k.keyCoins p).2).2).1 pkA with ⟨ct, ss, hsent, _⟩
  rw [seqBuild_sent hsound.kem true hkeys hkeys' hsent]
  exact if_pos (Or.inr ⟨rfl, htotal.decaps ct skB⟩)

theorem akBuild_fires (hsound : lib.Sound k s) (htotal : Total k s) (rest : Bytes)
    (p : Process) :
    ((runCaseBuild true lib rest).run oqsRandombytes p).1.result =
      .error (.violation unboundTranscript) := by
  rcases htotal.keypair (akCoins k s p).receiver with ⟨pkR, skR, hkeys⟩
  rcases htotal.sigKeypair (akCoins k s p).signer with ⟨pkS, skS, hkeys'⟩
  rcases htotal.encaps (akCoins k s p).encapsulation pkR with ⟨enc, ss, hsent, _⟩
  rcases htotal.sign (akCoins k s p).signature (akMsg true enc) skS with ⟨sig, hsigned, _⟩
  exact akBuild_sent hsound.kem_eq hsound.sig_eq hsound.kem hsound.sig hsound.opens true rest
    hkeys hkeys' hsent hsigned

end

/-! ## Inputs -/

theorem runWithHandle_result {enabled : Bool} {body : UInt8 → UInt32 → Bytes → Exec Unit}
    {data : Bytes} {p : Process} (hp : p.Initialised enabled) :
    ∃ q : Process, q.custom = true ∧
      (runWithHandle enabled body data p).1.result =
        if enabled = false then .error .exited
        else if data.length < 8 then .ok ()
        else ((body (parse data).mode (parse data).sel (parse data).tail).run
          oqsRandombytes q).1.result := by
  rcases ensureInit_flags hp with ⟨hcustom, hhandle⟩
  have hseeded : ∀ buf, ((ensureInit enabled p).seed buf).custom = true := fun _ => hcustom
  refine ⟨(ensureInit enabled p).seed (parse data).tail, hseeded _, ?_⟩
  rw [runWithHandle]
  dsimp only
  rw [hhandle]
  by_cases henabled : enabled = false
  · rw [if_pos henabled, if_pos henabled]
  · rw [if_neg henabled, if_neg henabled]
    by_cases hsize : data.length < 8
    · rw [if_pos hsize, if_pos hsize]
      rfl
    · rw [if_neg hsize, if_neg hsize]

theorem runPerInput_result (minSize : ℕ) (enabled : Bool) (body : Bytes → Exec Unit)
    (data : Bytes) (p : Process) :
    (runPerInput minSize enabled body data p).1.result =
      if data.length < minSize ∨ enabled = false then .ok ()
      else ((body (cmfRest (cmfReaderInit data)).1).run oqsRandombytes (p.seed data)).1.result := by
  rw [runPerInput]
  by_cases hsize : data.length < minSize
  · rw [if_pos hsize, if_pos (Or.inl hsize)]
    rfl
  · rw [if_neg hsize]
    dsimp only
    by_cases henabled : enabled = false
    · rw [if_pos henabled, if_pos (Or.inr henabled)]
      rfl
    · rw [if_neg henabled, if_neg (not_or.mpr ⟨hsize, henabled⟩)]

theorem buildAfter_initialised {fault : Bool} {lib : Libraries} {h : Harness} {enabled : Bool}
    {body : UInt8 → UInt32 → Bytes → Exec Unit}
    (hrun : h.buildOneInput fault lib = runWithHandle enabled body) (earlier : List Bytes)
    {p : Process} (hp : p.Initialised enabled) :
    (h.buildAfter fault lib earlier p).Initialised enabled := by
  induction earlier generalizing p with
  | nil => exact hp
  | cons data rest ih =>
      have hnext : (h.buildOneInput fault lib data p).2.Initialised enabled := by
        rw [hrun]
        exact runWithHandle_initialised hp
      exact ih hnext

/-! ## An example -/

/-- Keys are the coins, and secrets and signatures carry the key they are for. -/
def coinKem : SeededKem where
  name := "ML-KEM-768"
  enabled := true
  lengthCiphertext := 1
  keyCoins := 8
  encCoins := 1
  keypair := fun d => some (d, d)
  encaps := fun e pk => some ([e.headD 0], pk ++ [e.headD 0])
  decaps := fun ct sk => some (sk ++ ct)

def coinSig : SeededSig where
  name := "ML-DSA-65"
  enabled := true
  lengthSignature := 64
  keyCoins := 8
  signCoins := 1
  keypair := fun d => some (d, d)
  sign := fun _ m sk => some (1 :: (sk ++ m))
  verify := fun m sig pk => sig = 1 :: (pk ++ m)

def coinLib : Libraries where
  kem := coinKem.oqs
  sig := coinSig.oqs
  hkdf32 := fun ss => ss
  gcmSeal := fun k m => k ++ m
  gcmOpen := fun k ct => if ct.take k.length = k then some (ct.drop k.length) else none

theorem coinKem_sent {d pk sk ct ss : Bytes} (hss : coinKem.Sent d pk sk ct ss) :
    pk = d ∧ sk = d ∧ ct.length = 1 ∧ ss = d ++ ct := by
  rcases hss with ⟨hkeys, e, hsent⟩
  cases hkeys
  cases hsent
  exact ⟨rfl, rfl, rfl, rfl⟩

theorem coinKem_ideal : coinKem.Ideal where
  length_pos := Nat.one_pos
  length_eq hss := (coinKem_sent hss).2.2.1
  honest hss := by
    rcases coinKem_sent hss with ⟨rfl, rfl, _, rfl⟩
    rfl
  mutated hss hne := by
    rcases coinKem_sent hss with ⟨rfl, rfl, _, rfl⟩
    exact fun h => hne (List.append_cancel_left (Option.some.inj h))
  foreign hss hkeys hne := by
    rcases coinKem_sent hss with ⟨rfl, rfl, _, rfl⟩
    cases hkeys
    exact fun h => hne (List.append_cancel_right (Option.some.inj h))

theorem coinSig_signed {d pk sk m sig : Bytes} (hs : coinSig.Signed d pk sk m sig) :
    pk = d ∧ sig = 1 :: (d ++ m) := by
  rcases hs with ⟨hkeys, e, hsigned⟩
  cases hkeys
  cases hsigned
  exact ⟨rfl, rfl⟩

theorem coinSig_ideal : coinSig.Ideal where
  honest hs := by
    rcases coinSig_signed hs with ⟨rfl, rfl⟩
    exact decide_eq_true rfl
  otherMessage hs hne := by
    rcases coinSig_signed hs with ⟨rfl, rfl⟩
    exact decide_eq_false fun h => hne (List.append_cancel_left (List.cons.inj h).2).symm
  mutated hs hne := by
    rcases coinSig_signed hs with ⟨rfl, rfl⟩
    exact decide_eq_false hne
  foreign hs hkeys hne := by
    rcases coinSig_signed hs with ⟨rfl, rfl⟩
    cases hkeys
    exact decide_eq_false fun h => hne (List.append_cancel_right (List.cons.inj h).2).symm

theorem coinLib_sound : coinLib.Sound coinKem coinSig where
  kem_eq := rfl
  sig_eq := rfl
  kem := coinKem_ideal
  sig := coinSig_ideal
  opens key m := by
    show (if (key ++ m).take key.length = key then some ((key ++ m).drop key.length) else none) = _
    rw [List.take_left, if_pos rfl, List.drop_left]
  kemCoins := le_rfl
  kemSize := by decide
  sigCoins := le_rfl
  sigSize := by decide

theorem coinTotal : Total coinKem coinSig where
  kemEnabled := rfl
  sigEnabled := rfl
  keypair d := ⟨d, d, rfl⟩
  encaps _ pk := ⟨_, _, rfl, List.append_ne_nil_of_right_ne_nil pk (List.cons_ne_nil _ _)⟩
  decaps _ _ := rfl
  sigKeypair d := ⟨d, d, rfl⟩
  sign _ _ _ := ⟨_, rfl, Nat.succ_pos _⟩

/-! ## Whole processes -/

theorem quiet_of_handle {enabled : Bool} {body : UInt8 → UInt32 → Bytes → Exec Unit}
    (hbody : ∀ mode sel tail (q : Process), q.custom = true →
      ((body mode sel tail).run oqsRandombytes q).1.result = .ok ())
    (data : Bytes) {p : Process} (hp : p.Initialised enabled) (c : Check) :
    (runWithHandle enabled body data p).1.result ≠ .error (.violation c) := by
  rcases runWithHandle_result hp with ⟨q, hq, hresult⟩
  rw [hresult]
  split
  · exact fun h => nomatch h
  · split
    · exact fun h => nomatch h
    · rw [hbody _ _ _ q hq]
      exact fun h => nomatch h

theorem fires_of_handle {body : UInt8 → UInt32 → Bytes → Exec Unit} {c : Check}
    (hbody : ∀ mode sel tail (q : Process), q.custom = true →
      ((body mode sel tail).run oqsRandombytes q).1.result = .error (.violation c))
    (data : Bytes) {p : Process} (hp : p.Initialised true) :
    (runWithHandle true body data p).1.result =
      if data.length < 8 then .ok () else .error (.violation c) := by
  rcases runWithHandle_result hp with ⟨q, hq, hresult⟩
  rw [hresult, if_neg (Ne.symm Bool.false_ne_true), hbody _ _ _ q hq]

theorem fires_per_input {minSize : ℕ} {body : Bytes → Exec Unit} {c : Check}
    (hbody : ∀ rest q, ((body rest).run oqsRandombytes q).1.result = .error (.violation c))
    (data : Bytes) (p : Process) :
    (runPerInput minSize true body data p).1.result =
      if data.length < minSize then .ok () else .error (.violation c) := by
  rw [runPerInput_result, hbody]
  simp only [Bool.true_eq_false, or_false]

/-- What the fault build reports. -/
def Harness.selfTest (k : SeededKem) (s : SeededSig) : Harness → Check
  | .liboqsKem => ⟨k.name, "MR1_correctness", "shared secrets differ", false⟩
  | .liboqsSig => sufViolation s.name
  | .seqPqc => keyConfusion
  | .compAuthkem => unboundTranscript

theorem selfTest_oracle (k : SeededKem) (s : SeededSig) (h : Harness) :
    (h.selfTest k s).oracle = h.expectedOracle := by
  cases h
  · rfl
  · rfl
  · rfl
  · rfl

theorem faultBuild_result {lib : Libraries} {k : SeededKem} {s : SeededSig}
    (hsound : lib.Sound k s) (htotal : Total k s) (h : Harness) (earlier : List Bytes)
    (os : ℕ → UInt8) (data : Bytes) :
    (h.buildOneInput true lib data (h.buildAfter true lib earlier (.start os))).1.result =
      if data.length < h.minSize then .ok () else .error (.violation (h.selfTest k s)) := by
  have hkem : k.oqs.enabled = true := htotal.kemEnabled
  have hsig : s.oqs.enabled = true := htotal.sigEnabled
  cases h with
  | liboqsKem =>
      have hrun : Harness.liboqsKem.buildOneInput true lib =
          runWithHandle true (liboqsKemBuild true k.oqs) := by
        rw [Harness.buildOneInput, hsound.kem_eq, hkem]
      rw [hrun]
      apply fires_of_handle
      · exact fun mode sel tail q hq => kemBuild_fires hsound htotal mode sel tail hq
      · exact buildAfter_initialised hrun earlier (start_initialised _ os)
  | liboqsSig =>
      have hrun : Harness.liboqsSig.buildOneInput true lib =
          runWithHandle true (liboqsSigBuild true s.oqs) := by
        rw [Harness.buildOneInput, hsound.sig_eq, hsig]
      rw [hrun]
      apply fires_of_handle
      · exact fun mode sel tail q hq => sigBuild_fires hsound htotal mode sel tail hq
      · exact buildAfter_initialised hrun earlier (start_initialised _ os)
  | seqPqc =>
      have hrun : Harness.seqPqc.buildOneInput true lib =
          runPerInput 8 true fun _ => seqPqcBuild true k.oqs := by
        rw [Harness.buildOneInput, hsound.kem_eq, hkem]
      rw [hrun]
      exact fires_per_input (fun _ q => seqBuild_fires hsound htotal q) data _
  | compAuthkem =>
      have hrun : Harness.compAuthkem.buildOneInput true lib =
          runPerInput 2 true (runCaseBuild true lib) := by
        rw [Harness.buildOneInput, hsound.kem_eq, hsound.sig_eq, hkem, hsig]
        rfl
      rw [hrun]
      exact fires_per_input (akBuild_fires hsound htotal) data _

/-- `n` bytes of the system's source, from the byte at `i` on. -/
def Process.osBytes (p : Process) (i n : ℕ) : Bytes := (List.range n).map fun j => p.os (i + j)

theorem oqsRandombytes_os (n : ℕ) {p : Process} (hp : p.custom = false) :
    oqsRandombytes n p = (p.osBytes 0 n, { p with os := fun i => p.os (n + i) }) := by
  rw [oqsRandombytes, if_neg (by rw [hp]; exact Bool.false_ne_true), Process.osBytes]
  simp only [Nat.zero_add]
  rfl

theorem seqPqc_custom (fault : Bool) (lib : Libraries) (earlier : List Bytes) {p : Process}
    (hp : p.custom = false) : (Harness.seqPqc.buildAfter fault lib earlier p).custom = false := by
  induction earlier generalizing p with
  | nil => exact hp
  | cons data rest ih =>
      apply ih
      show (runPerInput 8 lib.kem.enabled (fun _ => seqPqcBuild fault lib.kem) data p).2.custom =
        false
      rw [runPerInput]
      split
      · exact hp
      · dsimp only
        split
        · exact hp
        · have hkept : ∀ n (q : Process), q.custom = false →
              (oqsRandombytes n q).2.custom = false :=
            fun n q hq => (oqsRandombytes_flags n q).1.trans hq
          exact Program.run_preserves (I := fun q : Process => q.custom = false) hkept _ hp

theorem osBytes_next (n i m : ℕ) {p : Process} (hp : p.custom = false) :
    (oqsRandombytes n p).2.osBytes i m = p.osBytes (n + i) m := by
  simp only [oqsRandombytes_os n hp, Process.osBytes, Nat.add_assoc]

/-- The source of the system gives both receivers the same coins, and a secret
is sent. -/
structure SeededKem.KeysRepeat (k : SeededKem) (p : Process) : Prop where
  coins : p.osBytes k.keyCoins k.keyCoins = p.osBytes 0 k.keyCoins
  sent : ∃ pk sk, k.keypair (p.osBytes 0 k.keyCoins) = some (pk, sk) ∧
    (k.encaps (p.osBytes (k.keyCoins + k.keyCoins) k.encCoins) pk).isSome = true

theorem seqBuild_plain {k : SeededKem} (hideal : k.Ideal) {p : Process} (hp : p.custom = false) :
    (k.KeysRepeat p → ((seqPqcBuild false k.oqs).run oqsRandombytes p).1.result =
      .error (.violation keyConfusion)) ∧
    (¬ k.KeysRepeat p →
      ((seqPqcBuild false k.oqs).run oqsRandombytes p).1.result = .ok ()) := by
  have hp' : (oqsRandombytes k.keyCoins p).2.custom = false :=
    (oqsRandombytes_flags _ p).1.trans hp
  have hp'' : (oqsRandombytes k.keyCoins (oqsRandombytes k.keyCoins p).2).2.custom = false :=
    (oqsRandombytes_flags _ _).1.trans hp'
  have hfirst : (oqsRandombytes k.keyCoins p).1 = p.osBytes 0 k.keyCoins := by
    rw [oqsRandombytes_os _ hp]
  have hsecond : (oqsRandombytes k.keyCoins (oqsRandombytes k.keyCoins p).2).1 =
      p.osBytes k.keyCoins k.keyCoins := by
    rw [oqsRandombytes_os _ hp', osBytes_next _ _ _ hp, Nat.add_zero]
  have hthird : (oqsRandombytes k.encCoins
      (oqsRandombytes k.keyCoins (oqsRandombytes k.keyCoins p).2).2).1 =
      p.osBytes (k.keyCoins + k.keyCoins) k.encCoins := by
    rw [oqsRandombytes_os _ hp'', osBytes_next _ _ _ hp', osBytes_next _ _ _ hp, Nat.add_zero]
  constructor
  · rintro ⟨hcoins, pk, sk, hkeys, hsent⟩
    rcases Option.isSome_iff_exists.mp hsent with ⟨⟨ct, ss⟩, hencaps⟩
    rw [seqBuild_sent hideal false (by rw [hfirst]; exact hkeys)
      (by rw [hsecond, hcoins]; exact hkeys) (by rw [hthird]; exact hencaps)]
    exact if_pos (Or.inl (by rw [hfirst, hsecond, hcoins]))
  · intro hdiffer
    by_cases hsent : ∃ pkA skA pkB skB ct ss,
        k.keypair (oqsRandombytes k.keyCoins p).1 = some (pkA, skA) ∧
        k.keypair (oqsRandombytes k.keyCoins (oqsRandombytes k.keyCoins p).2).1 =
          some (pkB, skB) ∧
        k.encaps (oqsRandombytes k.encCoins
          (oqsRandombytes k.keyCoins (oqsRandombytes k.keyCoins p).2).2).1 pkA = some (ct, ss)
    · rcases hsent with ⟨pkA, skA, pkB, skB, ct, ss, hkeys, hkeys', hencaps⟩
      rw [seqBuild_sent hideal false hkeys hkeys' hencaps]
      apply if_neg
      rintro (hsame | ⟨hfault, _⟩)
      · rw [hfirst, hsecond] at hsame
        rw [hfirst] at hkeys
        rw [hthird] at hencaps
        exact hdiffer ⟨hsame, pkA, skA, hkeys, Option.isSome_iff_exists.mpr ⟨_, hencaps⟩⟩
      · exact Bool.false_ne_true hfault
    · apply seqBuild_unsent
      intro pkA skA keys hkeys hkeys'
      apply Option.eq_none_iff_forall_ne_some.mpr
      rintro ⟨ct, ss⟩ hencaps
      exact hsent ⟨pkA, skA, keys.1, keys.2, ct, ss, hkeys, hkeys', hencaps⟩

end Replay
end CMFuzz
