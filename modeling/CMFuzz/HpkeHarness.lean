import CMFuzz.FuzzEngine

/-!
# The HPKE harness

`comp_hpke_harness`: a KEM, HKDF-SHA256 and AES-256-GCM chained the HPKE way,
for both KEM backends.  A return before the assertions is a run that passes,
so the first question is which runs reach them; the second, whether an
assertion can fail although every primitive is right.
-/

namespace CMFuzz
namespace Hpke

open ByteCodec
open Engine

/-! ## Backends and libraries -/

inductive Backend where
  | x25519
  | mlKem768
  deriving DecidableEq, Repr

namespace Backend

def kemName : Backend → String
  | .x25519 => "HPKE(X25519+HKDF+AES-GCM)"
  | .mlKem768 => "HPKE(ML-KEM-768+HKDF+AES-GCM)"

def encLen : Backend → ℕ
  | .x25519 => 32
  | .mlKem768 => 1088

def ssLen : Backend → ℕ
  | .x25519 => 32
  | .mlKem768 => 32

theorem encLen_pos (b : Backend) : 0 < b.encLen := by
  cases b with
  | x25519 => decide
  | mlKem768 => decide

/-- `enc` and the secrets fit the buffers of 64 bytes. -/
def Fits (b : Backend) : Prop := b.encLen ≤ 64 ∧ b.ssLen ≤ 64

theorem fits_iff (b : Backend) : b.Fits ↔ b = .x25519 := by
  cases b with
  | x25519 => exact iff_of_true ⟨by decide, by decide⟩ rfl
  | mlKem768 => exact iff_of_false (fun h => absurd h.1 (by decide)) (by decide)

end Backend

/-- What the calls of one run answer; a call that fails answers `none`. -/
structure Libraries (b : Backend) where
  kemSetup : Option (Bytes × Bytes)
  kemEncaps : Bytes → Option (Vector UInt8 b.encLen × Vector UInt8 b.ssLen)
  kemDecaps : Bytes → Vector UInt8 b.encLen → Option (Vector UInt8 b.ssLen)
  hkdf : Bytes → Bytes → (outlen : ℕ) → Option (Vector UInt8 outlen)
  gcmSeal : Bytes → Bytes → Bytes → Bytes → Bytes
  gcmOpen : Bytes → Bytes → Bytes → Bytes → Option Bytes

/-- Keys and nonces that are on the stack before a key schedule writes them. -/
structure Stack where
  recv : Bytes × Bytes
  alt : Bytes × Bytes
  bad : Bytes × Bytes

section

variable {b : Backend} (lib : Libraries b)

def keySchedule (ss info : Bytes) : Option (Bytes × Bytes) :=
  (lib.hkdf ss info 44).map fun okm => (okm.toList.take 32, okm.toList.drop 32)

/-- The recipient does not read the status of its key schedules. -/
def keyScheduleUnchecked (stack : Bytes × Bytes) (ss info : Bytes) : Bytes × Bytes :=
  (keySchedule lib ss info).getD stack

end

/-! ## A library that keeps everything apart -/

/-- The length in unary, and the bytes. -/
def frame (x : Bytes) : Bytes := List.replicate x.length 1 ++ 0 :: x

theorem replicate_append_inj {p q : ℕ} {u v : Bytes}
    (heq : List.replicate p 1 ++ 0 :: u = List.replicate q 1 ++ 0 :: v) : p = q ∧ u = v := by
  induction p generalizing q with
  | zero =>
      cases q with
      | zero => exact ⟨rfl, (List.cons.inj heq).2⟩
      | succ q => exact absurd (List.cons.inj heq).1 (by decide)
  | succ p ih =>
      cases q with
      | zero => exact absurd (List.cons.inj heq).1 (by decide)
      | succ q =>
          rcases ih (List.cons.inj heq).2 with ⟨rfl, huv⟩
          exact ⟨rfl, huv⟩

theorem frame_append_inj {x y u v : Bytes} (heq : frame x ++ u = frame y ++ v) :
    x = y ∧ u = v := by
  simp only [frame, List.append_assoc, List.cons_append] at heq
  rcases replicate_append_inj heq with ⟨hlen, hrest⟩
  exact List.append_inj hrest hlen

def framedHead (k n aad : Bytes) : Bytes := frame k ++ frame n ++ frame aad

theorem framedHead_append_inj {k n aad k' n' aad' u v : Bytes}
    (heq : framedHead k n aad ++ u = framedHead k' n' aad' ++ v) :
    k' = k ∧ n' = n ∧ aad' = aad ∧ v = u := by
  simp only [framedHead, List.append_assoc] at heq
  have hk := frame_append_inj heq
  have hn := frame_append_inj hk.2
  have haad := frame_append_inj hn.2
  exact ⟨hk.1.symm, hn.1.symm, haad.1.symm, haad.2.symm⟩

/-- Key material that starts with the length of the info. -/
def framedOkm (ss info : Bytes) (outlen : ℕ) : Vector UInt8 outlen :=
  Vector.ofFn fun i => (UInt8.ofNat info.length :: (info ++ ss)).getD i 0

/-- The secret does not depend on the keys, and a ciphertext shows what it was
sealed with. -/
def framedLib (b : Backend) : Libraries b where
  kemSetup := some ([7], [7])
  kemEncaps := fun _ => some (Vector.replicate _ 9, Vector.replicate _ 3)
  kemDecaps := fun _ enc =>
    some (if enc = Vector.replicate _ 9 then Vector.replicate _ 3 else Vector.replicate _ 4)
  hkdf := fun ss info outlen => some (framedOkm ss info outlen)
  gcmSeal := fun k n aad m => framedHead k n aad ++ m
  gcmOpen := fun k n aad ct =>
    if ct = framedHead k n aad ++ ct.drop (framedHead k n aad).length then
      some (ct.drop (framedHead k n aad).length)
    else none

/-! ## The harness -/

/-- The fields of a fuzz input.  The info is the associated data as well. -/
structure Input where
  tflag : UInt8
  info : Bytes
  msg : Bytes
  deriving DecidableEq, Repr

def parse (data : Bytes) : Input :=
  let (split, r) := cmfU8 (cmfReaderInit data)
  let (tflag, r) := cmfU8 r
  let p := (cmfRest r).1.take 2048
  let rem := p.length
  let infolen := if rem ≠ 0 then split.toNat % (rem + 1) else 0
  ⟨tflag, p.take infolen, p.drop infolen⟩

def roundtrip : String := "O5-roundtrip"
def contextBinding : String := "O5-context-binding"
def upstreamTamper : String := "O5-upstream-tamper"

def altinfo : Bytes := [0xA5, 0, 0, 0, 0, 0, 0, 0]

/-- One bit of `enc` flipped, at an index inside it. -/
def encBad {b : Backend} (tflag : UInt8) (enc : Vector UInt8 b.encLen) :
    Vector UInt8 b.encLen :=
  let i : Fin b.encLen := ⟨tflag.toNat % b.encLen, Nat.mod_lt _ b.encLen_pos⟩
  enc.set i (enc[i] ^^^ 0x01)

section

variable {b : Backend} (lib : Libraries b) (stack : Stack)

def roundtripChecks (input : Input) (ssRecv ct : Bytes) : List Check :=
  let (kr, nr) := keyScheduleUnchecked lib stack.recv ssRecv input.info
  let pt := lib.gcmOpen kr nr input.info ct
  [⟨b.kemName, roundtrip, "recipient failed to open sealed message", pt.isSome⟩,
    ⟨b.kemName, roundtrip, "opened plaintext != message",
      (pt.getD []).take input.msg.length = input.msg⟩]

def contextChecks (input : Input) (ssRecv ct : Bytes) : List Check :=
  if input.tflag &&& 1 ≠ 0 then
    let (kr2, nr2) := keyScheduleUnchecked lib stack.alt ssRecv altinfo
    [⟨b.kemName, contextBinding, "different info still opened ciphertext",
      !(lib.gcmOpen kr2 nr2 input.info ct).isSome⟩]
  else []

def tamperChecks (input : Input) (sk : Bytes) (enc : Vector UInt8 b.encLen) (ct : Bytes) :
    List Check :=
  match lib.kemDecaps sk (encBad input.tflag enc) with
  | none => []
  | some ssb =>
      let (kb, nb) := keyScheduleUnchecked lib stack.bad ssb.toList input.info
      [⟨b.kemName, upstreamTamper, "tampered encapsulated key still opened ciphertext",
        !(lib.gcmOpen kb nb input.info ct).isSome⟩]

def llvmFuzzerTestOneInput (data : Bytes) : List Check :=
  if data.length < 6 then []
  else
    let input := parse data
    match lib.kemSetup with
    | none => []
    | some (pk, sk) =>
        if b.encLen > 64 ∨ b.ssLen > 64 then []
        else
          match lib.kemEncaps pk with
          | none => []
          | some (enc, ssSend) =>
              match keySchedule lib ssSend.toList input.info with
              | none => []
              | some (ks, ns) =>
                  let ct := lib.gcmSeal ks ns input.info input.msg
                  match lib.kemDecaps sk enc with
                  | none => []
                  | some ssRecv =>
                      roundtripChecks lib stack input ssRecv.toList ct ++
                        contextChecks lib stack input ssRecv.toList ct ++
                        tamperChecks lib stack input sk enc ct

end

/-! ## The runs that reach the assertions -/

/-- The calls a run returns on, all successful. -/
structure HonestRun {b : Backend} (lib : Libraries b) (info : Bytes) where
  pk : Bytes
  sk : Bytes
  enc : Vector UInt8 b.encLen
  ssSend : Vector UInt8 b.ssLen
  ks : Bytes
  ns : Bytes
  ssRecv : Vector UInt8 b.ssLen
  setup : lib.kemSetup = some (pk, sk)
  encaps : lib.kemEncaps pk = some (enc, ssSend)
  schedule : keySchedule lib ssSend.toList info = some (ks, ns)
  decaps : lib.kemDecaps sk enc = some ssRecv

def framedRun (b : Backend) (info : Bytes) : HonestRun (framedLib b) info where
  pk := [7]
  sk := [7]
  enc := Vector.replicate _ 9
  ssSend := Vector.replicate _ 3
  ks := (framedOkm (Vector.replicate b.ssLen 3).toList info 44).toList.take 32
  ns := (framedOkm (Vector.replicate b.ssLen 3).toList info 44).toList.drop 32
  ssRecv := Vector.replicate _ 3
  setup := rfl
  encaps := rfl
  schedule := rfl
  decaps := congrArg some (if_pos rfl)

def zeroStack : Stack := ⟨([], []), ([], []), ([], [])⟩

/-- The assertion is evaluated, unless an earlier one ends the run. -/
def Exercised (oracle msg : String) (checks : List Check) : Prop :=
  ∃ c ∈ evaluated checks, c.oracle = oracle ∧ c.msg = msg ∨ c.holds = false

theorem exercised_of_mem {checks : List Check} {c : Check} (hc : c ∈ checks) :
    Exercised c.oracle c.msg checks := by
  induction checks with
  | nil => cases hc
  | cons first rest ih =>
      rcases List.mem_cons.mp hc with rfl | hrest
      · exact ⟨c, List.mem_cons_self, Or.inl ⟨rfl, rfl⟩⟩
      · cases hfirst : first.holds with
        | false => exact ⟨first, List.mem_cons_self, Or.inr hfirst⟩
        | true =>
            rcases ih hrest with ⟨d, hd, hexercised⟩
            refine ⟨d, List.mem_cons_of_mem _ ?_, hexercised⟩
            rw [hfirst, if_pos rfl]
            exact hd

theorem not_exercised_nil (oracle msg : String) : ¬ Exercised oracle msg [] := by
  rintro ⟨c, hc, -⟩
  cases hc

section

variable {b : Backend} {lib : Libraries b} {stack : Stack} {data : Bytes}

theorem run_of_overflow (hfits : ¬ b.Fits) : llvmFuzzerTestOneInput lib stack data = [] := by
  have hlarge : b.encLen > 64 ∨ b.ssLen > 64 := by
    rw [Backend.Fits] at hfits
    omega
  rw [llvmFuzzerTestOneInput]
  split
  · rfl
  · cases hsetup : lib.kemSetup with
    | none => rfl
    | some keys => rfl

theorem run_of_fits (hfits : b.Fits) (hsize : 6 ≤ data.length)
    (run : HonestRun lib (parse data).info) :
    llvmFuzzerTestOneInput lib stack data =
      roundtripChecks lib stack (parse data) run.ssRecv.toList
          (lib.gcmSeal run.ks run.ns (parse data).info (parse data).msg) ++
        contextChecks lib stack (parse data) run.ssRecv.toList
          (lib.gcmSeal run.ks run.ns (parse data).info (parse data).msg) ++
        tamperChecks lib stack (parse data) run.sk run.enc
          (lib.gcmSeal run.ks run.ns (parse data).info (parse data).msg) := by
  have hsmall : ¬ (b.encLen > 64 ∨ b.ssLen > 64) := by
    rcases hfits with ⟨henc, hss⟩
    omega
  rw [llvmFuzzerTestOneInput, if_neg (by omega)]
  simp only [run.setup, run.encaps, run.schedule, run.decaps, if_neg hsmall]

end

/-- The oracles have something to say about the run. -/
structure NotVacuous {b : Backend} (lib : Libraries b) (stack : Stack) (data : Bytes)
    (run : HonestRun lib (parse data).info) : Prop where
  opens : Exercised roundtrip "recipient failed to open sealed message"
    (llvmFuzzerTestOneInput lib stack data)
  recovers : Exercised roundtrip "opened plaintext != message"
    (llvmFuzzerTestOneInput lib stack data)
  tampers : (lib.kemDecaps run.sk (encBad (parse data).tflag run.enc)).isSome = true →
    Exercised upstreamTamper "tampered encapsulated key still opened ciphertext"
      (llvmFuzzerTestOneInput lib stack data)

theorem vacuous_of_overflow {b : Backend} {lib : Libraries b} {stack : Stack} {data : Bytes}
    (hfits : ¬ b.Fits) (run : HonestRun lib (parse data).info) :
    ¬ NotVacuous lib stack data run := by
  intro hvacuous
  have hopens := hvacuous.opens
  rw [run_of_overflow hfits] at hopens
  exact not_exercised_nil _ _ hopens

theorem notVacuous_iff_fits {b : Backend} (lib : Libraries b) (stack : Stack) {data : Bytes}
    (hsize : 6 ≤ data.length) (run : HonestRun lib (parse data).info) :
    NotVacuous lib stack data run ↔ b.Fits := by
  constructor
  · intro hvacuous
    by_contra hfits
    exact vacuous_of_overflow hfits run hvacuous
  · intro hfits
    have hchecks : llvmFuzzerTestOneInput lib stack data = _ := run_of_fits hfits hsize run
    constructor
    · rw [hchecks]
      exact exercised_of_mem
        (List.mem_append_left _ (List.mem_append_left _ List.mem_cons_self))
    · rw [hchecks]
      exact exercised_of_mem (List.mem_append_left _ (List.mem_append_left _
        (List.mem_cons_of_mem _ List.mem_cons_self)))
    · intro hdecaps
      rcases Option.isSome_iff_exists.mp hdecaps with ⟨ssb, hssb⟩
      have htamper : ∃ c ∈ tamperChecks lib stack (parse data) run.sk run.enc
          (lib.gcmSeal run.ks run.ns (parse data).info (parse data).msg),
          c.oracle = upstreamTamper ∧
            c.msg = "tampered encapsulated key still opened ciphertext" := by
        rw [tamperChecks, hssb]
        exact ⟨_, List.mem_singleton_self _, rfl, rfl⟩
      rcases htamper with ⟨c, hc, horacle, hmsg⟩
      rw [hchecks, ← horacle, ← hmsg]
      exact exercised_of_mem (List.mem_append_right _ hc)

theorem notVacuous_iff_fits_x25519 :
    NotVacuous (framedLib .x25519) zeroStack [0, 1, 2, 3, 4, 5] (framedRun .x25519 _) ↔
      Backend.x25519.Fits :=
  notVacuous_iff_fits _ zeroStack (by decide) (framedRun .x25519 _)

theorem notVacuous_mlKem768_fails :
    ¬ ∀ (b : Backend) (lib : Libraries b) (stack : Stack) (data : Bytes), 6 ≤ data.length →
      ∀ run : HonestRun lib (parse data).info, NotVacuous lib stack data run := by
  intro hclaim
  have hfits : ¬ Backend.mlKem768.Fits := fun h =>
    absurd ((Backend.fits_iff .mlKem768).mp h) (by decide)
  have hsize : 6 ≤ [0, 1, 2, 3, 4, (5 : UInt8)].length := by decide
  exact vacuous_of_overflow hfits (framedRun .mlKem768 _)
    (hclaim .mlKem768 (framedLib .mlKem768) zeroStack _ hsize (framedRun .mlKem768 _))

/-! ## Primitives that are right -/

/-- A KEM whose recipient recovers the secret, a KDF that does not fail nor
take the two infos of a run to one key, and an AEAD that opens a ciphertext under what it
was sealed with and nothing else. -/
structure Ideal {b : Backend} (lib : Libraries b) (info : Bytes) : Prop where
  recovers : ∀ {pk sk enc ss}, lib.kemSetup = some (pk, sk) →
    lib.kemEncaps pk = some (enc, ss) → lib.kemDecaps sk enc = some ss
  derives : ∀ ss info, (lib.hkdf ss info 44).isSome = true
  separates : ∀ ss, lib.hkdf ss info 44 = lib.hkdf ss altinfo 44 → info = altinfo
  opens : ∀ k n aad m k' n' aad' pt,
    lib.gcmOpen k' n' aad' (lib.gcmSeal k n aad m) = some pt ↔
      k' = k ∧ n' = n ∧ aad' = aad ∧ pt = m

/-- The sender gets as far as a secret. -/
def Encapsulates {b : Backend} (lib : Libraries b) : Prop :=
  ∃ pk sk c, lib.kemSetup = some (pk, sk) ∧ lib.kemEncaps pk = some c

/-- No violation of the two oracles that hold whatever the KEM does with a
tampered `enc`. -/
def NoFalseAlarm (checks : List Check) : Prop :=
  ∀ c, violation checks = some c → c.oracle ≠ roundtrip ∧ c.oracle ≠ contextBinding

theorem noFalseAlarm_nil : NoFalseAlarm [] := by
  intro c hc
  cases hc

theorem noFalseAlarm_cons {c : Check} {rest : List Check} (hc : c.holds = true) :
    NoFalseAlarm (c :: rest) ↔ NoFalseAlarm rest := by
  have hfind : violation (c :: rest) = violation rest := by
    rw [violation, List.find?_cons_of_neg (by rw [hc]; decide), violation]
  rw [NoFalseAlarm, hfind, NoFalseAlarm]

/-- The message is sealed under the info that the recipient takes for a
different one. -/
def AltSealed (data : Bytes) : Prop :=
  (parse data).tflag &&& 1 ≠ 0 ∧ (parse data).info = altinfo

section

variable {b : Backend} {lib : Libraries b} {stack : Stack} {data : Bytes}

theorem keySchedule_injective {ss info info' : Bytes} {keys : Bytes × Bytes}
    (h : keySchedule lib ss info = some keys) (h' : keySchedule lib ss info' = some keys) :
    lib.hkdf ss info 44 = lib.hkdf ss info' 44 := by
  rcases Option.map_eq_some_iff.mp h with ⟨okm, hokm, hkeys⟩
  rcases Option.map_eq_some_iff.mp h' with ⟨okm', hokm', hkeys'⟩
  have hsplit := Prod.mk.inj (hkeys.trans hkeys'.symm)
  have hbytes : okm.toList = okm'.toList := by
    rw [← List.take_append_drop 32 okm.toList, hsplit.1, hsplit.2, List.take_append_drop]
  rw [hokm, hokm', Vector.toList_inj.mp hbytes]

theorem Ideal.keySchedule_isSome (hideal : Ideal lib (parse data).info) (ss info : Bytes) :
    ∃ keys, keySchedule lib ss info = some keys := by
  rcases Option.isSome_iff_exists.mp (hideal.derives ss info) with ⟨okm, hokm⟩
  exact ⟨_, by rw [keySchedule, hokm, Option.map_some]⟩

theorem Ideal.honestRun (hideal : Ideal lib (parse data).info) (hencaps : Encapsulates lib) :
    ∃ run : HonestRun lib (parse data).info, run.ssRecv = run.ssSend := by
  rcases hencaps with ⟨pk, sk, ⟨enc, ss⟩, hsetup, henc⟩
  rcases hideal.keySchedule_isSome ss.toList (parse data).info with ⟨⟨ks, ns⟩, hkeys⟩
  exact ⟨⟨pk, sk, enc, ss, ks, ns, ss, hsetup, henc, hkeys, hideal.recovers hsetup henc⟩, rfl⟩

theorem run_of_not_encapsulates (hencaps : ¬ Encapsulates lib) :
    llvmFuzzerTestOneInput lib stack data = [] := by
  rw [llvmFuzzerTestOneInput]
  split
  · rfl
  · cases hsetup : lib.kemSetup with
    | none => rfl
    | some keys =>
        rcases keys with ⟨pk, sk⟩
        cases henc : lib.kemEncaps pk with
        | none =>
            dsimp only
            rw [henc, ite_self]
        | some c => exact absurd ⟨pk, sk, c, hsetup, henc⟩ hencaps

theorem run_silent (hreached : ¬ (6 ≤ data.length ∧ b.Fits ∧ Encapsulates lib)) :
    llvmFuzzerTestOneInput lib stack data = [] := by
  by_cases hsize : 6 ≤ data.length
  · by_cases hfits : b.Fits
    · exact run_of_not_encapsulates fun hencaps => hreached ⟨hsize, hfits, hencaps⟩
    · exact run_of_overflow hfits
  · rw [llvmFuzzerTestOneInput, if_pos (by omega)]

theorem roundtripChecks_ideal (hideal : Ideal lib (parse data).info)
    (run : HonestRun lib (parse data).info) (hss : run.ssRecv = run.ssSend) :
    roundtripChecks lib stack (parse data) run.ssRecv.toList
        (lib.gcmSeal run.ks run.ns (parse data).info (parse data).msg) =
      [⟨b.kemName, roundtrip, "recipient failed to open sealed message", true⟩,
        ⟨b.kemName, roundtrip, "opened plaintext != message", true⟩] := by
  have hkeys : keyScheduleUnchecked lib stack.recv run.ssRecv.toList (parse data).info =
      (run.ks, run.ns) := by
    rw [keyScheduleUnchecked, hss, run.schedule, Option.getD_some]
  have hopen : lib.gcmOpen run.ks run.ns (parse data).info
      (lib.gcmSeal run.ks run.ns (parse data).info (parse data).msg) =
        some (parse data).msg := (hideal.opens _ _ _ _ _ _ _ _).mpr ⟨rfl, rfl, rfl, rfl⟩
  rw [roundtripChecks, hkeys]
  dsimp only
  rw [hopen, Option.isSome_some, Option.getD_some, List.take_length, decide_eq_true rfl]

theorem contextChecks_ideal (hideal : Ideal lib (parse data).info)
    (run : HonestRun lib (parse data).info) (hss : run.ssRecv = run.ssSend)
    (hflag : (parse data).tflag &&& 1 ≠ 0) :
    contextChecks lib stack (parse data) run.ssRecv.toList
        (lib.gcmSeal run.ks run.ns (parse data).info (parse data).msg) =
      [⟨b.kemName, contextBinding, "different info still opened ciphertext",
        decide ((parse data).info ≠ altinfo)⟩] := by
  rcases hideal.keySchedule_isSome run.ssSend.toList altinfo with ⟨⟨kr2, nr2⟩, hkeys⟩
  have hopen : (lib.gcmOpen kr2 nr2 (parse data).info
      (lib.gcmSeal run.ks run.ns (parse data).info (parse data).msg)).isSome = true ↔
        (parse data).info = altinfo := by
    constructor
    · intro hsome
      rcases Option.isSome_iff_exists.mp hsome with ⟨pt, hpt⟩
      rcases (hideal.opens _ _ _ _ _ _ _ _).mp hpt with ⟨rfl, rfl, -, -⟩
      exact hideal.separates _ (keySchedule_injective run.schedule hkeys)
    · intro hinfo
      have hsame : (kr2, nr2) = (run.ks, run.ns) := by
        have hschedule := (congrArg (keySchedule lib _) hinfo).symm.trans run.schedule
        rw [hkeys] at hschedule
        exact Option.some.inj hschedule
      rcases Prod.mk.inj hsame with ⟨rfl, rfl⟩
      rw [(hideal.opens _ _ _ _ _ _ _ _).mpr ⟨rfl, rfl, rfl, rfl⟩, Option.isSome_some]
  rw [contextChecks, if_pos hflag, keyScheduleUnchecked, hss, hkeys, Option.getD_some]
  dsimp only
  rw [decide_not, Bool.eq_iff_iff.mpr (hopen.trans decide_eq_true_iff.symm)]

theorem contextChecks_even {ss ct : Bytes} (hflag : ¬ (parse data).tflag &&& 1 ≠ 0) :
    contextChecks lib stack (parse data) ss ct = [] := if_neg hflag

theorem noFalseAlarm_tamperChecks (input : Input) (sk : Bytes) (enc : Vector UInt8 b.encLen)
    (ct : Bytes) : NoFalseAlarm (tamperChecks lib stack input sk enc ct) := by
  intro c hc
  have hmem := List.mem_of_find?_eq_some hc
  have horacle : c.oracle = upstreamTamper := by
    rw [tamperChecks] at hmem
    split at hmem
    · cases hmem
    · rw [List.mem_singleton.mp hmem]
  rw [horacle]
  exact ⟨by decide, by decide⟩

end

theorem framedLib_ideal (b : Backend) {info : Bytes}
    (hinfo : UInt8.ofNat info.length = 8 → info = altinfo) : Ideal (framedLib b) info := by
  constructor
  · intro pk sk enc ss _ henc
    have hpair := Prod.mk.inj (Option.some.inj henc)
    rw [← hpair.1, ← hpair.2]
    exact congrArg some (if_pos rfl)
  · intro ss info
    rfl
  · intro ss heq
    have hokm := Option.some.inj heq
    have hfirst := congrArg (fun bytes : Vector UInt8 44 => bytes[0]) hokm
    simp only [framedOkm, Vector.getElem_ofFn, List.getD_cons_zero] at hfirst
    exact hinfo hfirst
  · intro k n aad m k' n' aad' pt
    constructor
    · intro hopen
      rcases Option.ite_none_right_eq_some.mp hopen with ⟨hframes, hpt⟩
      rcases framedHead_append_inj hframes with ⟨hk, hn, haad, hm⟩
      exact ⟨hk, hn, haad, (Option.some.inj hpt).symm.trans hm⟩
    · rintro ⟨rfl, rfl, rfl, rfl⟩
      have hm : (framedHead k' n' aad' ++ pt).drop (framedHead k' n' aad').length = pt :=
        List.drop_left
      have hct : framedHead k' n' aad' ++ pt = framedHead k' n' aad' ++
          (framedHead k' n' aad' ++ pt).drop (framedHead k' n' aad').length := by rw [hm]
      exact (if_pos hct).trans (congrArg some hm)

theorem noFalseAlarm_iff {b : Backend} (lib : Libraries b) (stack : Stack) (data : Bytes)
    (hideal : Ideal lib (parse data).info) :
    NoFalseAlarm (llvmFuzzerTestOneInput lib stack data) ↔
      ¬ (6 ≤ data.length ∧ b.Fits ∧ Encapsulates lib ∧ AltSealed data) := by
  by_cases hreached : 6 ≤ data.length ∧ b.Fits ∧ Encapsulates lib
  · rcases hreached with ⟨hsize, hfits, hencaps⟩
    rcases hideal.honestRun hencaps with ⟨run, hss⟩
    rw [run_of_fits hfits hsize run, roundtripChecks_ideal hideal run hss]
    simp only [List.cons_append, List.nil_append]
    rw [noFalseAlarm_cons rfl, noFalseAlarm_cons rfl]
    by_cases hflag : (parse data).tflag &&& 1 ≠ 0
    · rw [contextChecks_ideal hideal run hss hflag, List.singleton_append]
      by_cases hinfo : (parse data).info = altinfo
      · have halt : AltSealed data := ⟨hflag, hinfo⟩
        refine iff_of_false ?_ (not_not_intro ⟨hsize, hfits, hencaps, halt⟩)
        intro halarm
        rw [decide_eq_false (not_not_intro hinfo)] at halarm
        exact (halarm _ (List.find?_cons_of_pos rfl)).2 rfl
      · rw [decide_eq_true hinfo, noFalseAlarm_cons rfl]
        exact iff_of_true (noFalseAlarm_tamperChecks _ _ _ _) fun h => hinfo h.2.2.2.2
    · rw [contextChecks_even hflag, List.nil_append]
      exact iff_of_true (noFalseAlarm_tamperChecks _ _ _ _) fun h => hflag h.2.2.2.1
  · rw [run_silent hreached]
    exact iff_of_true noFalseAlarm_nil fun h => hreached ⟨h.1, h.2.1, h.2.2.1⟩

theorem noFalseAlarm_iff_x25519 :
    NoFalseAlarm (llvmFuzzerTestOneInput (framedLib .x25519) zeroStack [0, 1, 2, 3, 4, 5]) ↔
      ¬ (6 ≤ [0, 1, 2, 3, 4, 5].length ∧ Backend.x25519.Fits ∧
        Encapsulates (framedLib .x25519) ∧ AltSealed [0, 1, 2, 3, 4, 5]) :=
  noFalseAlarm_iff _ zeroStack [0, 1, 2, 3, 4, 5]
    (framedLib_ideal .x25519 (fun h => absurd h (by decide)))

/-- Eight bytes of info that are the other info, and no message. -/
theorem noFalseAlarm_altinfo_fails :
    ¬ ∀ (b : Backend) (lib : Libraries b) (stack : Stack) (data : Bytes),
      Ideal lib (parse data).info → NoFalseAlarm (llvmFuzzerTestOneInput lib stack data) := by
  intro hclaim
  have hinfo : (parse [8, 1, 0xA5, 0, 0, 0, 0, 0, 0, 0]).info = altinfo := by decide
  have hquiet := hclaim .x25519 (framedLib .x25519) zeroStack [8, 1, 0xA5, 0, 0, 0, 0, 0, 0, 0]
    (framedLib_ideal .x25519 (fun _ => hinfo))
  have hviolation : violation (llvmFuzzerTestOneInput (framedLib .x25519) zeroStack
      [8, 1, 0xA5, 0, 0, 0, 0, 0, 0, 0]) =
        some ⟨"HPKE(X25519+HKDF+AES-GCM)", contextBinding,
          "different info still opened ciphertext", false⟩ := by decide +kernel
  exact (hquiet _ hviolation).2 rfl

end Hpke
end CMFuzz
