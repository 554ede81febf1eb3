import CMFuzz.CbcMalleability
import CMFuzz.HpkeHarness
import CMFuzz.TradComposition

/-!
# Self-tests of the compositions

The builds of `CMF_FAULT_ETM` and `CMF_FAULT_HPKE`.  A tag that is not checked
leaves the padding to stop a forgery, and a recipient that is handed the
sender's secret opens whatever the KEM was given.
-/

namespace CMFuzz

open ByteCodec
open Engine

namespace Trad

open BlockModes
open SplitMix

/-! ## Encrypt-then-MAC without the MAC -/

/-- What `test_etm` draws. -/
structure EtmDrawn where
  k1 : Bytes
  k2 : Bytes
  iv : Bytes
  word : UInt64

def etmDraw : Draw EtmDrawn := do
  let k1 ← cmfRandombytes 32
  let k2 ← cmfRandombytes 32
  let iv ← cmfRandombytes 16
  let word ← next
  pure ⟨k1, k2, iv, word⟩

theorem etmDraw_lengths :
    Always (fun d => d.k1.length = 32 ∧ d.iv.length = 16) etmDraw := by
  refine Always.bind (cmfRandombytes_length 32) fun k1 hk1 => ?_
  refine Always.bind (always_true _) fun k2 _ => ?_
  refine Always.bind (cmfRandombytes_length 16) fun iv hiv => ?_
  exact Always.bind (always_true _) fun word _ => Always.pure ⟨hk1, hiv⟩

/-- What `test_etm` seals. -/
def etmMessage (data : Bytes) : Bytes := (data.drop 1).take 1024

theorem faultEtm_run (lib : Library) {data : Bytes} (hdata : 3 ≤ data.length) :
    llvmFuzzerTestOneInput lib .faultEtm data =
      etmChecks lib .faultEtm (etmDraw (cmfPrngSeed data)).1.k1 (etmDraw (cmfPrngSeed data)).1.k2
        (etmDraw (cmfPrngSeed data)).1.iv (etmMessage data)
        (etmDraw (cmfPrngSeed data)).1.word := by
  have hreader : (cmfU8 (cmfReaderInit data)).2 = ⟨data, 1⟩ := by
    rw [cmfU8, cmfReaderInit, if_pos (show 0 < data.length by omega)]
  rw [llvmFuzzerTestOneInput, if_neg (by omega)]
  show (testEtm lib .faultEtm (cmfU8 (cmfReaderInit data)).2 (cmfPrngSeed data)).1 = _
  rw [hreader]
  rfl

/-- The fault build decrypts whole blocks under any tag. -/
theorem etmOpen_faultEtm (lib : Library) (k1 k2 : Bytes) {body tag : Bytes} {k : ℕ}
    (hbody : body.length = 16 * (k + 2)) (htag : tag.length = 32) :
    etmOpen lib .faultEtm k1 k2 (body ++ tag) =
      .decrypted (cbcOpen 16 (lib.aesInv k1) (body.take 16) (body.drop 16)) := by
  have hlength : (body ++ tag).length = 16 * (k + 2) + 32 := by
    rw [List.length_append, hbody, htag]
  have hct : (((body ++ tag).drop 16).take ((body ++ tag).length - 16 - 32)) = body.drop 16 := by
    rw [List.drop_append_of_le_length (by omega), List.take_left' (by
      rw [List.length_drop, hlength]
      omega)]
  rw [etmOpen, if_neg (by omega)]
  dsimp only
  rw [if_neg (by omega), if_neg (not_not.mpr (Or.inl rfl)), hct,
    List.take_append_of_le_length (by omega)]

theorem ret_neg_iff (pt : Option Bytes) : (Opening.decrypted pt).ret < 0 ↔ pt = none := by
  cases pt with
  | none => exact iff_of_true (by decide) rfl
  | some pt =>
      apply iff_of_false
      · exact not_lt.mpr (Int.natCast_nonneg pt.length)
      · exact Option.some_ne_none pt

/-- Where the flipped byte leaves a padding at the end of the plaintext: under
the message, in the tag, or in the last block where that happens to decrypt to
one. -/
def PaddingSurvives (lib : Library) (k1 iv m : Bytes) (pos : ℕ) : Prop :=
  pos < m.length ∨ 16 * (m.length / 16 + 2) ≤ pos ∨
    (16 * (m.length / 16 + 1) ≤ pos ∧ (cbcOpen 16 (lib.aesInv k1) iv
      ((cbc 16 (lib.aes k1) iv m).modify (pos - 16) (· ^^^ 0x01))).isSome = true)

section

variable {lib : Library} {k1 iv : Bytes} (hinv : Invertible 16 (lib.aes k1) (lib.aesInv k1))
  (hmac : ∀ k data, (lib.hmac k data).length = 32) (hiv : iv.length = 16)

include hinv hmac hiv

theorem etmOpen_flipped_isSome (k2 m : Bytes) {pos : ℕ}
    (hpos : pos < (etmSeal lib k1 k2 iv m).length) :
    ∃ pt, etmOpen lib .faultEtm k1 k2 ((etmSeal lib k1 k2 iv m).modify pos (· ^^^ 0x01)) =
      .decrypted pt ∧ (pt.isSome = true ↔ PaddingSurvives lib k1 iv m pos) := by
  have hbody : (etmBody lib k1 iv m).length = 16 * (m.length / 16 + 2) := by
    rw [etmBody_length hinv hiv, Nat.mul_succ, Nat.mul_succ, Nat.add_comm, Nat.mul_succ]
  have hsealed := etmSeal_body_length hmac k1 k2 iv m
  have htag := hmac k2 (etmBody lib k1 iv m)
  have hdiv := Nat.div_add_mod m.length 16
  rw [etmSeal_eq]
  by_cases hin : pos < (etmBody lib k1 iv m).length
  · have hflipped : ((etmBody lib k1 iv m).modify pos (· ^^^ 0x01)).length =
        16 * (m.length / 16 + 2) := (List.length_modify _ _ _).trans hbody
    rw [modify_append_left _ hin, etmOpen_faultEtm lib k1 k2 hflipped htag]
    refine ⟨_, rfl, ?_⟩
    rw [PaddingSurvives]
    by_cases hlast : pos < 16 * (m.length / 16 + 1)
    · have hflip := cbcOpen_flip hinv (by decide) hiv m (by decide) hlast
      rw [etmBody, hflip, decide_eq_true_iff]
      omega
    · have hvector : ((etmBody lib k1 iv m).modify pos (· ^^^ 0x01)).take 16 = iv := by
        rw [List.take_modify, etmBody, List.take_left' hiv, List.modify_eq_self (by omega)]
      have hblocks : ((etmBody lib k1 iv m).modify pos (· ^^^ 0x01)).drop 16 =
          (cbc 16 (lib.aes k1) iv m).modify (pos - 16) (· ^^^ 0x01) := by
        rw [List.drop_modify_of_ge _ _ _ _ (by omega), etmBody, List.drop_left' hiv]
      rw [hvector, hblocks]
      constructor
      · exact fun h => Or.inr (Or.inr ⟨not_lt.mp hlast, h⟩)
      · rintro (h | h | h)
        · omega
        · omega
        · exact h.2
  · obtain ⟨j, rfl⟩ : ∃ j, pos = (etmBody lib k1 iv m).length + j :=
      ⟨pos - (etmBody lib k1 iv m).length, by omega⟩
    rw [modify_append_right,
      etmOpen_faultEtm lib k1 k2 hbody ((List.length_modify _ _ _).trans htag),
      etmBody, List.take_left' hiv, List.drop_left' hiv,
      cbcOpen_cbc hinv (by decide) (by decide) hiv]
    exact ⟨_, rfl, iff_of_true rfl (Or.inr (Or.inl (hbody.ge.trans (Nat.le_add_right _ j))))⟩

theorem etmOpen_faultEtm_sealed (k2 m : Bytes) :
    etmOpen lib .faultEtm k1 k2 (etmSeal lib k1 k2 iv m) = .decrypted (some m) := by
  have hbody : (etmBody lib k1 iv m).length = 16 * (m.length / 16 + 2) := by
    rw [etmBody_length hinv hiv, Nat.mul_succ, Nat.mul_succ, Nat.add_comm, Nat.mul_succ]
  rw [etmSeal_eq, etmOpen_faultEtm lib k1 k2 hbody (hmac _ _), etmBody, List.take_left' hiv,
    List.drop_left' hiv, cbcOpen_cbc hinv (by decide) (by decide) hiv]

end

def forgeryAccepted : Check :=
  ⟨etmAlg, "O5-ciphertext-integrity", "tampered ciphertext/tag was accepted", false⟩

theorem etmChecks_faultEtm {lib : Library} {k1 iv : Bytes}
    (hinv : Invertible 16 (lib.aes k1) (lib.aesInv k1))
    (hmac : ∀ k data, (lib.hmac k data).length = 32) (hiv : iv.length = 16) (k2 m : Bytes)
    (word : UInt64) :
    (PaddingSurvives lib k1 iv m (word.toNat % (16 * (m.length / 16 + 4))) →
      violation (etmChecks lib .faultEtm k1 k2 iv m word) = some forgeryAccepted) ∧
    (¬ PaddingSurvives lib k1 iv m (word.toNat % (16 * (m.length / 16 + 4))) →
      violation (etmChecks lib .faultEtm k1 k2 iv m word) = none) := by
  have hlength : (etmSeal lib k1 k2 iv m).length = 16 * (m.length / 16 + 4) := by
    rw [etmSeal_body_length hmac, etmBody_length hinv hiv]
    omega
  have hpos : word.toNat % (16 * (m.length / 16 + 4)) < (etmSeal lib k1 k2 iv m).length := by
    rw [hlength]
    exact Nat.mod_lt _ (by omega)
  rcases etmOpen_flipped_isSome hinv hmac hiv k2 m hpos with ⟨pt, hopen, hpt⟩
  rw [← hpt]
  have hchecks : etmChecks lib .faultEtm k1 k2 iv m word =
      [⟨etmAlg, "O5-roundtrip", "open length mismatch", true⟩,
        ⟨etmAlg, "O5-roundtrip", "opened plaintext != message", true⟩,
        ⟨etmAlg, "O5-ciphertext-integrity", "tampered ciphertext/tag was accepted",
          decide ((Opening.decrypted pt).ret < 0)⟩] := by
    rw [etmChecks, etmOpen_faultEtm_sealed hinv hmac hiv, hlength, hopen]
    simp only [Opening.ret, List.take_length, decide_true]
  rw [hchecks]
  cases pt with
  | none => exact ⟨fun h => absurd h Bool.false_ne_true, fun _ => rfl⟩
  | some pt =>
      have hret : decide ((Opening.decrypted (some pt)).ret < 0) = false :=
        decide_eq_false (mt (ret_neg_iff _).mp (Option.some_ne_none pt))
      rw [hret]
      exact ⟨fun _ => rfl, fun h => absurd rfl h⟩

/-- The fault build reports an input exactly when a padding survives its
flip: the byte the seed chooses is under the message, in the tag, or in a last
block that decrypts to one.  A flip under the padding is never seen. -/
theorem faultEtm_exact {lib : Library}
    (haes : ∀ k, k.length = 32 → Invertible 16 (lib.aes k) (lib.aesInv k))
    (hmac : ∀ k data, (lib.hmac k data).length = 32) {data : Bytes} (hdata : 3 ≤ data.length) :
    let drawn := (etmDraw (cmfPrngSeed data)).1
    let m := etmMessage data
    let pos := drawn.word.toNat % (16 * (m.length / 16 + 4))
    (PaddingSurvives lib drawn.k1 drawn.iv m pos →
      violation (llvmFuzzerTestOneInput lib .faultEtm data) = some forgeryAccepted) ∧
    (¬ PaddingSurvives lib drawn.k1 drawn.iv m pos →
      violation (llvmFuzzerTestOneInput lib .faultEtm data) = none) ∧
    (m.length ≤ pos → pos < 16 * (m.length / 16 + 1) →
      violation (llvmFuzzerTestOneInput lib .faultEtm data) = none) := by
  intro drawn m pos
  rcases etmDraw_lengths (cmfPrngSeed data) with ⟨hk1, hiv⟩
  have hexact := etmChecks_faultEtm (haes _ hk1) hmac hiv drawn.k2 m drawn.word
  rw [faultEtm_run lib hdata]
  refine ⟨hexact.1, hexact.2, fun hlow hhigh => hexact.2 ?_⟩
  rintro (h | h | h)
  · exact absurd h (not_lt.mpr hlow)
  · omega
  · exact absurd h.1 (not_le.mpr hhigh)

theorem faultEtm_exact_short :
    violation (llvmFuzzerTestOneInput vectorLib .faultEtm [0, 5, 7]) = some forgeryAccepted ∧
    violation (llvmFuzzerTestOneInput vectorLib .faultEtm [0, 6, 7]) = none := by
  have hfires := @faultEtm_exact vectorLib vectorLib_aes vectorLib_hmac [0, 5, 7] (by decide)
  have hsilent := @faultEtm_exact vectorLib vectorLib_aes vectorLib_hmac [0, 6, 7] (by decide)
  constructor
  · exact hfires.1 (Or.inr (Or.inl (by decide +kernel)))
  · apply hsilent.2.1
    rintro (h | h | h)
    · exact absurd h (by decide +kernel)
    · exact absurd h (by decide +kernel)
    · exact absurd h.1 (by decide +kernel)

end Trad

namespace Hpke

/-! ## A recipient that is handed the secret -/

section

variable {b : Backend} (lib : Libraries b) (stack : Stack)

/-- The end of the run in the build of `CMF_FAULT_HPKE`: the decapsulation is
made, and its secret is overwritten. -/
def faultTamperChecks (input : Input) (ssSend ct : Bytes) : List Check :=
  let (kb, nb) := keyScheduleUnchecked lib stack.bad ssSend input.info
  [⟨b.kemName, upstreamTamper, "tampered encapsulated key still opened ciphertext",
    !(lib.gcmOpen kb nb input.info ct).isSome⟩]

/-- The run, with the checks it ends with. -/
def runWith (tamper : Input → Bytes → Vector UInt8 b.encLen → Bytes → Bytes → List Check)
    (data : Bytes) : List Check :=
  if data.length < 6 then []
  else
    let input := parse data
    match lib.kemSetup with
    | none => []
    | some (pk, sk) =>
        if b.encLen > 64 ∨ b.ssLen > 64 then []
        else
          match lib.kemEncaps pk with
          | none => []
          | some (enc, ssSend) =>
              match keySchedule lib ssSend.toList input.info with
              | none => []
              | some (ks, ns) =>
                  let ct := lib.gcmSeal ks ns input.info input.msg
                  match lib.kemDecaps sk enc with
                  | none => []
                  | some ssRecv =>
                      roundtripChecks lib stack input ssRecv.toList ct ++
                        contextChecks lib stack input ssRecv.toList ct ++
                        tamper input sk enc ssSend.toList ct

/-- The build of `CMF_FAULT_HPKE`. -/
def faultBuild : Bytes → List Check :=
  runWith lib stack fun input _ _ ssSend ct => faultTamperChecks lib stack input ssSend ct

theorem run_eq_runWith : llvmFuzzerTestOneInput lib stack =
    runWith lib stack fun input sk enc _ ct => tamperChecks lib stack input sk enc ct := rfl

end

section

variable {b : Backend} {lib : Libraries b} {stack : Stack} {data : Bytes}
  {tamper : Input → Bytes → Vector UInt8 b.encLen → Bytes → Bytes → List Check}

/-- What a run goes through, whatever it ends with. -/
theorem runWith_of_fits (hfits : b.Fits) (hsize : 6 ≤ data.length)
    (run : HonestRun lib (parse data).info) :
    runWith lib stack tamper data =
      roundtripChecks lib stack (parse data) run.ssRecv.toList
          (lib.gcmSeal run.ks run.ns (parse data).info (parse data).msg) ++
        contextChecks lib stack (parse data) run.ssRecv.toList
          (lib.gcmSeal run.ks run.ns (parse data).info (parse data).msg) ++
        tamper (parse data) run.sk run.enc run.ssSend.toList
          (lib.gcmSeal run.ks run.ns (parse data).info (parse data).msg) := by
  have hsmall : ¬ (b.encLen > 64 ∨ b.ssLen > 64) := by
    rcases hfits with ⟨henc, hss⟩
    omega
  rw [runWith, if_neg (by omega)]
  simp only [run.setup, run.encaps, run.schedule, run.decaps, if_neg hsmall]

theorem runWith_silent (hreached : ¬ (6 ≤ data.length ∧ b.Fits ∧ Encapsulates lib)) :
    runWith lib stack tamper data = [] := by
  rw [runWith]
  split
  case isTrue => rfl
  case isFalse hsize =>
    dsimp only
    cases hsetup : lib.kemSetup with
    | none => rfl
    | some keys =>
        rcases keys with ⟨pk, sk⟩
        dsimp only
        split
        case isTrue => rfl
        case isFalse hsmall =>
          cases henc : lib.kemEncaps pk with
          | none => rfl
          | some c =>
              exfalso
              apply hreached
              rw [Backend.Fits]
              exact ⟨by omega, by omega, pk, sk, c, hsetup, henc⟩

/-- A run over right primitives comes to its last check, unless the other info
is the info. -/
theorem runWith_violation (hfits : b.Fits) (hsize : 6 ≤ data.length)
    (hideal : Ideal lib (parse data).info) (run : HonestRun lib (parse data).info)
    (hss : run.ssRecv = run.ssSend) :
    (AltSealed data → violation (runWith lib stack tamper data) =
      some ⟨b.kemName, contextBinding, "different info still opened ciphertext", false⟩) ∧
    (¬ AltSealed data → violation (runWith lib stack tamper data) =
      violation (tamper (parse data) run.sk run.enc run.ssSend.toList
        (lib.gcmSeal run.ks run.ns (parse data).info (parse data).msg))) := by
  rw [runWith_of_fits hfits hsize run, roundtripChecks_ideal hideal run hss]
  constructor
  · rintro ⟨hflag, hinfo⟩
    rw [contextChecks_ideal hideal run hss hflag, decide_eq_false (not_not.mpr hinfo)]
    rfl
  · intro halt
    by_cases hflag : (parse data).tflag &&& 1 ≠ 0
    · have hinfo : (parse data).info ≠ altinfo := fun hinfo => halt ⟨hflag, hinfo⟩
      rw [contextChecks_ideal hideal run hss hflag, decide_eq_true hinfo]
      rfl
    · rw [contextChecks_even hflag]
      rfl

/-- The recipient derives the sender's key from the changed `enc`. -/
def Collides (lib : Libraries b) (data : Bytes) : Prop :=
  ∃ (run : HonestRun lib (parse data).info) (ssb : Vector UInt8 b.ssLen),
    lib.kemDecaps run.sk (encBad (parse data).tflag run.enc) = some ssb ∧
      keySchedule lib ssb.toList (parse data).info = some (run.ks, run.ns)

/-- The calls of a run answer once. -/
theorem HonestRun.unique {info : Bytes} (run run' : HonestRun lib info) :
    run.sk = run'.sk ∧ run.enc = run'.enc ∧ run.ks = run'.ks ∧ run.ns = run'.ns := by
  have hkeys := Prod.mk.inj (Option.some.inj (run.setup.symm.trans run'.setup))
  have hencaps := run.encaps.symm.trans (hkeys.1 ▸ run'.encaps)
  have hsent := Prod.mk.inj (Option.some.inj hencaps)
  have hschedule := run.schedule.symm.trans (hsent.2 ▸ run'.schedule)
  have hsealing := Prod.mk.inj (Option.some.inj hschedule)
  exact ⟨hkeys.2, hsent.1, hsealing.1, hsealing.2⟩

def upstreamViolation (b : Backend) : Check :=
  ⟨b.kemName, upstreamTamper, "tampered encapsulated key still opened ciphertext", false⟩

theorem faultTamperChecks_ideal (hideal : Ideal lib (parse data).info)
    (run : HonestRun lib (parse data).info) :
    violation (faultTamperChecks lib stack (parse data) run.ssSend.toList
      (lib.gcmSeal run.ks run.ns (parse data).info (parse data).msg)) =
        some (upstreamViolation b) := by
  have hopen := (hideal.opens run.ks run.ns (parse data).info (parse data).msg run.ks run.ns
    (parse data).info (parse data).msg).mpr ⟨rfl, rfl, rfl, rfl⟩
  rw [faultTamperChecks, keyScheduleUnchecked, run.schedule, Option.getD_some]
  dsimp only
  rw [hopen]
  rfl

theorem tamperChecks_ideal (hideal : Ideal lib (parse data).info)
    (run : HonestRun lib (parse data).info) :
    (Collides lib data → violation (tamperChecks lib stack (parse data) run.sk run.enc
      (lib.gcmSeal run.ks run.ns (parse data).info (parse data).msg)) =
        some (upstreamViolation b)) ∧
    (¬ Collides lib data → violation (tamperChecks lib stack (parse data) run.sk run.enc
      (lib.gcmSeal run.ks run.ns (parse data).info (parse data).msg)) = none) := by
  rw [tamperChecks]
  constructor
  · rintro ⟨run', ssb, hdecaps, hkeys⟩
    rcases run.unique run' with ⟨hsk, henc, hks, hns⟩
    have hopen := (hideal.opens run.ks run.ns (parse data).info (parse data).msg run.ks run.ns
      (parse data).info (parse data).msg).mpr ⟨rfl, rfl, rfl, rfl⟩
    rw [hsk, henc, hdecaps]
    dsimp only
    rw [keyScheduleUnchecked, hkeys, Option.getD_some, ← hks, ← hns]
    dsimp only
    rw [hopen]
    rfl
  · intro hcollides
    cases hdecaps : lib.kemDecaps run.sk (encBad (parse data).tflag run.enc) with
    | none => rfl
    | some ssb =>
        rcases hideal.keySchedule_isSome ssb.toList (parse data).info with ⟨⟨kb, nb⟩, hkeys⟩
        have hclosed : lib.gcmOpen kb nb (parse data).info
            (lib.gcmSeal run.ks run.ns (parse data).info (parse data).msg) = none := by
          apply Option.eq_none_iff_forall_ne_some.mpr
          intro pt hpt
          rcases (hideal.opens _ _ _ _ _ _ _ _).mp hpt with ⟨rfl, rfl, _, _⟩
          exact hcollides ⟨run, ssb, hdecaps, hkeys⟩
        dsimp only
        rw [keyScheduleUnchecked, hkeys, Option.getD_some]
        dsimp only
        rw [hclosed]
        rfl

/-- Over right primitives the fault build reports every input that comes to a
secret, and the shipped build the inputs whose changed `enc` gives the
sender's key; the info that is taken for a different one comes before both.
Nothing is reported where the KEM does not fit the buffers. -/
theorem hpke_exact {b : Backend} {lib : Libraries b} (stack : Stack) {data : Bytes}
    (hideal : Ideal lib (parse data).info) :
    (¬ (6 ≤ data.length ∧ b.Fits ∧ Encapsulates lib) →
      violation (faultBuild lib stack data) = none ∧
      violation (llvmFuzzerTestOneInput lib stack data) = none) ∧
    (6 ≤ data.length ∧ b.Fits ∧ Encapsulates lib →
      (AltSealed data →
        violation (faultBuild lib stack data) =
          some ⟨b.kemName, contextBinding, "different info still opened ciphertext", false⟩ ∧
        violation (llvmFuzzerTestOneInput lib stack data) =
          some ⟨b.kemName, contextBinding, "different info still opened ciphertext", false⟩) ∧
      (¬ AltSealed data →
        violation (faultBuild lib stack data) = some (upstreamViolation b) ∧
        (Collides lib data → violation (llvmFuzzerTestOneInput lib stack data) =
          some (upstreamViolation b)) ∧
        (¬ Collides lib data → violation (llvmFuzzerTestOneInput lib stack data) = none))) := by
  rw [run_eq_runWith, faultBuild]
  constructor
  · intro hreached
    rw [runWith_silent hreached, runWith_silent hreached]
    exact ⟨rfl, rfl⟩
  · rintro ⟨hsize, hfits, hencaps⟩
    rcases hideal.honestRun hencaps with ⟨run, hss⟩
    constructor
    · intro halt
      exact ⟨(runWith_violation hfits hsize hideal run hss).1 halt,
        (runWith_violation hfits hsize hideal run hss).1 halt⟩
    · intro halt
      rw [(runWith_violation hfits hsize hideal run hss).2 halt,
        (runWith_violation hfits hsize hideal run hss).2 halt]
      exact ⟨faultTamperChecks_ideal hideal run, tamperChecks_ideal hideal run⟩

end

theorem framedLib_encapsulates (b : Backend) : Encapsulates (framedLib b) :=
  ⟨_, _, _, rfl, rfl⟩

theorem framedLib_not_collides : ¬ Collides (framedLib .x25519) [0, 1, 2, 3, 4, 5] := by
  rintro ⟨run, ssb, hdecaps, hkeys⟩
  rcases run.unique (framedRun .x25519 (parse [0, 1, 2, 3, 4, 5]).info) with ⟨_, henc, hks, hns⟩
  have hother : (framedLib .x25519).kemDecaps run.sk
      (encBad (parse [0, 1, 2, 3, 4, 5]).tflag (framedRun .x25519 []).enc) =
        some (Vector.replicate _ 4) := congrArg some (if_neg (by decide +kernel))
  rw [henc] at hdecaps
  have hssb : ssb = Vector.replicate _ 4 := Option.some.inj (hdecaps.symm.trans hother)
  rw [hssb, hks, hns] at hkeys
  exact absurd hkeys (by decide +kernel)

theorem hpke_exact_framed :
    violation (faultBuild (framedLib .mlKem768) zeroStack [0, 1, 2, 3, 4, 5]) = none ∧
    violation (faultBuild (framedLib .x25519) zeroStack [8, 1, 0xA5, 0, 0, 0, 0, 0, 0, 0]) =
      some ⟨Backend.x25519.kemName, contextBinding, "different info still opened ciphertext",
        false⟩ ∧
    violation (faultBuild (framedLib .x25519) zeroStack [0, 1, 2, 3, 4, 5]) =
      some (upstreamViolation .x25519) ∧
    violation (llvmFuzzerTestOneInput (framedLib .x25519) zeroStack [0, 1, 2, 3, 4, 5]) =
      none := by
  have hlarge := hpke_exact zeroStack
    (framedLib_ideal .mlKem768 (fun h => absurd h (by decide)) :
      Ideal (framedLib .mlKem768) (parse [0, 1, 2, 3, 4, 5]).info)
  have halt := hpke_exact zeroStack
    (framedLib_ideal .x25519 (fun _ => by decide) :
      Ideal (framedLib .x25519) (parse [8, 1, 0xA5, 0, 0, 0, 0, 0, 0, 0]).info)
  have hplain := hpke_exact zeroStack
    (framedLib_ideal .x25519 (fun h => absurd h (by decide)) :
      Ideal (framedLib .x25519) (parse [0, 1, 2, 3, 4, 5]).info)
  have hfits : Backend.x25519.Fits := (Backend.fits_iff _).mpr rfl
  have hunfit : ¬ Backend.mlKem768.Fits := fun h => absurd ((Backend.fits_iff _).mp h) (by decide)
  have hreached := hplain.2 ⟨by decide, hfits, framedLib_encapsulates _⟩
  have hother : ¬ AltSealed [0, 1, 2, 3, 4, 5] := fun h => absurd h.2 (by decide)
  constructor
  · exact (hlarge.1 fun h => hunfit h.2.1).1
  constructor
  · exact ((halt.2 ⟨by decide, hfits, framedLib_encapsulates _⟩).1 ⟨by decide, by decide⟩).1
  constructor
  · exact (hreached.2 hother).1
  · exact (hreached.2 hother).2.2 framedLib_not_collides

end Hpke
end CMFuzz
