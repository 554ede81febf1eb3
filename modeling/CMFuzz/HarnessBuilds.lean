import CMFuzz.SeededSchemes

/-!
# Plain and fault builds of the liboqs harnesses

The harnesses of `ReplayHarnesses` with their self-test hooks `CMF_FAULT_MR1`,
`CMF_FAULT_MR3`, `CMF_FAULT_KEMSWAP` and `CMF_FAULT_AK`.
-/

namespace CMFuzz
namespace Replay

open BlockModes
open ByteCodec
open Engine
open RandomPrograms

/-! ## Builds -/

/-- With `CMF_FAULT_MR1` the recovered secret is corrupted. -/
def liboqsKemBuild (fault : Bool) (k : OqsKem) (mode : UInt8) (sel : UInt32) (tail : Bytes) :
    Exec Unit := do
  let some (pk, sk) ← keypair k | pure ()
  let some (ct, ssE) ← encaps k pk | pure ()
  let some ssD ← decaps k ct sk
    | cmfAssert ⟨k.name, "MR1_decaps_status", "decaps failed on honest ct", false⟩
  let ssD := if fault then ssD.modify 0 (· ^^^ 0xff) else ssD
  cmfAssert ⟨k.name, "MR1_correctness", "shared secrets differ", ssE = ssD⟩
  let ssD2 ← decaps k ct sk
  cmfAssert ⟨k.name, "MR4_determinism", "decaps not deterministic", ssD2.all (· = ssD)⟩
  if mode &&& 0x01 ≠ 0 then
    let ctm := ct.modify (sel.toNat % k.lengthCiphertext) (· ^^^ selectedBit sel)
    let ssD2 ← decaps k ctm sk
    cmfAssert ⟨k.name, "MR2_malleability", "mutated ct yields honest shared secret",
      ssD2 ≠ some ssE⟩
  if mode &&& 0x02 ≠ 0 then
    if let some (_, sk2) ← keypair k then
      let ssD2 ← decaps k ct sk2
      cmfAssert ⟨k.name, "MR3_wrong_key", "foreign sk recovers honest shared secret",
        ssD2 ≠ some ssE⟩
  if mode &&& 0x04 ≠ 0 then
    let n := min tail.length k.lengthCiphertext
    let _ ← decaps k (tail.take n ++ ct.drop n) sk

/-- `CMF_FAULT_MR3` changes the first byte of the signature and puts it back. -/
def touched (sig : Bytes) : Bytes := (sig.modify 0 (· ^^^ 0x01)).set 0 (sig.getD 0 0)

def liboqsSigBuild (fault : Bool) (s : OqsSig) (mode : UInt8) (sel : UInt32) (tail : Bytes) :
    Exec Unit := do
  let msg := sigMessage tail
  let some (pk, sk) ← sigKeypair s | pure ()
  let some sig ← sign s msg sk | pure ()
  let valid ← verify s msg sig pk
  cmfAssert ⟨s.name, "MR1_correctness", "valid signature rejected", valid⟩
  let sig := if fault ∧ 0 < sig.length then touched sig else sig
  if fault ∧ 0 < sig.length then
    let accepted ← verify s msg sig pk
    cmfAssert ⟨s.name, "MR3_strong_unforgeability",
      "mutated signature still verifies (SUF violation)", !accepted⟩
  if mode &&& 0x01 ≠ 0 ∧ 1 < msg.length then
    let m2 := msg.modify (sel.toNat % msg.length) (· ^^^ 0x01)
    let accepted ← verify s m2 sig pk
    cmfAssert ⟨s.name, "MR2_message_binding", "signature verifies for altered message",
      !accepted⟩
  if mode &&& 0x02 ≠ 0 ∧ 0 < sig.length then
    let sg := sig.modify (sel.toNat % sig.length) (· ^^^ selectedBit sel)
    if sg ≠ sig then
      let accepted ← verify s msg sg pk
      cmfAssert ⟨s.name, "MR3_strong_unforgeability",
        "mutated signature still verifies (SUF violation)", !accepted⟩
  if mode &&& 0x04 ≠ 0 then
    if let some (pk2, _) ← sigKeypair s then
      let accepted ← verify s msg sig pk2
      cmfAssert ⟨s.name, "MR4_wrong_key", "signature verifies under foreign public key",
        !accepted⟩
  if mode &&& 0x08 ≠ 0 then
    let n := min tail.length s.lengthSignature
    let _ ← verify s msg (tail.take n) pk

/-- With `CMF_FAULT_KEMSWAP` the wrong key returns the sender's secret. -/
def seqPqcBuild (fault : Bool) (k : OqsKem) : Exec Unit := do
  let some (pkA, skA) ← keypair k | pure ()
  let some (_, skB) ← keypair k | pure ()
  let some (ct, ssEnc) ← encaps k pkA | pure ()
  if let some ssA ← decaps k ct skA then
    cmfAssert ⟨"ML-KEM-768/seq", "O6-kem-roundtrip",
      "honest KEM decapsulation did not agree", ssA = ssEnc⟩
  if let some ssB ← decaps k ct skB then
    let ssB := if fault then ssEnc else ssB
    cmfAssert ⟨"ML-KEM-768/seq", "O6-kem-key-confusion",
      "wrong-key decapsulation falsely agreed with sender", ssB ≠ ssEnc⟩

/-- `AK_MSG`: with `CMF_FAULT_AK` the signed transcript is constant. -/
def akMsg (fault : Bool) (enc : Bytes) : Bytes := if fault then [0, 0, 0, 0] else enc

def runCaseBuild (fault : Bool) (lib : Libraries) (rest : Bytes) : Exec Unit := do
  let some (pkR, skR) ← keypair lib.kem | pure ()
  let some (pkS, skS) ← sigKeypair lib.sig | pure ()
  let some (enc, ssS) ← encaps lib.kem pkR | pure ()
  let signed ← sign lib.sig (akMsg fault enc) skS
  let sig := signed.getD []
  let v ← verify lib.sig (akMsg fault enc) sig pkS
  cmfAssert ⟨akName, "O5-roundtrip", "signature over enc failed to verify", v⟩
  if let some ssR ← decaps lib.kem enc skR then
    let m := rest.take 1024
    let pt := lib.gcmOpen (lib.hkdf32 ssR) (lib.gcmSeal (lib.hkdf32 ssS) m)
    cmfAssert ⟨akName, "O5-roundtrip", "AEAD record mismatch",
      pt.any fun pt => pt.take m.length = m⟩
  let v2 ← verify lib.sig (akMsg fault (enc.modify 0 (· ^^^ 0x01))) sig pkS
  cmfAssert ⟨akName, "O5-transcript-binding", "signature accepted a swapped encapsulation",
    !v2⟩

theorem liboqsKemBuild_plain : liboqsKemBuild false = liboqsKemBody := rfl

theorem seqPqcBuild_plain : seqPqcBuild false = seqPqcBody := rfl

theorem runCaseBuild_plain : runCaseBuild false = runCase := rfl

theorem liboqsSigBuild_plain : liboqsSigBuild false = liboqsSigBody := rfl

end Replay
end CMFuzz
