import CMFuzz.BlockModes
import CMFuzz.ReaderRuns
import CMFuzz.Streams

/-!
# Metamorphic tests of traditional primitives

`trad_metamorphic_harness` and `openssl_classic_harness`: a text hashed in
pieces against the whole text, HMAC under a changed key, and authenticated
encryption that is opened, tampered with and opened again.  OpenSSL's digests
are streams, and its AEAD ciphers a ciphertext with a tag over it.
-/

namespace CMFuzz
namespace Traditional

open BlockModes
open ByteCodec
open Engine
open SplitMix

/-! ## OpenSSL -/

inductive Cipher where
  | aes256gcm
  | chacha20poly1305
  deriving DecidableEq, Repr

def Cipher.alg : Cipher → String
  | .aes256gcm => "AES-256-GCM"
  | .chacha20poly1305 => "ChaCha20-Poly1305"

/-- An AEAD cipher: a ciphertext of the text's length, and 16 bytes of tag over
it and the additional data. -/
structure Aead where
  encrypt : Bytes → Bytes → Bytes → Bytes
  decrypt : Bytes → Bytes → Bytes → Bytes
  tag : Bytes → Bytes → Bytes → Bytes → Bytes
  decrypt_encrypt : ∀ key iv m, decrypt key iv (encrypt key iv m) = m
  encrypt_length : ∀ key iv m, (encrypt key iv m).length = m.length
  tag_length : ∀ key iv aad ct, (tag key iv aad ct).length = 16

structure Library (σ : Type) where
  /-- `EVP_Digest`. -/
  sha256 : Bytes → Bytes
  /-- `EVP_DigestInit_ex`, `EVP_DigestUpdate` and `EVP_DigestFinal_ex`. -/
  context : Stream σ UInt8 Bytes
  hmac : Bytes → Bytes → Bytes
  aead : Cipher → Aead

structure Library.Lawful {σ : Type} (lib : Library σ) : Prop where
  context : lib.context.Lawful
  digest : ∀ m, lib.sha256 m = lib.context.digest m

/-- `EVP_DecryptFinal_ex` compares the tags. -/
def Aead.opened (a : Aead) (key iv aad ct tag : Bytes) : Option Bytes :=
  if tag = a.tag key iv aad ct then some (a.decrypt key iv ct) else none

/-- `ct||tag`. -/
def aeadEncrypt (a : Aead) (key iv aad m : Bytes) : Bytes :=
  a.encrypt key iv m ++ a.tag key iv aad (a.encrypt key iv m)

def aeadDecrypt (a : Aead) (key iv aad ct : Bytes) : Option Bytes :=
  a.opened key iv aad (ct.take (ct.length - 16)) (ct.drop (ct.length - 16))

section

variable (a : Aead) (key iv aad : Bytes)

theorem opened_encrypt (m : Bytes) :
    a.opened key iv aad (a.encrypt key iv m) (a.tag key iv aad (a.encrypt key iv m)) = some m := by
  rw [Aead.opened, if_pos rfl, a.decrypt_encrypt]

theorem aeadDecrypt_append (ct : Bytes) {tag : Bytes} (htag : tag.length = 16) :
    aeadDecrypt a key iv aad (ct ++ tag) = a.opened key iv aad ct tag := by
  have hcut : (ct ++ tag).length - 16 = ct.length := by
    rw [List.length_append, htag, Nat.add_sub_cancel]
  rw [aeadDecrypt, hcut, List.take_left, List.drop_left]

theorem aeadDecrypt_aeadEncrypt (m : Bytes) :
    aeadDecrypt a key iv aad (aeadEncrypt a key iv aad m) = some m := by
  rw [aeadEncrypt, aeadDecrypt_append a key iv aad _ (a.tag_length _ _ _ _), opened_encrypt]

/-- The last byte is a byte of the tag. -/
theorem aeadDecrypt_tampered (m : Bytes) :
    aeadDecrypt a key iv aad ((aeadEncrypt a key iv aad m).modify
      ((aeadEncrypt a key iv aad m).length - 1) (· ^^^ 0x01)) = none := by
  have htag := a.tag_length key iv aad (a.encrypt key iv m)
  have hlast : (aeadEncrypt a key iv aad m).length - 1 = (a.encrypt key iv m).length + 15 := by
    rw [aeadEncrypt, List.length_append, htag]
    rfl
  have hindex : 15 < (a.tag key iv aad (a.encrypt key iv m)).length := by
    rw [htag]
    decide
  rw [hlast, aeadEncrypt, modify_append_right, aeadDecrypt_append]
  · exact if_neg (modify_xor_ne hindex (by decide))
  · rw [List.length_modify, htag]

/-- Another key opens what has the same tag under both keys. -/
theorem aeadDecrypt_otherKey (key' m : Bytes) :
    (aeadDecrypt a key' iv aad (aeadEncrypt a key iv aad m)).isSome = true ↔
      a.tag key iv aad (a.encrypt key iv m) = a.tag key' iv aad (a.encrypt key iv m) := by
  rw [aeadEncrypt, aeadDecrypt_append a key' iv aad _ (a.tag_length _ _ _ _), Aead.opened]
  split
  · rename_i h
    exact iff_of_true rfl h
  · rename_i h
    exact iff_of_false Bool.false_ne_true h

end

/-! ## `trad_metamorphic_harness` -/

def splitPoint (m : Bytes) : ℕ :=
  if m.length ≠ 0 then (m.headD 0).toNat % (m.length + 1) else 0

def testSha256 {σ : Type} (lib : Library σ) (fault : Bool) (m : Bytes) : List Check :=
  let d1 := lib.sha256 m
  let d2 := lib.sha256 m
  let k := splitPoint m
  let c := lib.context.update lib.context.init (m.take k)
  let c := lib.context.update c (m.drop k)
  -- `CMF_FAULT_TRAD` changes the split after both updates, where nothing reads it
  let _k := if fault = true ∧ 0 < m.length then k ^^^ 1 else k
  let d3 := lib.context.final c
  [⟨"SHA-256", "determinism", "H(m)!=H(m)", d1 = d2⟩,
    ⟨"SHA-256", "chunk_consistency", "H(m) != update(m[:k]);update(m[k:])", d1 = d3⟩]

def testHmac {σ : Type} (lib : Library σ) (key m : Bytes) : List Check :=
  let t1 := lib.hmac key m
  let t2 := lib.hmac key m
  let t3 := lib.hmac (key.modify 0 (· ^^^ 0x80)) m
  [⟨"HMAC-SHA256", "determinism", "tag!=tag", t1 = t2⟩,
    ⟨"HMAC-SHA256", "key_sensitivity", "different key produced identical tag", t1 ≠ t3⟩]

def testAead (a : Aead) (alg : String) (fault : Bool) (key iv aad m : Bytes) : List Check :=
  let m := m.take 1200
  let ct := aeadEncrypt a key iv aad m
  let pt := aeadDecrypt a key iv aad ct
  let bad := ct.modify (ct.length - 1) (· ^^^ 0x01)
  let roundtrip : List Check :=
    [⟨alg, "roundtrip", "Dec(Enc(m)) failed to authenticate", pt.isSome⟩,
      ⟨alg, "roundtrip", "Dec(Enc(m)) != m", pt.any fun pt => pt.take m.length = m⟩]
  let rejects : List Check :=
    if fault then [⟨alg, "tamper_reject", "tampered tag still authenticated", false⟩]
    else
      [⟨alg, "tamper_reject", "tampered tag still authenticated",
          (aeadDecrypt a key iv aad bad).isNone⟩,
        ⟨alg, "wrong_key", "wrong key still authenticated",
          (aeadDecrypt a (key.modify 0 (· ^^^ 0x01)) iv aad ct).isNone⟩]
  roundtrip ++ rejects

/-- What an input chooses. -/
structure Args where
  op : ℕ
  key : Bytes
  iv : Bytes
  aad : Bytes
  msg : Bytes
  p : Bytes

def keyMaterial : Draw (Bytes × Bytes) := do
  let key ← cmfRandombytes 32
  let iv ← cmfRandombytes 12
  pure (key, iv)

def tradArgs (data : Bytes) : Args :=
  let (op, r) := cmfU8 (cmfReaderInit data)
  let (split, r) := cmfU8 r
  let (key, iv) := (keyMaterial (cmfPrngSeed data)).1
  let p := (cmfRest r).1
  let adn := if p.length ≠ 0 then split.toNat % (p.length + 1) else 0
  ⟨op.toNat % 4, key, iv, p.take adn, p.drop adn, p⟩

def Args.cipher (x : Args) : Cipher := if x.op = 2 then .aes256gcm else .chacha20poly1305

/-- `LLVMFuzzerTestOneInput` of `trad_metamorphic_harness`. -/
def tradTestOneInput {σ : Type} (lib : Library σ) (fault : Bool) (data : Bytes) : List Check :=
  if data.length < 4 then []
  else
    let x := tradArgs data
    if x.op = 0 then testSha256 lib fault x.p
    else if x.op = 1 then testHmac lib x.key x.p
    else testAead (lib.aead x.cipher) x.cipher.alg fault x.key x.iv x.aad x.msg

theorem violation_testSha256 {σ : Type} {lib : Library σ} (hlib : lib.Lawful) (fault : Bool)
    (m : Bytes) : violation (testSha256 lib fault m) = none := by
  have hpieces : lib.context.update (lib.context.update lib.context.init (m.take (splitPoint m)))
      (m.drop (splitPoint m)) = lib.context.update lib.context.init m := by
    rw [← hlib.context.update_append, List.take_append_drop]
  have hdigest : lib.sha256 m = lib.context.final (lib.context.update lib.context.init m) :=
    hlib.digest m
  rw [testSha256]
  rw [hpieces, ← hdigest]
  simp [violation]

theorem violation_testHmac {σ : Type} (lib : Library σ) (key m : Bytes) :
    violation (testHmac lib key m) =
      if lib.hmac key m = lib.hmac (key.modify 0 (· ^^^ 0x80)) m then
        some ⟨"HMAC-SHA256", "key_sensitivity", "different key produced identical tag", false⟩
      else none := by
  rw [testHmac]
  split
  · rename_i h
    rw [← h]
    simp [violation]
  · rename_i h
    simp [violation, h]

/-- A tag over the encrypted text that two keys share. -/
def Aead.TagsCollide (a : Aead) (key key' iv aad m : Bytes) : Prop :=
  a.tag key iv aad (a.encrypt key iv m) = a.tag key' iv aad (a.encrypt key iv m)

instance (a : Aead) (key key' iv aad m : Bytes) : Decidable (a.TagsCollide key key' iv aad m) :=
  inferInstanceAs (Decidable (_ = _))

theorem violation_testAead (a : Aead) (alg : String) (fault : Bool) (key iv aad m : Bytes) :
    violation (testAead a alg fault key iv aad m) =
      if fault = true then
        some ⟨alg, "tamper_reject", "tampered tag still authenticated", false⟩
      else if a.TagsCollide key (key.modify 0 (· ^^^ 0x01)) iv aad (m.take 1200) then
        some ⟨alg, "wrong_key", "wrong key still authenticated", false⟩
      else none := by
  have hother := aeadDecrypt_otherKey a key iv aad (key.modify 0 (· ^^^ 0x01)) (m.take 1200)
  rw [testAead]
  rw [aeadDecrypt_aeadEncrypt, aeadDecrypt_tampered]
  cases fault with
  | true => simp [violation]
  | false =>
      by_cases hcollide : a.TagsCollide key (key.modify 0 (· ^^^ 0x01)) iv aad (m.take 1200)
      · have hnone : (aeadDecrypt a (key.modify 0 (· ^^^ 0x01)) iv aad
            (aeadEncrypt a key iv aad (m.take 1200))).isNone = false := by
          rw [← Option.not_isSome, hother.mpr hcollide]
          rfl
        rw [hnone, if_neg Bool.false_ne_true, if_pos hcollide]
        simp [violation]
      · have hnone : (aeadDecrypt a (key.modify 0 (· ^^^ 0x01)) iv aad
            (aeadEncrypt a key iv aad (m.take 1200))).isNone = true := by
          rw [← Option.not_isSome, Bool.not_eq_true', ← Bool.not_eq_true]
          exact fun h => hcollide (hother.mp h)
        rw [hnone, if_neg Bool.false_ne_true, if_neg hcollide]
        simp [violation]

/-- On a lawful digest the shipped harness reports a key that HMAC or the tag
does not see, and nothing else.  The build with `CMF_FAULT_TRAD` reports every
AEAD input; on the others its checks are those of the shipped harness. -/
theorem trad_metamorphic_exact {σ : Type} {lib : Library σ} (hlib : lib.Lawful) (data : Bytes) :
    let x := tradArgs data
    (violation (tradTestOneInput lib false data) =
      if data.length < 4 then none
      else if x.op = 1 ∧ lib.hmac x.key x.p = lib.hmac (x.key.modify 0 (· ^^^ 0x80)) x.p then
        some ⟨"HMAC-SHA256", "key_sensitivity", "different key produced identical tag", false⟩
      else if 2 ≤ x.op ∧ (lib.aead x.cipher).TagsCollide x.key (x.key.modify 0 (· ^^^ 0x01)) x.iv
          x.aad (x.msg.take 1200) then
        some ⟨x.cipher.alg, "wrong_key", "wrong key still authenticated", false⟩
      else none) ∧
    (x.op < 2 → violation (tradTestOneInput lib true data) =
      violation (tradTestOneInput lib false data)) ∧
    (2 ≤ x.op → violation (tradTestOneInput lib true data) =
      if data.length < 4 then none
      else some ⟨x.cipher.alg, "tamper_reject", "tampered tag still authenticated", false⟩) := by
  intro x
  have hrun : ∀ fault, ¬ data.length < 4 → violation (tradTestOneInput lib fault data) =
      if x.op = 0 then violation (testSha256 lib fault x.p)
      else if x.op = 1 then violation (testHmac lib x.key x.p)
      else violation (testAead (lib.aead x.cipher) x.cipher.alg fault x.key x.iv x.aad x.msg) := by
    intro fault hsize
    rw [tradTestOneInput, if_neg hsize, apply_ite violation, apply_ite violation]
  by_cases hsize : data.length < 4
  · have hquiet : ∀ fault, violation (tradTestOneInput lib fault data) = none := by
      intro fault
      rw [tradTestOneInput, if_pos hsize]
      rfl
    rw [hquiet, hquiet, if_pos hsize, if_pos hsize]
    exact ⟨rfl, fun _ => rfl, fun _ => rfl⟩
  · rw [hrun _ hsize, hrun _ hsize, if_neg hsize, if_neg hsize]
    rcases Nat.lt_or_ge x.op 2 with hlow | hhigh
    · rcases Nat.le_one_iff_eq_zero_or_eq_one.mp (Nat.lt_succ_iff.mp hlow) with hzero | hone
      · rw [if_pos hzero, if_pos hzero, violation_testSha256 hlib, violation_testSha256 hlib,
          if_neg fun h => by omega, if_neg fun h => by omega]
        exact ⟨rfl, fun _ => rfl, fun h => by omega⟩
      · have hzero : x.op ≠ 0 := by omega
        rw [if_neg hzero, if_neg hzero, if_pos hone, if_pos hone, violation_testHmac]
        refine ⟨?_, fun _ => rfl, fun h => by omega⟩
        simp only [hone, true_and]
        split
        · rfl
        · exact (if_neg fun h => by omega).symm
    · have hzero : x.op ≠ 0 := by omega
      have hone : x.op ≠ 1 := by omega
      rw [if_neg hzero, if_neg hzero, if_neg hone, if_neg hone, violation_testAead,
        violation_testAead, if_neg Bool.false_ne_true, if_pos rfl]
      refine ⟨?_, fun h => by omega, fun _ => rfl⟩
      simp only [hone, false_and, ↓reduceIte, hhigh, true_and]

/-- Blocks of four bytes, and tags that show the key. -/
def shortBlocks : BlockStream UInt8 UInt8 Bytes where
  size := 4
  size_pos := Nat.succ_pos 3
  start := 7
  compress := fun c block => block.foldl (fun c b => 31 * c + b) c
  finish := fun c rest => [c, rest.foldl (fun c b => 31 * c + b) 1]

def keyedTags : Aead where
  encrypt := fun _ _ m => m
  decrypt := fun _ _ ct => ct
  tag := fun key _ _ _ => (key ++ List.replicate 16 0).take 16
  decrypt_encrypt _ _ _ := rfl
  encrypt_length _ _ _ := rfl
  tag_length key _ _ _ := by
    rw [List.length_take, List.length_append, List.length_replicate]
    omega

def shortLib : Library shortBlocks.State where
  sha256 := shortBlocks.stream.digest
  context := shortBlocks.stream
  hmac := fun key m => key ++ m
  aead := fun _ => keyedTags

theorem shortLib_lawful : shortLib.Lawful := ⟨shortBlocks.stream_lawful, fun _ => rfl⟩

theorem trad_metamorphic_exact_tampered :
    violation (tradTestOneInput shortLib true [2, 0, 7, 7]) =
      some ⟨"AES-256-GCM", "tamper_reject", "tampered tag still authenticated", false⟩ :=
  (trad_metamorphic_exact shortLib_lawful [2, 0, 7, 7]).2.2 (by decide)

/-! ## `openssl_classic_harness` -/

def digestOracle {σ : Type} (lib : Library σ) (msg : Bytes) : List Check :=
  let d1 := lib.context.final (lib.context.update lib.context.init msg)
  let step := msg.length % 17 + 1
  let pieces := Stream.piecesFrom msg step msg.length 0
  let d2 := lib.context.final (pieces.foldl lib.context.update lib.context.init)
  [⟨"OpenSSL-SHA256", "MR1_chunk_equiv", "chunked != one-shot digest", d1 = d2⟩]

def classicAlg : String := "OpenSSL-AES-256-GCM"

def aeadChecks (a : Aead) (sel : UInt32) (key iv pt : Bytes) : List Check :=
  let ct := a.encrypt key iv pt
  let tag := a.tag key iv [] ct
  let dec := a.opened key iv [] ct tag
  let ct2 := ct.modify (sel.toNat % pt.length) (· ^^^ 0x01)
  let dec2 := a.opened key iv [] ct2 tag
  [⟨classicAlg, "MR2_roundtrip", "AEAD roundtrip mismatch", dec.any (· = pt)⟩,
    ⟨classicAlg, "MR3_tamper", "tampered ciphertext authenticated", dec2.isNone⟩]

/-- What an input chooses, with the key material that `aead_oracle` draws. -/
structure ClassicArgs where
  mode : UInt8
  sel : UInt32
  key : Bytes
  iv : Bytes
  rest : Bytes

def classicArgs (data : Bytes) : ClassicArgs :=
  let (mode, r) := cmfU8 (cmfReaderInit data)
  let (sel, r) := cmfU32 r
  let (key, iv) := (keyMaterial (cmfPrngSeed data)).1
  ⟨mode, sel, key, iv, (cmfRest r).1⟩

def aeadOracle (a : Aead) (x : ClassicArgs) : List Check :=
  if x.rest.length = 0 ∨ 4096 < x.rest.length then []
  else aeadChecks a x.sel x.key x.iv x.rest

/-- `LLVMFuzzerTestOneInput` of `openssl_classic_harness`. -/
def classicTestOneInput {σ : Type} (lib : Library σ) (data : Bytes) : List Check :=
  if data.length < 8 then []
  else
    let x := classicArgs data
    if x.mode.toNat % 2 = 0 then digestOracle lib x.rest
    else aeadOracle (lib.aead .aes256gcm) x

theorem violation_digestOracle {σ : Type} {lib : Library σ} (hlib : lib.Lawful) (msg : Bytes) :
    violation (digestOracle lib msg) = none := by
  rw [digestOracle]
  rw [hlib.context.foldl_pieces _ _ (Nat.succ_pos _)]
  simp [violation]

theorem violation_aeadChecks (a : Aead) (sel : UInt32) (key iv pt : Bytes) :
    violation (aeadChecks a sel key iv pt) =
      if a.tag key iv [] (a.encrypt key iv pt) =
          a.tag key iv []
            ((a.encrypt key iv pt).modify (sel.toNat % pt.length) (· ^^^ 0x01)) then
        some ⟨classicAlg, "MR3_tamper", "tampered ciphertext authenticated", false⟩
      else none := by
  rw [aeadChecks]
  rw [opened_encrypt, Aead.opened]
  split
  · simp [violation]
  · simp [violation]

/-- A lawful digest is never reported, however the loop cuts its text.  AES-GCM
is reported exactly where the tag does not see the changed byte. -/
theorem classic_exact {σ : Type} {lib : Library σ} (hlib : lib.Lawful) (data : Bytes) :
    let x := classicArgs data
    let a := lib.aead .aes256gcm
    violation (classicTestOneInput lib data) =
      if 8 ≤ data.length ∧ x.mode.toNat % 2 = 1 ∧ 0 < x.rest.length ∧ x.rest.length ≤ 4096 ∧
          a.tag x.key x.iv [] (a.encrypt x.key x.iv x.rest) = a.tag x.key x.iv []
            ((a.encrypt x.key x.iv x.rest).modify (x.sel.toNat % x.rest.length) (· ^^^ 0x01)) then
        some ⟨classicAlg, "MR3_tamper", "tampered ciphertext authenticated", false⟩
      else none := by
  intro x a
  rw [classicTestOneInput]
  by_cases hsize : data.length < 8
  · rw [if_pos hsize, if_neg fun h => by omega]
    rfl
  · rw [if_neg hsize]
    by_cases hmode : x.mode.toNat % 2 = 0
    · rw [if_pos hmode, violation_digestOracle hlib, if_neg fun h => by omega]
    · rw [if_neg hmode, aeadOracle]
      by_cases hlen : x.rest.length = 0 ∨ 4096 < x.rest.length
      · rw [if_pos hlen, if_neg fun h => by omega]
        rfl
      · rw [if_neg hlen, violation_aeadChecks]
        have hrange : 8 ≤ data.length ∧ x.mode.toNat % 2 = 1 ∧ 0 < x.rest.length ∧
            x.rest.length ≤ 4096 := by omega
        simp only [hrange.1, hrange.2.1, hrange.2.2.1, hrange.2.2.2, true_and]
        rfl

theorem classic_exact_digest :
    violation (classicTestOneInput shortLib [4, 0, 0, 0, 0, 9, 9, 9]) = none :=
  (classic_exact shortLib_lawful [4, 0, 0, 0, 0, 9, 9, 9]).trans
    (if_neg fun h => absurd h.2.1 (by decide))

end Traditional
end CMFuzz
