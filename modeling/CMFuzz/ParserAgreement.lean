import CMFuzz.BridgeParsers

/-!
# Agreement of the five parser families

The blob parsers of the bridges agree with `cmf_vec_parse` on every blob that
holds a full header, and the verify-payload parsers agree with
`cmf_verify_parse` except where Python truncates a signature that runs past
the end of its payload.
-/

namespace CMFuzz

open ByteCodec
open Wire

theorem slice_eq (p : Bytes) (lo hi : ℕ) :
    slice p lo hi = (p.drop lo).take (hi - lo) := by
  rw [slice, List.drop_take]

theorem getElem?_eq_getD {p : Bytes} {i : ℕ} (hi : i < p.length) :
    p[i]? = some (p.getD i 0) := by
  rw [List.getD_eq_getElem?_getD, List.getElem?_eq_getElem hi, Option.getD_some]

theorem clamp_eq_min (n limit : ℕ) :
    (if n > limit then limit else n) = min n limit := by
  split <;> omega

/-! ## Blobs -/

theorem splitBlob_eq_some {blob : Bytes} {f : BlobFields}
    (hsplit : splitBlob blob = some f) :
    ¬ blob.length < headerLen ∧
      f.key = blob.take 32 ∧ f.nonce = (blob.drop 32).take 12 ∧
      f.aad = (blob.drop 46).take
        (min (be16 (blob.getD 44 0) (blob.getD 45 0)) (blob.length - 46)) ∧
      f.msg = (blob.drop 46).drop
        (min (be16 (blob.getD 44 0) (blob.getD 45 0)) (blob.length - 46)) := by
  unfold splitBlob at hsplit
  split at hsplit
  · exact absurd hsplit (by simp)
  · next hlong =>
      obtain rfl := Option.some.inj hsplit
      refine ⟨hlong, rfl, rfl, ?_, ?_⟩ <;>
        simp [clamp_eq_min, headerLen, cmfKeylen, cmfNoncelen]

theorem GoBridge.parseVec_of_split {blob : Bytes} {f : BlobFields}
    (hsplit : splitBlob blob = some f) (op : ℤ) :
    GoBridge.parseVec op blob = ⟨op, f.key, f.msg, f.aad⟩ := by
  obtain ⟨hlong, hkey, _, haad, hmsg⟩ := splitBlob_eq_some hsplit
  unfold GoBridge.parseVec
  rw [if_neg hlong]
  simp [hkey, haad, hmsg, clamp_eq_min, GoBridge.keyLen,
    GoBridge.nonceLen]

theorem GoBridge.aeadFromBlob_of_split {blob : Bytes} {f : BlobFields}
    (hsplit : splitBlob blob = some f) :
    GoBridge.aeadFromBlob blob = some (f.key, f.nonce, f.aad, f.msg) := by
  obtain ⟨hlong, hkey, hnonce, haad, hmsg⟩ := splitBlob_eq_some hsplit
  unfold GoBridge.aeadFromBlob
  rw [if_neg hlong]
  simp [hkey, hnonce, haad, hmsg, clamp_eq_min, slice_eq,
    GoBridge.keyLen, GoBridge.nonceLen]

theorem RustBridge.parseVec_of_split {blob : Bytes} {f : BlobFields}
    (hsplit : splitBlob blob = some f) :
    RustBridge.parseVec blob = ⟨f.key, f.msg, f.aad⟩ := by
  obtain ⟨hlong, hkey, _, haad, hmsg⟩ := splitBlob_eq_some hsplit
  unfold RustBridge.parseVec
  rw [if_neg hlong]
  simp [hkey, haad, hmsg, slice_eq, cmfKeylen, cmfNoncelen]

theorem RustBridge.aeadFromBlob_of_split {blob : Bytes} {f : BlobFields}
    (hsplit : splitBlob blob = some f) :
    RustBridge.aeadFromBlob blob = some (f.key, f.nonce, f.aad, f.msg) := by
  obtain ⟨hlong, hkey, hnonce, haad, hmsg⟩ := splitBlob_eq_some hsplit
  unfold RustBridge.aeadFromBlob
  rw [if_neg hlong]
  simp [hkey, hnonce, haad, hmsg, slice_eq, cmfKeylen, cmfNoncelen]

theorem PyBridge.parse_of_split {blob : Bytes} {f : BlobFields}
    (hsplit : splitBlob blob = some f) :
    PyBridge.parse blob = ⟨f.key, f.nonce, f.aad, f.msg⟩ := by
  obtain ⟨hlong, hkey, hnonce, haad, hmsg⟩ := splitBlob_eq_some hsplit
  unfold PyBridge.parse
  rw [if_neg hlong]
  simp [hkey, hnonce, haad, hmsg, clamp_eq_min, slice_eq,
    cmfKeylen, cmfNoncelen]

theorem JavaBridge.slice_eq_some (a : Bytes) (off len : ℕ)
    (hin : off + len ≤ a.length) :
    JavaBridge.slice a off len = some ((a.drop off).take len) := by
  rw [JavaBridge.slice, if_pos hin]

theorem JavaBridge.parse_of_split {blob : Bytes} {f : BlobFields}
    (hsplit : splitBlob blob = some f) :
    JavaBridge.parse blob = some ⟨f.key, f.nonce, f.aad, f.msg⟩ := by
  obtain ⟨hlong, hkey, hnonce, haad, hmsg⟩ := splitBlob_eq_some hsplit
  simp only [headerLen, cmfKeylen, cmfNoncelen] at hlong
  have hkeyIn := JavaBridge.slice_eq_some blob 0 32 (by omega)
  have hnonceIn := JavaBridge.slice_eq_some blob 32 12 (by omega)
  have hhi := getElem?_eq_getD (p := blob) (i := 44) (by omega)
  have hlo := getElem?_eq_getD (p := blob) (i := 45) (by omega)
  generalize hn : min (be16 (blob.getD 44 0) (blob.getD 45 0)) (blob.length - 46) = n
    at haad hmsg
  have hle : n ≤ blob.length - 46 := hn ▸ Nat.min_le_right _ _
  have haadIn := JavaBridge.slice_eq_some blob 46 n (by omega)
  have hmsgIn := JavaBridge.slice_eq_some blob (46 + n) (blob.length - 46 - n) (by omega)
  have hrest : (blob.drop (46 + n)).take (blob.length - 46 - n) =
      (blob.drop 46).drop n := by
    rw [List.drop_drop]
    apply List.take_of_length_le
    rw [List.length_drop]
    omega
  unfold JavaBridge.parse
  simp only [cmfKeylen, cmfNoncelen, if_neg hlong, Nat.reduceAdd, hkeyIn, hnonceIn,
    hhi, hlo, clamp_eq_min, hn, haadIn, hmsgIn, Option.bind_eq_bind,
    Option.bind_some, hrest]
  rw [hkey, hnonce, haad, hmsg, List.drop_zero]

/-! ## Short blobs -/

/-- The parsed fields a backend has at hand for the primitive that `op` selects.
The nonce counts for ops 3 and 4 only: no other op of the bridges takes one. -/
structure Handed where
  op : ℤ
  key : Bytes
  nonce : Bytes
  aad : Bytes
  msg : Bytes
  deriving DecidableEq

def aeadNonce (op : ℤ) (nonce : Bytes) : Bytes :=
  if op = 3 ∨ op = 4 then nonce else []

def handedByC (op : ℤ) (blob : Bytes) : Handed :=
  let v := cmfVecFields op blob
  ⟨v.op, v.key, aeadNonce op v.nonce, v.aad, v.msg⟩

/-- `dispatch` of Go; `none` is a request refused before any primitive runs. -/
def handedByGo (op : ℤ) (blob : Bytes) : Option Handed :=
  if op = 3 ∨ op = 4 then
    (GoBridge.aeadFromBlob blob).map fun (key, nonce, aad, msg) =>
      ⟨op, key, nonce, aad, msg⟩
  else
    let v := GoBridge.parseVec op blob
    some ⟨v.op, v.key, [], v.aad, v.msg⟩

def handedByRust (op : ℤ) (blob : Bytes) : Option Handed :=
  if op = 3 ∨ op = 4 then
    (RustBridge.aeadFromBlob blob).map fun (key, nonce, aad, msg) =>
      ⟨op, key, nonce, aad, msg⟩
  else
    let v := RustBridge.parseVec blob
    some ⟨op, v.key, [], v.aad, v.msg⟩

def handedByJava (op : ℤ) (blob : Bytes) : Option Handed :=
  (JavaBridge.parse blob).map fun v =>
    ⟨op, v.key, aeadNonce op v.nonce, v.aad, v.msg⟩

def handedByPython (op : ℤ) (blob : Bytes) : Option Handed :=
  let v := PyBridge.parse blob
  some ⟨op, v.key, aeadNonce op v.nonce, v.aad, v.msg⟩

def BridgesMirror (op : ℤ) (blob : Bytes) : Prop :=
  handedByGo op blob = some (handedByC op blob) ∧
    handedByRust op blob = some (handedByC op blob) ∧
    handedByJava op blob = some (handedByC op blob) ∧
    handedByPython op blob = some (handedByC op blob)

theorem bridgesMirror_of_long {blob : Bytes} (hlong : headerLen ≤ blob.length)
    (op : ℤ) : BridgesMirror op blob := by
  obtain ⟨f, hsplit⟩ : ∃ f, splitBlob blob = some f := by
    rw [← Option.ne_none_iff_exists', Ne, splitBlob_eq_none_iff]
    exact Nat.not_lt.mpr hlong
  have hc : handedByC op blob = ⟨op, f.key, aeadNonce op f.nonce, f.aad, f.msg⟩ := by
    simp [handedByC, cmfVecFields, hsplit]
  unfold BridgesMirror
  rw [hc]
  refine ⟨?_, ?_, ?_, ?_⟩
  · by_cases hop : op = 3 ∨ op = 4
    · simp [handedByGo, aeadNonce, hop, GoBridge.aeadFromBlob_of_split hsplit]
    · simp [handedByGo, aeadNonce, hop, GoBridge.parseVec_of_split hsplit]
  · by_cases hop : op = 3 ∨ op = 4
    · simp [handedByRust, aeadNonce, hop, RustBridge.aeadFromBlob_of_split hsplit]
    · simp [handedByRust, aeadNonce, hop, RustBridge.parseVec_of_split hsplit]
  · simp [handedByJava, JavaBridge.parse_of_split hsplit]
  · simp [handedByPython, PyBridge.parse_of_split hsplit]

/-- On a short blob Java keeps the zero key of the C parser; Go and Rust have
no key, or refuse an AEAD request, and Python has no key. -/
theorem handed_of_short {blob : Bytes} (hshort : blob.length < headerLen) (op : ℤ) :
    (handedByC op blob).key = List.replicate 32 0 ∧
      handedByJava op blob = some (handedByC op blob) ∧
      (∀ h ∈ handedByGo op blob, h.key = []) ∧
      (∀ h ∈ handedByRust op blob, h.key = []) ∧
      ∀ h ∈ handedByPython op blob, h.key = [] := by
  have hsplit := (splitBlob_eq_none_iff blob).mpr hshort
  simp only [headerLen, cmfKeylen, cmfNoncelen] at hshort
  refine ⟨?_, ?_, ?_, ?_, ?_⟩
  · simp [handedByC, cmfVecFields, hsplit, cmfKeylen]
  · simp [handedByJava, handedByC, cmfVecFields, hsplit, JavaBridge.parse, cmfKeylen,
      cmfNoncelen, hshort]
  · by_cases hop : op = 3 ∨ op = 4
    · simp [handedByGo, hop, GoBridge.aeadFromBlob, GoBridge.keyLen, GoBridge.nonceLen,
        hshort]
    · simp [handedByGo, hop, GoBridge.parseVec, GoBridge.keyLen, GoBridge.nonceLen, hshort]
  · by_cases hop : op = 3 ∨ op = 4
    · simp [handedByRust, hop, RustBridge.aeadFromBlob, cmfKeylen, cmfNoncelen, hshort]
    · simp [handedByRust, hop, RustBridge.parseVec, cmfKeylen, cmfNoncelen, hshort]
  · simp [handedByPython, PyBridge.parse, cmfKeylen, cmfNoncelen, hshort]

theorem bridgesMirror_iff (op : ℤ) (blob : Bytes) :
    BridgesMirror op blob ↔ headerLen ≤ blob.length := by
  constructor
  · intro hmirror
    by_contra hshort
    obtain ⟨hc, _, _, _, hpy⟩ := handed_of_short (Nat.lt_of_not_le hshort) op
    have hkey := hpy _ hmirror.2.2.2
    rw [hc] at hkey
    simp at hkey
  · exact fun hlong => bridgesMirror_of_long hlong op

/-- A one-byte blob for PBKDF2 reaches Go with an empty salt, and the C CLIs
with a salt of 32 zero bytes. -/
theorem bridgesMirror_counterexample : ¬ BridgesMirror 10 [0x61] := by
  intro hmirror
  have hgo : handedByGo 10 [0x61] ≠ some (handedByC 10 [0x61]) := by decide
  exact hgo hmirror.1

/-! ## Verify payloads -/

/-- The public key and the length of the signature lie inside the payload,
but the signature itself runs past its end. -/
def SignatureRunsPastEnd (p : Bytes) : Prop :=
  let pl := be16 (p.getD 0 0) (p.getD 1 0)
  2 ≤ p.length ∧ 4 + pl ≤ p.length ∧
    p.length < 4 + pl + be16 (p.getD (2 + pl) 0) (p.getD (3 + pl) 0)

instance (p : Bytes) : Decidable (SignatureRunsPastEnd p) := by
  unfold SignatureRunsPastEnd
  infer_instance

def VerifyParsersAgree (p : Bytes) : Prop :=
  GoBridge.parseVerifyPayload p = cmfVerifyParse p ∧
    RustBridge.parseVerifyPayload p = cmfVerifyParse p ∧
    JavaBridge.parseVerify p = cmfVerifyParse p ∧
    PyBridge.parseVerify p = cmfVerifyParse p

theorem GoBridge.parseVerifyPayload_eq (p : Bytes) :
    GoBridge.parseVerifyPayload p = cmfVerifyParse p := by
  simp [GoBridge.parseVerifyPayload, cmfVerifyParse, slice_eq]

theorem RustBridge.parseVerifyPayload_eq (p : Bytes) :
    RustBridge.parseVerifyPayload p = cmfVerifyParse p := by
  simp [RustBridge.parseVerifyPayload, cmfVerifyParse, slice_eq]

/-- The exceptions of the Java parser are the explicit checks of the C one. -/
theorem JavaBridge.parseVerify_eq (p : Bytes) :
    JavaBridge.parseVerify p = cmfVerifyParse p := by
  unfold JavaBridge.parseVerify cmfVerifyParse
  by_cases hshort : p.length < 2
  · rw [if_pos hshort]
    have hend : p[1]? = none := List.getElem?_eq_none (by omega)
    cases p[0]? <;> simp [hend]
  · rw [if_neg hshort, getElem?_eq_getD (show 0 < p.length by omega),
      getElem?_eq_getD (show 1 < p.length by omega)]
    simp only [Option.bind_eq_bind, Option.bind_some]
    generalize be16 (p.getD 0 0) (p.getD 1 0) = pl
    by_cases hpub : 2 + pl + 2 > p.length
    · rw [if_pos hpub]
      by_cases hslice : 2 + pl ≤ p.length
      · rw [JavaBridge.slice_eq_some p 2 pl hslice]
        have hend : p[2 + pl + 1]? = none := List.getElem?_eq_none (by omega)
        cases p[2 + pl]? <;> simp [hend]
      · simp [JavaBridge.slice, hslice]
    · rw [if_neg hpub, JavaBridge.slice_eq_some p 2 pl (by omega),
        getElem?_eq_getD (show 2 + pl < p.length by omega),
        getElem?_eq_getD (show 2 + pl + 1 < p.length by omega)]
      simp only [Option.bind_some]
      generalize be16 (p.getD (2 + pl) 0) (p.getD (2 + pl + 1) 0) = sl
      by_cases hsig : 2 + pl + 2 + sl > p.length
      · simp [JavaBridge.slice, hsig]
      · have hmsg : 2 + pl + 2 + sl + (p.length - (2 + pl + 2 + sl)) ≤ p.length := by
          omega
        rw [if_neg hsig,
          JavaBridge.slice_eq_some p (2 + pl + 2) sl (by omega)]
        simp only [Option.bind_some]
        rw [JavaBridge.slice_eq_some p _ _ hmsg]
        simp

/-- Python checks the public key, by indexing behind it, but not the
signature: what `parse_verify` returns on a payload of sufficient length. -/
theorem PyBridge.parseVerify_eq_of_pub {p : Bytes} (hshort : ¬ p.length < 2)
    (hpub : ¬ 2 + be16 (p.getD 0 0) (p.getD 1 0) + 2 > p.length) :
    PyBridge.parseVerify p =
      let pl := be16 (p.getD 0 0) (p.getD 1 0)
      let sl := be16 (p.getD (2 + pl) 0) (p.getD (3 + pl) 0)
      some ((p.drop 2).take pl, (p.drop (4 + pl)).take sl, p.drop (4 + pl + sl)) := by
  unfold PyBridge.parseVerify
  rw [if_neg hshort, getElem?_eq_getD (show 0 < p.length by omega),
    getElem?_eq_getD (show 1 < p.length by omega)]
  simp only [Option.bind_eq_bind, Option.bind_some]
  generalize be16 (p.getD 0 0) (p.getD 1 0) = pl at hpub ⊢
  rw [getElem?_eq_getD (show 2 + pl < p.length by omega),
    getElem?_eq_getD (show 2 + pl + 1 < p.length by omega)]
  have hoff : 2 + pl + 2 = 4 + pl := by omega
  have hlow : 2 + pl + 1 = 3 + pl := by omega
  simp [slice_eq, hoff, hlow]

theorem PyBridge.parseVerify_eq {p : Bytes} (hin : ¬ SignatureRunsPastEnd p) :
    PyBridge.parseVerify p = cmfVerifyParse p := by
  by_cases hshort : p.length < 2
  · simp [PyBridge.parseVerify, cmfVerifyParse, hshort]
  by_cases hpub : 2 + be16 (p.getD 0 0) (p.getD 1 0) + 2 > p.length
  · unfold PyBridge.parseVerify cmfVerifyParse
    rw [if_neg hshort, if_neg hshort, if_pos hpub,
      getElem?_eq_getD (show 0 < p.length by omega),
      getElem?_eq_getD (show 1 < p.length by omega)]
    simp only [Option.bind_eq_bind, Option.bind_some]
    generalize be16 (p.getD 0 0) (p.getD 1 0) = pl at hpub ⊢
    have hend : p[2 + pl + 1]? = none := List.getElem?_eq_none (by omega)
    cases p[2 + pl]? <;> simp [hend]
  · rw [PyBridge.parseVerify_eq_of_pub hshort hpub]
    unfold SignatureRunsPastEnd at hin
    unfold cmfVerifyParse
    rw [if_neg hshort, if_neg hpub]
    have hoff : ∀ pl, 2 + pl + 2 = 4 + pl := by omega
    have hlow : ∀ pl, 2 + pl + 1 = 3 + pl := by omega
    simp only [hoff, hlow] at hin hpub ⊢
    rw [if_neg (by omega)]

/-- Where the signature runs past the end, C rejects and Python accepts the
bytes that are there as signature, with an empty message. -/
theorem verifyParsers_of_overrun {p : Bytes} (hover : SignatureRunsPastEnd p) :
    cmfVerifyParse p = none ∧
      ∃ pub sig, PyBridge.parseVerify p = some (pub, sig, []) := by
  obtain ⟨hlen, hpub, hsig⟩ := hover
  have hoff : ∀ pl, 2 + pl + 2 = 4 + pl := by omega
  have hlow : ∀ pl, 2 + pl + 1 = 3 + pl := by omega
  have hshort : ¬ p.length < 2 := by omega
  have hpub' : ¬ 2 + be16 (p.getD 0 0) (p.getD 1 0) + 2 > p.length := by omega
  constructor
  · unfold cmfVerifyParse
    rw [if_neg hshort, if_neg hpub']
    simp only [hoff, hlow]
    rw [if_pos hsig]
  · rw [PyBridge.parseVerify_eq_of_pub hshort hpub']
    simp only [List.drop_eq_nil_of_le hsig.le]
    exact ⟨_, _, rfl⟩

theorem verifyParsersAgree_iff (p : Bytes) :
    VerifyParsersAgree p ↔ ¬ SignatureRunsPastEnd p := by
  constructor
  · intro hagree hover
    obtain ⟨hreject, pub, sig, haccept⟩ := verifyParsers_of_overrun hover
    have hsame := hagree.2.2.2
    rw [hreject, haccept] at hsame
    exact absurd hsame (by simp)
  · intro hin
    exact ⟨GoBridge.parseVerifyPayload_eq p, RustBridge.parseVerifyPayload_eq p,
      JavaBridge.parseVerify_eq p, PyBridge.parseVerify_eq hin⟩

theorem verifyParsersAgree_counterexample : ¬ VerifyParsersAgree [0, 0, 0, 1] := by
  intro hagree
  have hpy : PyBridge.parseVerify [0, 0, 0, 1] ≠ cmfVerifyParse [0, 0, 0, 1] := by
    decide
  exact hpy hagree.2.2.2

end CMFuzz
