import CMFuzz.ByteCodec
import CMFuzz.LineStream

/-!
# The request line and its reference parser

The shared protocol of `compute_common.h`: the fixed layout
`key || nonce || aadlen || aad || msg`, the request line which carries it in
hexadecimal, and the C parser of that line.  A blob too short for the header
is all message, with a zero key and nonce; an `aadlen` beyond the end of the
blob is clamped.
-/

namespace CMFuzz
namespace Wire

open ByteCodec
open LineStream

/-! ## Field layout -/

abbrev cmfKeylen : ℕ := 32
abbrev cmfNoncelen : ℕ := 12
abbrev cmfTaglen : ℕ := 16
abbrev cmfHkdfOutlen : ℕ := 42
abbrev cmfPbkdf2Dklen : ℕ := 32
abbrev cmfEd25519Siglen : ℕ := 64
abbrev cmfX25519Len : ℕ := 32

abbrev headerLen : ℕ := cmfKeylen + cmfNoncelen + 2

structure BlobFields where
  key : Bytes
  nonce : Bytes
  aad : Bytes
  msg : Bytes
  key_length : key.length = cmfKeylen
  nonce_length : nonce.length = cmfNoncelen
  deriving DecidableEq

structure CmfVec extends BlobFields where
  op : ℤ
  deriving DecidableEq

@[ext] theorem BlobFields.ext {f g : BlobFields} (hkey : f.key = g.key)
    (hnonce : f.nonce = g.nonce) (haad : f.aad = g.aad) (hmsg : f.msg = g.msg) :
    f = g := by
  cases f
  cases g
  simp_all

def BlobFields.join (f : BlobFields) : Bytes :=
  f.key ++ (f.nonce ++ (putBe16 f.aad.length ++ (f.aad ++ f.msg)))

/-- The header split every parser of the protocol performs on a blob that is
long enough; `none` on a shorter one. -/
def splitBlob (blob : Bytes) : Option BlobFields :=
  if hshort : blob.length < headerLen then none
  else
    let aadlen := be16 (blob.getD 44 0) (blob.getD 45 0)
    let rest := blob.drop headerLen
    let aadlen := if aadlen > rest.length then rest.length else aadlen
    some {
      key := blob.take cmfKeylen
      nonce := (blob.drop cmfKeylen).take cmfNoncelen
      aad := rest.take aadlen
      msg := rest.drop aadlen
      key_length := by
        simp only [headerLen, cmfKeylen, cmfNoncelen] at hshort
        simp only [List.length_take, cmfKeylen]
        omega
      nonce_length := by
        simp only [headerLen, cmfKeylen, cmfNoncelen] at hshort
        simp only [List.length_take, List.length_drop, cmfKeylen, cmfNoncelen]
        omega }

@[simp] theorem BlobFields.join_length (f : BlobFields) :
    f.join.length = headerLen + f.aad.length + f.msg.length := by
  simp only [BlobFields.join, List.length_append, f.key_length, f.nonce_length,
    putBe16_length, headerLen]
  omega

theorem splitBlob_eq_none_iff (blob : Bytes) :
    splitBlob blob = none ↔ blob.length < headerLen := by
  unfold splitBlob
  split <;> simp_all

theorem splitBlob_join (f : BlobFields) (haad : f.aad.length < 65536) :
    splitBlob f.join = some f := by
  have hlong : ¬ f.join.length < headerLen := by
    rw [BlobFields.join_length]
    omega
  have hkey : f.join.take cmfKeylen = f.key :=
    List.take_left' f.key_length
  have hdropKey : f.join.drop cmfKeylen =
      f.nonce ++ (putBe16 f.aad.length ++ (f.aad ++ f.msg)) :=
    List.drop_left' f.key_length
  have hdropNonce : f.join.drop (cmfKeylen + cmfNoncelen) =
      putBe16 f.aad.length ++ (f.aad ++ f.msg) := by
    rw [← List.drop_drop, hdropKey]
    exact List.drop_left' f.nonce_length
  have hrest : f.join.drop headerLen = f.aad ++ f.msg := by
    rw [headerLen, ← List.drop_drop, hdropNonce]
    exact List.drop_left' (putBe16_length _)
  have hat : ∀ i, f.join.getD (44 + i) 0 =
      (putBe16 f.aad.length ++ (f.aad ++ f.msg)).getD i 0 := by
    intro i
    rw [← hdropNonce]
    exact (getD_drop f.join 44 i 0).symm
  have haadlen : be16 (f.join.getD 44 0) (f.join.getD 45 0) = f.aad.length := by
    rw [hat 0, hat 1]
    exact be16_putBe16 haad
  have hclamp : ¬ f.aad.length > (f.aad ++ f.msg).length := by
    simp
  unfold splitBlob
  rw [dif_neg hlong]
  simp only [haadlen, hrest, hclamp, if_false, Option.some.injEq]
  apply BlobFields.ext
  · exact hkey
  · show (f.join.drop cmfKeylen).take cmfNoncelen = f.nonce
    rw [hdropKey]
    exact List.take_left' f.nonce_length
  · exact List.take_left' rfl
  · exact List.drop_left' rfl

/-! ## C strings -/

abbrev CString := Bytes

/-- The part of a buffer that C string functions see. -/
def cstr (buffer : Bytes) : CString := buffer.takeWhile (· ≠ 0)

theorem cstr_eq_self {buffer : Bytes} (hnul : (0 : UInt8) ∉ buffer) :
    cstr buffer = buffer := by
  apply List.takeWhile_eq_self_iff.mpr
  intro c hc
  have hne : c ≠ 0 := fun heq => hnul (heq ▸ hc)
  simpa using hne

def isspace (c : UInt8) : Bool := c = 32 || (9 ≤ c && c ≤ 13)

def isdigit (c : UInt8) : Bool := 48 ≤ c && c ≤ 57

def digitsValue (digits : Bytes) : ℕ :=
  digits.foldl (fun n c => 10 * n + (c.toNat - 48)) 0

/-- `atoi`: the value of `strtol`, which saturates at the limits of `long`,
converted to a 32-bit `int`. -/
def atoi (s : CString) : ℤ :=
  let magnitude (t : CString) : ℤ := digitsValue (t.takeWhile isdigit)
  let value := match s.dropWhile isspace with
    | 45 :: t => max (-magnitude t) (-2 ^ 63)
    | 43 :: t => min (magnitude t) (2 ^ 63 - 1)
    | t => min (magnitude t) (2 ^ 63 - 1)
  value.bmod (2 ^ 32)

/-! ## Request parsing -/

def cmfHexval (c : UInt8) : Option ℕ :=
  if 48 ≤ c ∧ c ≤ 57 then some (c.toNat - 48)
  else if 97 ≤ c ∧ c ≤ 102 then some (c.toNat - 97 + 10)
  else if 65 ≤ c ∧ c ≤ 70 then some (c.toNat - 65 + 10)
  else none

/-- `cmf_hexdecode`: trailing newlines, carriage returns and blanks are cut
off, then `length / 2` pairs are decoded. -/
def cmfHexdecode (hex : CString) : Option Bytes :=
  decodePairs cmfHexval (hex.rdropWhile fun c => c = 10 || c = 13 || c = 32)

/-- The fields `cmf_vec_parse` stores for a decoded blob. -/
def cmfVecFields (op : ℤ) (blob : Bytes) : CmfVec :=
  match splitBlob blob with
  | some f => { f with op := op }
  | none => {
      op := op
      -- memset(v, 0): the header fields of a short blob stay zero
      key := List.replicate cmfKeylen 0
      nonce := List.replicate cmfNoncelen 0
      aad := []
      msg := blob
      key_length := List.length_replicate
      nonce_length := List.length_replicate }

def cmfVecParse (line : Bytes) : Option CmfVec :=
  match splitOnce 32 (cstr line) with
  | none => none
  | some (number, hex) =>
      match cmfHexdecode hex with
      | none => none
      | some blob => some (cmfVecFields (atoi number) blob)

def requestLine (op : ℕ) (blob : Bytes) : Bytes :=
  decimal op ++ 32 :: hexEncode blob ++ [10]

abbrev cmfNumOps : ℕ := 27

theorem cmfHexval_hexDigit : ∀ n < 16, cmfHexval (hexDigit n) = some n := by
  decide

theorem hexDigit_ne_newline : ∀ n < 16, hexDigit n ≠ 10 := by decide

theorem cmfHexdecode_hexEncode (data : Bytes) :
    cmfHexdecode (hexEncode data ++ [10]) = some data := by
  have hdigit : ∀ n < 16,
      (hexDigit n = 10 || hexDigit n = 13 || hexDigit n = 32) = false := by
    decide
  have htrim : (hexEncode data ++ [10]).rdropWhile
      (fun c => c = 10 || c = 13 || c = 32) = hexEncode data := by
    rw [List.rdropWhile_concat_pos _ _ _ (by decide), List.rdropWhile_eq_self_iff]
    intro hne
    obtain ⟨n, hn, heq⟩ := mem_hexEncode (List.getLast_mem hne)
    rw [heq, hdigit n hn]
    simp
  unfold cmfHexdecode
  rw [htrim]
  have hdecode : decodePairs cmfHexval ((hexEncode data).map id) = some data :=
    decodePairs_hexEncode cmfHexval_hexDigit data
  simpa using hdecode

theorem decimal_op : ∀ op < cmfNumOps,
    atoi (decimal op) = op ∧ ∀ c ∈ decimal op, 48 ≤ c ∧ c ≤ 57 := by
  have hall : ∀ op < cmfNumOps, atoi (decimal op) = op ∧
      (decimal op).all (fun c => 48 ≤ c ∧ c ≤ 57) = true := by
    decide
  simpa using hall

theorem not_mem_decimal_op {op : ℕ} (hop : op < cmfNumOps) {c : UInt8}
    (hc : ¬ (48 ≤ c ∧ c ≤ 57)) : c ∉ decimal op :=
  fun hmem => hc ((decimal_op op hop).2 c hmem)

theorem not_mem_requestLine {op : ℕ} (hop : op < cmfNumOps) (blob : Bytes)
    {c : UInt8} (hdec : ¬ (48 ≤ c ∧ c ≤ 57)) (hblank : c ≠ 32)
    (hhex : ∀ n < 16, hexDigit n ≠ c) :
    c ∉ decimal op ++ 32 :: hexEncode blob := by
  have hop' := not_mem_decimal_op hop hdec
  have hblob : c ∉ hexEncode blob := not_mem_hexEncode hhex
  simp [hop', hblank, hblob]

theorem cmfVecParse_requestLine {op : ℕ} (hop : op < cmfNumOps) (blob : Bytes) :
    cmfVecParse (requestLine op blob) = some (cmfVecFields op blob) := by
  have hshape : requestLine op blob = decimal op ++ 32 :: (hexEncode blob ++ [10]) := by
    simp [requestLine]
  have hnul : (0 : UInt8) ∉ requestLine op blob := by
    have hbody := not_mem_requestLine hop blob (c := 0)
      (by decide) (by decide) (by decide)
    rw [requestLine]
    simpa using hbody
  have hsplit := splitOnce_append
    (not_mem_decimal_op hop (c := 32) (by decide)) (hexEncode blob ++ [10])
  unfold cmfVecParse
  rw [cstr_eq_self hnul, hshape, hsplit]
  simp only [cmfHexdecode_hexEncode, (decimal_op op hop).1]

/-! ## Verify payloads -/

/-- `cmf_verify_parse`: `publen || pub || siglen || sig || message`, with both
declared lengths checked against the end of the payload. -/
def cmfVerifyParse (p : Bytes) : Option (Bytes × Bytes × Bytes) :=
  if p.length < 2 then none
  else
    let pl := be16 (p.getD 0 0) (p.getD 1 0)
    let off := 2
    if off + pl + 2 > p.length then none
    else
      let pub := (p.drop off).take pl
      let off := off + pl
      let sl := be16 (p.getD off 0) (p.getD (off + 1) 0)
      let off := off + 2
      if off + sl > p.length then none
      else
        let sig := (p.drop off).take sl
        let off := off + sl
        some (pub, sig, p.drop off)

/-- `BE16(|pub|) || pub || BE16(|sig|) || sig || msg`. -/
def verifyPayload (pub sig msg : Bytes) : Bytes :=
  putBe16 pub.length ++ (pub ++ (putBe16 sig.length ++ (sig ++ msg)))

theorem verifyPayload_length (pub sig msg : Bytes) :
    (verifyPayload pub sig msg).length = 4 + pub.length + sig.length + msg.length := by
  simp only [verifyPayload, List.length_append, putBe16_length]
  omega

theorem cmfVerifyParse_verifyPayload {pub sig : Bytes} (hpub : pub.length ≤ 65535)
    (hsig : sig.length ≤ 65535) (msg : Bytes) :
    cmfVerifyParse (verifyPayload pub sig msg) = some (pub, sig, msg) := by
  have hlen := verifyPayload_length pub sig msg
  have hdropPub : (verifyPayload pub sig msg).drop 2 =
      pub ++ (putBe16 sig.length ++ (sig ++ msg)) := List.drop_left' rfl
  have hdropLen : (verifyPayload pub sig msg).drop (2 + pub.length) =
      putBe16 sig.length ++ (sig ++ msg) := by
    rw [← List.drop_drop, hdropPub]
    exact List.drop_left' rfl
  have hdropSig : (verifyPayload pub sig msg).drop (2 + pub.length + 2) = sig ++ msg := by
    rw [← List.drop_drop, hdropLen]
    exact List.drop_left' rfl
  have hat : ∀ i, (verifyPayload pub sig msg).getD (2 + pub.length + i) 0 =
      (putBe16 sig.length ++ (sig ++ msg)).getD i 0 := by
    intro i
    rw [← hdropLen, getD_drop]
  have hpl : be16 ((verifyPayload pub sig msg).getD 0 0)
      ((verifyPayload pub sig msg).getD 1 0) = pub.length := be16_putBe16 (by omega)
  have hsl : be16 ((verifyPayload pub sig msg).getD (2 + pub.length) 0)
      ((verifyPayload pub sig msg).getD (2 + pub.length + 1) 0) = sig.length := by
    rw [hat 1, ← Nat.add_zero (2 + pub.length), hat 0]
    exact be16_putBe16 (by omega)
  unfold cmfVerifyParse
  simp only [hpl, hsl, hdropPub, hdropSig, hlen]
  rw [if_neg (by omega), if_neg (by omega), if_neg (by omega),
    List.take_left' rfl, List.take_left' rfl, ← List.drop_drop, hdropSig,
    List.drop_left' rfl]

end Wire
end CMFuzz
