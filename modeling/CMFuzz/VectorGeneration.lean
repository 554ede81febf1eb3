import CMFuzz.OpenSSLReference
import CMFuzz.SplitMix

/-!
# Test vectors of the differential runner

The generation half of `diff_subproc_runner.c`.  One seeded stream decides
every op, length and byte; OpenSSL supplies the reference results, and its own
randomness for keys and signatures.  The main result is that every request
carries exactly the vector its reference was computed on.
-/

namespace CMFuzz
namespace Runner

open ByteCodec
open SplitMix
open Wire

variable {κ : Type}

/-! ## Adversarial tables -/

def x25519Edge : List Bytes := [
  List.replicate 32 0x00,
  0x01 :: List.replicate 31 0x00,
  [0xe0, 0xeb, 0x7a, 0x7c, 0x3b, 0x41, 0xb8, 0xae, 0x16, 0x56, 0xe3, 0xfa, 0xf1,
    0x9f, 0xc4, 0x6a, 0xda, 0x09, 0x8d, 0xeb, 0x9c, 0x32, 0xb1, 0xfd, 0x86, 0x62,
    0x05, 0x16, 0x5f, 0x49, 0xb8, 0x00],
  [0x5f, 0x9c, 0x95, 0xbc, 0xa3, 0x50, 0x8c, 0x24, 0xb1, 0xd0, 0xb1, 0x55, 0x9c,
    0x83, 0xef, 0x5b, 0x04, 0x44, 0x5c, 0xc4, 0x58, 0x1c, 0x8e, 0x86, 0xd8, 0x22,
    0x4e, 0xdd, 0xd0, 0x9f, 0x11, 0x57],
  0xec :: (List.replicate 30 0xff ++ [0x7f]),
  0xed :: (List.replicate 30 0xff ++ [0x7f]),
  0xee :: (List.replicate 30 0xff ++ [0x7f]),
  List.replicate 32 0xff]

def boundaryLen : List ℕ :=
  [0, 1, 15, 16, 17, 31, 32, 33, 55, 56, 63, 64, 65, 127, 128, 129, 255, 256]

/-- `x25519_normalize`: an all-zero secret counts as an error. -/
def x25519Normalize (hex : CString) : CString :=
  if hex.length ≠ 2 * cmfX25519Len then hex
  else if ∃ c ∈ hex, c ≠ 48 then hex
  else ascii "ERR"

/-! ## Compute vectors -/

def writeFront (patch data : Bytes) : Bytes :=
  data.mapIdx fun i b => patch.getD i b

def bytesAt (p : Bytes) (off n : ℕ) : Bytes :=
  (List.range n).map fun i => p.getD (off + i) 0

def pinMsglen (msglen : ℕ) : Draw ℕ := do
  let coin ← next
  if coin.toNat % 4 = 0 then do
    let k ← next
    pure (boundaryLen.getD (k.toNat % boundaryLen.length) 0)
  else pure msglen

def drawMsglen (op : ℕ) : Draw ℕ := do
  let r ← next
  if op = 12 then pure cmfX25519Len else pinMsglen (r.toNat % 512)

def drawAadlen (op : ℕ) : Draw ℕ :=
  if op = 3 ∨ op = 4 ∨ op = 9 ∨ op = 23 ∨ op = 24 then do
    let r ← next
    pure (r.toNat % 64)
  else pure 0

def pinPeer (body : Bytes) : Draw Bytes := do
  let coin ← next
  if coin.toNat % 3 = 0 then do
    let k ← next
    pure (writeFront (x25519Edge.getD (k.toNat % x25519Edge.length) []) body)
  else pure body

def drawBody (op n : ℕ) : Draw Bytes := do
  let body ← lowBytes n
  if op = 12 then do
    let peer ← pinPeer body
    pure (peer.modify (n - 1) (· &&& 0x7F))
  else pure body

theorem pinMsglen_le {msglen : ℕ} (hlen : msglen ≤ 511) :
    Always (· ≤ 511) (pinMsglen msglen) := by
  have htable : ∀ k, boundaryLen.getD (k % boundaryLen.length) 0 ≤ 511 := by
    intro k
    have hmem : ∀ n ∈ boundaryLen, n ≤ 511 := by decide
    have hlt : k % boundaryLen.length < boundaryLen.length :=
      Nat.mod_lt _ (by decide)
    rw [List.getD_eq_getElem?_getD, List.getElem?_eq_getElem hlt, Option.getD_some]
    exact hmem _ (List.getElem_mem hlt)
  refine Always.bind (always_true next) fun coin _ => ?_
  split
  · exact Always.bind (always_true next) fun k _ => Always.pure (htable _)
  · exact Always.pure hlen

theorem drawMsglen_le (op : ℕ) : Always (· ≤ 511) (drawMsglen op) := by
  refine Always.bind (always_true next) fun r _ => ?_
  split
  · exact Always.pure (by decide)
  · exact pinMsglen_le (by omega)

theorem drawAadlen_le (op : ℕ) : Always (· ≤ 63) (drawAadlen op) := by
  unfold drawAadlen
  split
  · exact Always.bind (always_true next) fun r _ => Always.pure (by omega)
  · exact Always.pure (by omega)

theorem pinPeer_length (body : Bytes) :
    Always (fun peer : Bytes => peer.length = body.length) (pinPeer body) := by
  refine Always.bind (always_true next) fun coin _ => ?_
  split
  · refine Always.bind (always_true next) fun k _ => Always.pure ?_
    simp [writeFront]
  · exact Always.pure rfl

theorem drawBody_length (op n : ℕ) :
    Always (fun body : Bytes => body.length = n) (drawBody op n) := by
  refine Always.bind (lowBytes_length n) fun body hbody => ?_
  split
  · refine Always.bind (pinPeer_length body) fun peer hpeer => Always.pure ?_
    rw [List.length_modify, hpeer, hbody]
  · exact Always.pure hbody

/-- The parts of a compute request: `key || nonce`, and `aad || msg`. -/
structure ComputeBlob where
  aadlen : ℕ
  msglen : ℕ
  head : Bytes
  body : Bytes
  aadlen_le : aadlen ≤ 63
  msglen_le : msglen ≤ 511
  head_length : head.length = cmfKeylen + cmfNoncelen
  body_length : body.length = aadlen + msglen

def ComputeBlob.blob (c : ComputeBlob) : Bytes :=
  c.head ++ (putBe16 c.aadlen ++ c.body)

def drawCompute (op : ℕ) : Draw ComputeBlob := do
  let msglen ← attach (drawMsglen op) (drawMsglen_le op)
  let aadlen ← attach (drawAadlen op) (drawAadlen_le op)
  let head ← attach (lowBytes (cmfKeylen + cmfNoncelen)) (lowBytes_length _)
  let body ← attach (drawBody op (aadlen.1 + msglen.1)) (drawBody_length op _)
  pure {
    aadlen := aadlen.1, msglen := msglen.1, head := head.1, body := body.1
    aadlen_le := aadlen.2, msglen_le := msglen.2
    head_length := head.2, body_length := body.2 }

/-- The vector `v` the runner reads off its own blob for `ref_compute`. -/
def localVec (op : ℤ) (blob : Bytes) (aadlen msglen : ℕ) : CmfVec where
  op := op
  key := bytesAt blob 0 cmfKeylen
  nonce := bytesAt blob cmfKeylen cmfNoncelen
  aad := bytesAt blob headerLen aadlen
  msg := bytesAt blob (headerLen + aadlen) msglen
  key_length := by simp [bytesAt]
  nonce_length := by simp [bytesAt]

theorem bytesAt_append (before : Bytes) {data after : Bytes} {off n : ℕ}
    (hbefore : before.length = off) (hdata : data.length = n) :
    bytesAt (before ++ (data ++ after)) off n = data := by
  apply List.ext_getElem
  · simp [bytesAt, hdata]
  · intro i hi hi'
    have hget : (before ++ (data ++ after)).getD (off + i) 0 = data[i] := by
      rw [List.getD_eq_getElem?_getD, List.getElem?_append_right (by omega),
        hbefore, Nat.add_sub_cancel_left, List.getElem?_append_left hi',
        List.getElem?_eq_getElem hi', Option.getD_some]
    simpa [bytesAt] using hget

theorem localVec_join (op : ℤ) (f : BlobFields) :
    localVec op f.join f.aad.length f.msg.length = { f with op := op } := by
  have hkey : bytesAt f.join 0 cmfKeylen = f.key :=
    bytesAt_append [] rfl f.key_length
  have hnonce : bytesAt f.join cmfKeylen cmfNoncelen = f.nonce :=
    bytesAt_append f.key f.key_length f.nonce_length
  have haad : bytesAt f.join headerLen f.aad.length = f.aad := by
    have hjoin : f.join =
        (f.key ++ f.nonce ++ putBe16 f.aad.length) ++ (f.aad ++ f.msg) := by
      simp [BlobFields.join]
    rw [hjoin]
    apply bytesAt_append _ _ rfl
    simp [f.key_length, f.nonce_length, headerLen, cmfKeylen, cmfNoncelen]
  have hmsg : bytesAt f.join (headerLen + f.aad.length) f.msg.length = f.msg := by
    have hjoin : f.join =
        (f.key ++ f.nonce ++ putBe16 f.aad.length ++ f.aad) ++ (f.msg ++ []) := by
      simp [BlobFields.join]
    rw [hjoin]
    apply bytesAt_append _ _ rfl
    simp [f.key_length, f.nonce_length, headerLen, cmfKeylen, cmfNoncelen]
    omega
  simp only [localVec, hkey, hnonce, haad, hmsg]

def ComputeBlob.fields (c : ComputeBlob) : BlobFields where
  key := c.head.take cmfKeylen
  nonce := c.head.drop cmfKeylen
  aad := c.body.take c.aadlen
  msg := c.body.drop c.aadlen
  key_length := by
    rw [List.length_take, c.head_length]
    decide
  nonce_length := by
    rw [List.length_drop, c.head_length]
    decide

theorem ComputeBlob.aad_length (c : ComputeBlob) :
    c.fields.aad.length = c.aadlen := by
  have hbody := c.body_length
  show (c.body.take c.aadlen).length = c.aadlen
  rw [List.length_take]
  omega

theorem ComputeBlob.msg_length (c : ComputeBlob) :
    c.fields.msg.length = c.msglen := by
  have hbody := c.body_length
  show (c.body.drop c.aadlen).length = c.msglen
  rw [List.length_drop]
  omega

theorem ComputeBlob.blob_eq_join (c : ComputeBlob) : c.blob = c.fields.join := by
  have haad := c.aad_length
  unfold ComputeBlob.blob BlobFields.join
  rw [haad]
  simp only [ComputeBlob.fields, List.take_append_drop]
  rw [← List.append_assoc (c.head.take cmfKeylen), List.take_append_drop]

theorem cmfVecFields_compute (op : ℤ) (c : ComputeBlob) :
    cmfVecFields op c.blob = localVec op c.blob c.aadlen c.msglen := by
  have haadlen := c.aadlen_le
  have hlocal := localVec_join op c.fields
  rw [c.aad_length, c.msg_length] at hlocal
  have hsplit : splitBlob c.fields.join = some c.fields :=
    splitBlob_join c.fields (by rw [c.aad_length]; omega)
  rw [c.blob_eq_join, hlocal, cmfVecFields, hsplit]

/-! ## Verify payloads -/

def flipBit (data : Bytes) (i bit : ℕ) : Bytes :=
  data.modify i (· ^^^ UInt8.ofNat (1 <<< bit))

theorem bitMask_ne_zero {bit : ℕ} (hbit : bit < 8) : UInt8.ofNat (1 <<< bit) ≠ 0 := by
  have hall : ∀ bit < 8, UInt8.ofNat (1 <<< bit) ≠ 0 := by decide
  exact hall bit hbit

/-- `data[rnd() % len] ^= 1u << (rnd() % 8)`.  C leaves open which of the two
draws comes first. -/
def flipRandomBit (rhsFirst : Bool) (data : Bytes) : Draw Bytes := do
  let r ← next
  let r' ← next
  let (index, bit) := if rhsFirst then (r', r) else (r, r')
  pure (flipBit data (index.toNat % data.length) (bit.toNat % 8))

def tamper (rhsFirst : Bool) (msg sig : Bytes) : Draw (Bytes × Bytes) := do
  let coin ← next
  if coin &&& 1 ≠ 0 then do
    let side ← next
    if side &&& 1 ≠ 0 then do
      let msg ← flipRandomBit rhsFirst msg
      pure (msg, sig)
    else do
      let sig ← flipRandomBit rhsFirst sig
      pure (msg, sig)
  else pure (msg, sig)

structure Payload where
  pub : Bytes
  sig : Bytes
  msg : Bytes
  verdict : Bool
  pub_length : pub.length ≤ 512
  sig_length : sig.length ≤ 512

def Payload.bytes (p : Payload) : Bytes :=
  putBe16 p.pub.length ++ (p.pub ++ (putBe16 p.sig.length ++ (p.sig ++ p.msg)))

theorem flipRandomBit_length (rhsFirst : Bool) (data : Bytes) :
    Always (fun flipped : Bytes => flipped.length = data.length)
      (flipRandomBit rhsFirst data) := by
  refine Always.bind (always_true next) fun r _ => ?_
  refine Always.bind (always_true next) fun r' _ => Always.pure ?_
  exact List.length_modify _ _ _

theorem tamper_length (rhsFirst : Bool) (msg sig : Bytes) :
    Always (fun pair : Bytes × Bytes =>
      pair.1.length = msg.length ∧ pair.2.length = sig.length) (tamper rhsFirst msg sig) := by
  refine Always.bind (always_true next) fun coin _ => ?_
  split
  · refine Always.bind (always_true next) fun side _ => ?_
    split
    · exact Always.bind (flipRandomBit_length rhsFirst msg) fun flipped hflip =>
        Always.pure ⟨hflip, rfl⟩
    · exact Always.bind (flipRandomBit_length rhsFirst sig) fun flipped hflip =>
        Always.pure ⟨rfl, hflip⟩
  · exact Always.pure ⟨rfl, rfl⟩

theorem tamper_sig_length (rhsFirst : Bool) (msg : Bytes) {sig : Bytes}
    (hsig : sig.length ≤ 512) :
    Always (fun pair : Bytes × Bytes => pair.2.length ≤ 512)
      (tamper rhsFirst msg sig) :=
  fun s => (tamper_length rhsFirst msg sig s).2.le.trans hsig

/-- Damage a signed message and pack it with the exported key; OpenSSL decides
the verdict on what is left. -/
def packSigned (scheme : Signer κ) (rhsFirst : Bool) (key : κ) (msg sig : Bytes)
    (hsig : sig.length ≤ 512) : Draw (Option Payload) := do
  let tampered ← attach (tamper rhsFirst msg sig)
    (tamper_sig_length rhsFirst msg hsig)
  let verdict := scheme.verify key tampered.1.2 tampered.1.1
  pure (match hpub : scheme.exportKey key with
    | none => none
    | some pub =>
        if pub = [] then none
        else some {
          pub := pub, sig := tampered.1.2, msg := tampered.1.1, verdict := verdict
          pub_length := scheme.exportKey_length key pub hpub
          sig_length := tampered.2 })

def signPayload (scheme : Signer κ) (rhsFirst : ℕ → Bool) (i : ℕ) (key : κ) :
    Draw (Option Payload) := do
  let r ← next
  let msg ← lowBytes (1 + r.toNat % 200)
  match hsig : scheme.sign key i msg with
  | none => pure none
  | some sig =>
      packSigned scheme (rhsFirst i) key msg sig (scheme.sign_length key i msg sig hsig)

/-- The body of `ecdsa_make_payload` and `rsa_make_payload`: the cached key is
generated on first use. -/
def makePayload (scheme : Signer κ) (rhsFirst : ℕ → Bool) (i : ℕ) (cached : Option κ) :
    Draw (Option κ × Option Payload) :=
  match cached.or (scheme.gen i) with
  | none => pure (none, none)
  | some key => do
      let payload ← signPayload scheme rhsFirst i key
      pure (some key, payload)

def ecdsaMakePayload (ssl : OpenSSL κ) := makePayload ssl.ecdsa

def rsaMakePayload (ssl : OpenSSL κ) := makePayload ssl.rsaPss

structure Payload.SignedBy (p : Payload) (scheme : Signer κ) (key : κ) : Prop where
  pub_eq : scheme.exportKey key = some p.pub
  verdict_eq : p.verdict = scheme.verify key p.sig p.msg

theorem packSigned_signed (scheme : Signer κ) (rhsFirst : Bool) (key : κ)
    (msg : Bytes) {sig : Bytes} (hsig : sig.length ≤ 512) :
    Always (fun made : Option Payload => ∀ p ∈ made, p.SignedBy scheme key)
      (packSigned scheme rhsFirst key msg sig hsig) := by
  refine Always.bind (always_true _) fun tampered _ => Always.pure ?_
  intro p hp
  split at hp
  · simp at hp
  · next pub hpub =>
      split at hp
      · simp at hp
      · obtain rfl := Option.some.inj hp
        exact ⟨hpub, rfl⟩

theorem signPayload_signed (scheme : Signer κ) (rhsFirst : ℕ → Bool) (i : ℕ) (key : κ) :
    Always (fun made : Option Payload => ∀ p ∈ made, p.SignedBy scheme key)
      (signPayload scheme rhsFirst i key) := by
  refine Always.bind (always_true next) fun r _ => ?_
  refine Always.bind (always_true _) fun msg _ => ?_
  split
  · exact Always.pure (by simp)
  · exact packSigned_signed scheme (rhsFirst i) key msg _

theorem makePayload_signed (scheme : Signer κ) (rhsFirst : ℕ → Bool) (i : ℕ)
    (cached : Option κ) :
    Always (fun made : Option κ × Option Payload =>
        ∀ p ∈ made.2, ∃ key, p.SignedBy scheme key)
      (makePayload scheme rhsFirst i cached) := by
  unfold makePayload
  split
  · exact Always.pure (by simp)
  · next key _ =>
      refine Always.bind (signPayload_signed scheme rhsFirst i key) fun made hmade => ?_
      exact Always.pure fun p hp => ⟨key, hmade p hp⟩

theorem cmfVerifyParse_bytes (p : Payload) :
    cmfVerifyParse p.bytes = some (p.pub, p.sig, p.msg) := by
  have hpub := p.pub_length
  have hsig := p.sig_length
  exact cmfVerifyParse_verifyPayload (by omega) (by omega) p.msg

/-! ## The request file -/

inductive Reference where
  | computed (out : Option Bytes)
  | verdict (accepted : Bool)
  deriving DecidableEq, Repr

structure Emitted where
  op : ℕ
  blob : Bytes
  reference : Reference

def Emitted.vec (e : Emitted) : CmfVec := cmfVecFields e.op e.blob

def Reference.text : Reference → CString
  | .verdict accepted => if accepted then ascii "01" else ascii "00"
  | .computed none => ascii "ERR"
  | .computed (some o) => hexEncode o

def foldOp (op : ℕ) (hex : CString) : CString :=
  if op = 12 then x25519Normalize hex else hex

structure Keys (κ : Type) where
  ecdsa : Option κ
  rsa : Option κ

/-- A verify request has a zero header.  If no payload could be made, it is
sent with an empty one, which every backend must reject. -/
def emitVerify (op : ℕ) (made : Option Payload) : Emitted :=
  let payload := match made with
    | none => []
    | some p => p.bytes
  let verdict := match made with
    | none => false
    | some p => p.verdict
  { op := op
    blob := List.replicate headerLen 0 ++ payload
    reference := .verdict verdict }

def emitCompute (ssl : OpenSSL κ) (op : ℕ) : Draw Emitted := do
  let c ← drawCompute op
  let v := localVec op c.blob c.aadlen c.msglen
  pure { op := op, blob := c.blob, reference := .computed (refCompute ssl v) }

def emitVector (ssl : OpenSSL κ) (rhsFirst : ℕ → Bool) (i : ℕ) (keys : Keys κ) :
    Draw (Keys κ × Emitted) := do
  let r ← next
  let op := r.toNat % cmfNumOps
  if op = 13 then do
    let made ← ecdsaMakePayload ssl rhsFirst i keys.ecdsa
    pure ({ keys with ecdsa := made.1 }, emitVerify op made.2)
  else if op = 14 then do
    let made ← rsaMakePayload ssl rhsFirst i keys.rsa
    pure ({ keys with rsa := made.1 }, emitVerify op made.2)
  else do
    let e ← emitCompute ssl op
    pure (keys, e)

def emitFrom (ssl : OpenSSL κ) (rhsFirst : ℕ → Bool) : ℕ → ℕ → Keys κ → Draw (List Emitted)
  | 0, _, _ => pure []
  | n + 1, i, keys => do
      let made ← emitVector ssl rhsFirst i keys
      let rest ← emitFrom ssl rhsFirst n (i + 1) made.1
      pure (made.2 :: rest)

/-- The `N` test vectors of a seed; `rhsFirst` is the choice of the compiler at
the bit flip of each vector. -/
def genVectors (ssl : OpenSSL κ) (rhsFirst : ℕ → Bool) (seed : UInt64) (N : ℕ) :
    List Emitted :=
  (emitFrom ssl rhsFirst N 0 ⟨none, none⟩ seed).1

def requestFile (vectors : List Emitted) : Bytes :=
  vectors.flatMap fun e => requestLine e.op e.blob

/-- The reference was computed from the vector `v` itself. -/
inductive ReferenceOf (ssl : OpenSSL κ) (v : CmfVec) : Reference → Prop
  | computed (hop : v.op ≠ 13 ∧ v.op ≠ 14) (hmsg : v.msg.length ≤ 511) :
      ReferenceOf ssl v (.computed (refCompute ssl v))
  | signed (scheme : Signer κ)
      (hscheme : v.op = 13 ∧ scheme = ssl.ecdsa ∨ v.op = 14 ∧ scheme = ssl.rsaPss)
      (key : κ) (pub sig msg : Bytes) (hpub : scheme.exportKey key = some pub)
      (hparse : cmfVerifyParse v.msg = some (pub, sig, msg)) :
      ReferenceOf ssl v (.verdict (scheme.verify key sig msg))
  | unsigned (hop : v.op = 13 ∨ v.op = 14) (hmsg : v.msg = []) :
      ReferenceOf ssl v (.verdict false)

structure Emitted.Faithful (ssl : OpenSSL κ) (e : Emitted) : Prop where
  op_lt : e.op < cmfNumOps
  reference_of : ReferenceOf ssl e.vec e.reference

@[simp] theorem cmfVecFields_op (op : ℤ) (blob : Bytes) :
    (cmfVecFields op blob).op = op := by
  unfold cmfVecFields
  split <;> rfl

theorem cmfVecFields_zeroHeader (op : ℤ) (payload : Bytes) :
    (cmfVecFields op (List.replicate headerLen 0 ++ payload)).msg = payload := by
  let f : BlobFields := {
    key := List.replicate cmfKeylen 0, nonce := List.replicate cmfNoncelen 0
    aad := [], msg := payload
    key_length := List.length_replicate, nonce_length := List.length_replicate }
  have haadlen : List.replicate 2 0 = putBe16 0 := by decide
  have hjoin : List.replicate headerLen 0 ++ payload = f.join := by
    rw [headerLen, List.replicate_add, List.replicate_add, haadlen,
      List.append_assoc, List.append_assoc]
    rfl
  have hsplit := splitBlob_join f (Nat.zero_lt_succ _)
  rw [hjoin, cmfVecFields, hsplit]

theorem emitVerify_faithful {ssl : OpenSSL κ} {scheme : Signer κ} {op : ℕ}
    (hscheme : op = 13 ∧ scheme = ssl.ecdsa ∨ op = 14 ∧ scheme = ssl.rsaPss)
    {made : Option Payload} (hmade : ∀ p ∈ made, ∃ key, p.SignedBy scheme key) :
    (emitVerify op made).Faithful ssl := by
  have hop : op = 13 ∨ op = 14 := by
    rcases hscheme with ⟨rfl, _⟩ | ⟨rfl, _⟩ <;> decide
  have hvop : (emitVerify op made).vec.op = op := cmfVecFields_op op _
  have hvscheme : (emitVerify op made).vec.op = 13 ∧ scheme = ssl.ecdsa ∨
      (emitVerify op made).vec.op = 14 ∧ scheme = ssl.rsaPss := by
    rw [hvop]
    exact_mod_cast hscheme
  constructor
  · show op < 27
    omega
  · cases made with
    | none =>
        refine .unsigned ?_ (cmfVecFields_zeroHeader op [])
        rw [hvop]
        exact_mod_cast hop
    | some p =>
        obtain ⟨key, hpub, hverdict⟩ := hmade p rfl
        have hparse : cmfVerifyParse (emitVerify op (some p)).vec.msg =
            some (p.pub, p.sig, p.msg) := by
          rw [Emitted.vec, emitVerify, cmfVecFields_zeroHeader]
          exact cmfVerifyParse_bytes p
        have href : (emitVerify op (some p)).reference =
            .verdict (scheme.verify key p.sig p.msg) :=
          congrArg Reference.verdict hverdict
        rw [href]
        exact .signed scheme hvscheme key p.pub p.sig p.msg hpub hparse

theorem emitCompute_faithful (ssl : OpenSSL κ) {op : ℕ} (hop : op < cmfNumOps)
    (hcompute : op ≠ 13 ∧ op ≠ 14) :
    Always (fun e : Emitted => e.Faithful ssl) (emitCompute ssl op) := by
  refine Always.bind (always_true _) fun c _ => Always.pure ⟨hop, ?_⟩
  have hvec : Emitted.vec ⟨op, c.blob, .computed (refCompute ssl
      (localVec op c.blob c.aadlen c.msglen))⟩ =
        localVec op c.blob c.aadlen c.msglen := cmfVecFields_compute op c
  rw [hvec]
  have hmsg := c.msglen_le
  refine .computed ?_ (by simpa [localVec, bytesAt] using hmsg)
  show (op : ℤ) ≠ 13 ∧ (op : ℤ) ≠ 14
  exact_mod_cast hcompute

theorem emitVector_faithful (ssl : OpenSSL κ) (rhsFirst : ℕ → Bool) (i : ℕ)
    (keys : Keys κ) :
    Always (fun made : Keys κ × Emitted => made.2.Faithful ssl)
      (emitVector ssl rhsFirst i keys) := by
  refine Always.bind (always_true next) fun r _ => ?_
  have hop : r.toNat % cmfNumOps < cmfNumOps := Nat.mod_lt _ (by decide)
  dsimp only
  generalize r.toNat % cmfNumOps = op at hop ⊢
  split
  · next h13 =>
      refine Always.bind (makePayload_signed ssl.ecdsa rhsFirst i keys.ecdsa)
        fun made hmade => Always.pure ?_
      exact emitVerify_faithful (Or.inl ⟨h13, rfl⟩) hmade
  · next h13 =>
      split
      · next h14 =>
          refine Always.bind (makePayload_signed ssl.rsaPss rhsFirst i keys.rsa)
            fun made hmade => Always.pure ?_
          exact emitVerify_faithful (Or.inr ⟨h14, rfl⟩) hmade
      · next h14 =>
          refine Always.bind (emitCompute_faithful ssl hop ⟨h13, h14⟩)
            fun e he => Always.pure he

theorem emitFrom_always {ssl : OpenSSL κ} {rhsFirst : ℕ → Bool} {P : Emitted → Prop}
    (hvector : ∀ i keys, Always (fun made : Keys κ × Emitted => P made.2)
      (emitVector ssl rhsFirst i keys)) (n i : ℕ) (keys : Keys κ) :
    Always (fun es : List Emitted => es.length = n ∧ ∀ e ∈ es, P e)
      (emitFrom ssl rhsFirst n i keys) := by
  induction n generalizing i keys with
  | zero => exact Always.pure ⟨rfl, by simp⟩
  | succ n ih =>
      refine Always.bind (hvector i keys) fun made hmade => ?_
      refine Always.bind (ih (i + 1) made.1) fun rest hrest => Always.pure ?_
      obtain ⟨hlen, hall⟩ := hrest
      refine ⟨by rw [List.length_cons, hlen], fun e he => ?_⟩
      rcases List.mem_cons.mp he with rfl | he
      · exact hmade
      · exact hall e he

theorem genVectors_faithful (ssl : OpenSSL κ) (rhsFirst : ℕ → Bool) (seed : UInt64)
    (N : ℕ) :
    (genVectors ssl rhsFirst seed N).length = N ∧
      ∀ e ∈ genVectors ssl rhsFirst seed N, e.Faithful ssl :=
  emitFrom_always (emitVector_faithful ssl rhsFirst) N 0 ⟨none, none⟩ seed

end Runner
end CMFuzz
