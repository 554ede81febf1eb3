import CMFuzz.ComputeClis

/-!
# What the bridges compute

The functions behind the main loops of the Go, Rust, Java and Python bridges:
the switch over the ops, the checks each bridge makes before it calls its
library, and the library's failures, which become `"ERR"`.
-/

namespace CMFuzz

open Buffer
open ByteCodec
open Compute
open Runner
open Wire

/-- The reply to a call whose error is checked. -/
def attempt {room : ℕ} (call : Filled room) : Computed :=
  if call.ok then .output call.bytes else .failure

def verdictByte (accepted : Bool) : Bytes := if accepted then [0x01] else [0x00]

variable (lib : Library)

/-! ## Go -/

namespace GoBridge

def ecdsaVerify (payload : Bytes) : Computed :=
  match parseVerifyPayload payload with
  | none => .output (verdictByte false)
  | some (pub, sig, msg) =>
      .output (verdictByte (lib.ecdsaVerify pub sig msg = some true))

def rsaPSSVerify (payload : Bytes) : Computed :=
  match parseVerifyPayload payload with
  | none => .output (verdictByte false)
  | some (pub, sig, msg) =>
      .output (verdictByte (lib.rsaPssVerify pub sig msg = some true))

def compute (v : Vec) : Computed :=
  match v.op with
  | 0 => .output (lib.digest .sha256 v.msg).bytes
  | 1 => .output (lib.digest .sha512 v.msg).bytes
  | 2 => .output (lib.hmac .sha256 v.key v.msg).bytes
  | 5 => .output (lib.digest .sha3_256 v.msg).bytes
  | 6 => .output (lib.digest .sha3_512 v.msg).bytes
  | 7 => .output (lib.xof .shake128 v.msg 32).bytes
  | 8 => .output (lib.xof .shake256 v.msg 64).bytes
  | 9 => attempt (lib.hkdf v.msg v.key v.aad)
  | 10 => .output (lib.pbkdf2 v.msg v.key cmfPbkdf2Iter).bytes
  | 11 =>
      if v.key.length < keyLen then .failure
      else .output (lib.ed25519Sign (v.key.take keyLen) v.msg).bytes
  | 12 =>
      if v.key.length < keyLen ∨ v.msg.length < cmfX25519Len then .failure
      else attempt (lib.x25519 (v.key.take keyLen) (v.msg.take cmfX25519Len))
  | 13 => ecdsaVerify lib v.msg
  | 14 => rsaPSSVerify lib v.msg
  | _ => .notImplemented

/-- `dispatch`, with the rest of `aeadFromBlob` behind its parser. -/
def dispatch (op : ℤ) (blob : Bytes) : Computed :=
  if op = 3 ∨ op = 4 then
    match aeadFromBlob blob with
    | none => .failure
    | some (key, nonce, aad, msg) =>
        attempt (lib.aead (if op = 3 then .chacha20Poly1305 else .aes256Gcm)
          key nonce aad msg)
  else compute lib (parseVec op blob)

end GoBridge

/-! ## Rust -/

namespace RustBridge

def ecdsaP256Verify (payload : Bytes) : Computed :=
  match parseVerifyPayload payload with
  | none => .output (verdictByte false)
  | some (pubk, sig, msg) =>
      .output (verdictByte (lib.ecdsaVerify pubk sig msg = some true))

def rsaPssVerify (payload : Bytes) : Computed :=
  match parseVerifyPayload payload with
  | none => .output (verdictByte false)
  | some (pubk, sig, msg) =>
      .output (verdictByte (lib.rsaPssVerify pubk sig msg = some true))

def ed25519Sign (key msg : Bytes) : Computed :=
  if key.length < cmfKeylen then .failure
  else .output (lib.ed25519Sign (key.take cmfKeylen) msg).bytes

def x25519Op (key msg : Bytes) : Computed :=
  if key.length < cmfKeylen ∨ msg.length < 32 then .failure
  else .output (lib.x25519 (key.take 32) (msg.take 32)).bytes

def dispatch (op : ℤ) (blob : Bytes) : Computed :=
  if op = 3 ∨ op = 4 then
    match aeadFromBlob blob with
    | none => .failure
    | some (key, nonce, aad, msg) =>
        attempt (lib.aead (if op = 3 then .chacha20Poly1305 else .aes256Gcm)
          key nonce aad msg)
  else
    let v := parseVec blob
    match op with
    | 0 => .output (lib.digest .sha256 v.msg).bytes
    | 1 => .output (lib.digest .sha512 v.msg).bytes
    | 2 => .output (lib.hmac .sha256 v.key v.msg).bytes
    | 5 => .output (lib.digest .sha3_256 v.msg).bytes
    | 6 => .output (lib.digest .sha3_512 v.msg).bytes
    | 7 => .output (lib.xof .shake128 v.msg 32).bytes
    | 8 => .output (lib.xof .shake256 v.msg 64).bytes
    | 9 => attempt (lib.hkdf v.msg v.key v.aad)
    | 10 => .output (lib.pbkdf2 v.msg v.key cmfPbkdf2Iter).bytes
    | 11 => ed25519Sign lib v.key v.msg
    | 12 => x25519Op lib v.key v.msg
    | 13 => ecdsaP256Verify lib v.msg
    | 14 => rsaPssVerify lib v.msg
    | _ => .notImplemented

end RustBridge

/-! ## Java -/

namespace JavaBridge

/-- The ops 13 and 14; what the provider throws is caught by `main`. -/
def verify (check : Bytes → Bytes → Bytes → Option Bool) (payload : Bytes) : Computed :=
  match parseVerify payload with
  | none => .failure
  | some (pub, sig, msg) =>
      match check pub sig msg with
      | none => .failure
      | some accepted => .output (verdictByte accepted)

def compute (op : ℤ) (blob : Bytes) : Computed :=
  match parse blob with
  | none => .failure
  | some v =>
      match op with
      | 0 => attempt (lib.digest .sha256 v.msg)
      | 1 => attempt (lib.digest .sha512 v.msg)
      | 2 => attempt (lib.hmac .sha256 v.key v.msg)
      | 3 => attempt (lib.aead .chacha20Poly1305 v.key v.nonce v.aad v.msg)
      | 4 => attempt (lib.aead .aes256Gcm v.key v.nonce v.aad v.msg)
      | 5 => attempt (lib.digest .sha3_256 v.msg)
      | 6 => attempt (lib.digest .sha3_512 v.msg)
      | 7 => attempt (lib.xof .shake128 v.msg 32)
      | 8 => attempt (lib.xof .shake256 v.msg 64)
      | 9 => attempt (lib.hkdf v.msg v.key v.aad)
      | 10 => attempt (lib.pbkdf2 v.msg v.key cmfPbkdf2Iter)
      | 11 => attempt (lib.ed25519Sign v.key v.msg)
      | 12 =>
          -- new X25519PublicKeyParameters(v.msg, 0) copies 32 bytes
          if v.msg.length < cmfX25519Len then .failure
          else attempt (lib.x25519 v.key (v.msg.take cmfX25519Len))
      | 13 => verify lib.ecdsaVerify v.msg
      | 14 => verify lib.rsaPssVerify v.msg
      | _ => .notImplemented

end JavaBridge

/-! ## Python -/

namespace PyBridge

/-- The ops 13 and 14: the parser is outside the `try` that turns an exception
into a reject. -/
def verify (check : Bytes → Bytes → Bytes → Option Bool) (payload : Bytes) : Computed :=
  match parseVerify payload with
  | none => .failure
  | some (pub, sig, msg) => .output (verdictByte (check pub sig msg = some true))

/-- `_sec1_to_key` before the verification: only uncompressed points. -/
def ecdsaVerify (pub sig msg : Bytes) : Option Bool :=
  if pub.length ≠ 65 ∨ pub.getD 0 0 ≠ 0x04 then none else lib.ecdsaVerify pub sig msg

def compute (op : ℤ) (blob : Bytes) : Computed :=
  let v := parse blob
  match op with
  | 0 => attempt (lib.digest .sha256 v.msg)
  | 1 => attempt (lib.digest .sha512 v.msg)
  | 2 => attempt (lib.hmac .sha256 v.key v.msg)
  | 3 => attempt (lib.aead .chacha20Poly1305 v.key v.nonce v.aad v.msg)
  | 4 => attempt (lib.aead .aes256Gcm v.key v.nonce v.aad v.msg)
  | 5 => attempt (lib.digest .sha3_256 v.msg)
  | 6 => attempt (lib.digest .sha3_512 v.msg)
  | 7 => attempt (lib.xof .shake128 v.msg 32)
  | 8 => attempt (lib.xof .shake256 v.msg 64)
  | 9 => attempt (lib.hkdf v.msg v.key v.aad)
  | 10 => attempt (lib.pbkdf2 v.msg v.key cmfPbkdf2Iter)
  | 11 => attempt (lib.ed25519Sign v.key v.msg)
  | 13 => verify (ecdsaVerify lib) v.msg
  | 14 => verify lib.rsaPssVerify v.msg
  -- 12: X25519 is not supported by the library
  | _ => .notImplemented

/-- The reply of `main`, where `b"__ERR__"` stands for an exception. -/
def reply (op : ℤ) (blob : Bytes) : Computed :=
  if compute lib op blob = .output (ascii "__ERR__") then .failure
  else compute lib op blob

end PyBridge

end CMFuzz
