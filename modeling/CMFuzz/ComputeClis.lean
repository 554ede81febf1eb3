import CMFuzz.BackendLoops
import CMFuzz.BufferAccess
import CMFuzz.OpenSSLReference

/-!
# The compute programs in C and C++

`compute_boringssl.c`, `compute_aws_lc.c`, `compute_wolfssl.c`,
`compute_botan.cpp`, `compute_libgcrypt.c` and `compute_nettle.c`: the switch
of each `main`, and the handlers behind it with the bytes they read from the
message and write to the output buffer.  The cryptographic library is a
parameter.
-/

namespace CMFuzz
namespace Compute

open Buffer
open ByteCodec
open Runner
open Wire

/-! ## The library behind a backend -/

/-- The calls of a cryptographic library.  `x25519Setup` tells whether the
private key and whatever else the exchange needs is ready before the peer key
is read; a verification is `none` where the library reports an error. -/
structure Library where
  digest : (md : EvpMd) → Bytes → Filled md.size
  xof : EvpXof → Bytes → (n : ℕ) → Filled n
  hmac : (md : EvpMd) → Bytes → Bytes → Filled md.size
  mac : EvpMac → Bytes → Bytes → Filled cmfTaglen
  aead : EvpCipher → Bytes → Bytes → Bytes → (msg : Bytes) →
    Filled (msg.length + cmfTaglen)
  hkdf : Bytes → Bytes → Bytes → Filled cmfHkdfOutlen
  pbkdf2 : Bytes → Bytes → ℕ → Filled cmfPbkdf2Dklen
  ed25519Sign : Bytes → Bytes → Filled cmfEd25519Siglen
  x25519Setup : Bytes → Bool
  x25519 : Bytes → Bytes → Filled cmfX25519Len
  ecdsaVerify : Bytes → Bytes → Bytes → Option Bool
  rsaPssVerify : Bytes → Bytes → Bytes → Option Bool

abbrev cmfPbkdf2Iter : ℕ := 4096

structure Handled where
  footprint : Footprint
  result : Computed

/-! ## The shapes of a handler -/

def abstain : Handled := ⟨⟨[], []⟩, .notImplemented⟩

/-- One call over the first `n` bytes of the message, with its status
checked. -/
def checked {room : ℕ} (n : ℕ) (call : Filled room) : Handled where
  footprint := ⟨[⟨0, n⟩], [⟨0, call.bytes.length⟩]⟩
  result := if call.ok then .output call.bytes else .failure

/-- One call that reports no failure. -/
def unchecked {room : ℕ} (n : ℕ) (call : Filled room) : Handled where
  footprint := ⟨[⟨0, n⟩], [⟨0, room⟩]⟩
  result := .output call.bytes

/-- An AEAD handler that encrypts `m` to the start of `out` and puts the tag
behind `msglen` bytes. -/
def sealParts (msglen : ℕ) {m : Bytes} (call : Filled (m.length + cmfTaglen)) : Handled where
  footprint := {
    reads := [⟨0, m.length⟩]
    writes := ⟨0, min m.length call.bytes.length⟩ ::
      if call.ok then [⟨msglen, cmfTaglen⟩] else [] }
  result := if call.ok then .output call.bytes else .failure

/-- The accesses of `cmf_verify_parse` to the payload, and of the
verification to the parts it found. -/
def cmfVerifyReads (p : Bytes) : List Span :=
  if p.length < 2 then []
  else
    let pl := be16 (p.getD 0 0) (p.getD 1 0)
    let off := 2
    if off + pl + 2 > p.length then [⟨0, 2⟩]
    else
      let sl := be16 (p.getD (off + pl) 0) (p.getD (off + pl + 1) 0)
      let off' := off + pl + 2
      if off' + sl > p.length then [⟨0, 2⟩, ⟨off + pl, 2⟩]
      else [⟨0, 2⟩, ⟨off + pl, 2⟩, ⟨off, pl⟩, ⟨off', sl⟩,
        ⟨off' + sl, p.length - (off' + sl)⟩]

/-- A verify handler replies one byte, whatever the payload is. -/
def judge (verify : Bytes → Bytes → Bytes → Option Bool) (v : CmfVec) : Handled where
  footprint := ⟨cmfVerifyReads v.msg, [⟨0, 1⟩]⟩
  result :=
    let verdict := (cmfVerifyParse v.msg).bind fun (pub, sig, msg) => verify pub sig msg
    .output [if verdict = some true then 0x01 else 0x00]

section

variable (lib : Library) (v : CmfVec)

/-! ## BoringSSL -/

namespace BoringSSL

def digest (md : EvpMd) : Handled := checked v.msg.length (lib.digest md v.msg)

def hmac256 : Handled := checked v.msg.length (lib.hmac .sha256 v.key v.msg)

def aead (a : EvpCipher) : Handled :=
  checked v.msg.length (lib.aead a v.key v.nonce v.aad v.msg)

def hkdf : Handled := checked v.msg.length (lib.hkdf v.msg v.key v.aad)

def pbkdf2 : Handled := checked v.msg.length (lib.pbkdf2 v.msg v.key cmfPbkdf2Iter)

def ed25519 : Handled := checked v.msg.length (lib.ed25519Sign v.key v.msg)

-- X25519(out, v->key, v->msg) takes 32 bytes from v->msg
def x25519 : Handled :=
  checked cmfX25519Len (lib.x25519 v.key (v.msg.take cmfX25519Len))

def ecdsaVerify : Handled := judge lib.ecdsaVerify v

def rsaPssVerify : Handled := judge lib.rsaPssVerify v

def compute : Handled :=
  match v.op with
  | 0 => digest lib v .sha256
  | 1 => digest lib v .sha512
  | 2 => hmac256 lib v
  | 3 => aead lib v .chacha20Poly1305
  | 4 => aead lib v .aes256Gcm
  | 9 => hkdf lib v
  | 10 => pbkdf2 lib v
  | 11 => ed25519 lib v
  | 12 => x25519 lib v
  | 13 => ecdsaVerify lib v
  | 14 => rsaPssVerify lib v
  | _ => abstain

end BoringSSL

/-! ## aws-lc -/

namespace AwsLc

def digest (md : EvpMd) : Handled := checked v.msg.length (lib.digest md v.msg)

def hmac256 : Handled := checked v.msg.length (lib.hmac .sha256 v.key v.msg)

def xof (x : EvpXof) (outlen : ℕ) : Handled :=
  checked v.msg.length (lib.xof x v.msg outlen)

def aead (a : EvpCipher) : Handled :=
  checked v.msg.length (lib.aead a v.key v.nonce v.aad v.msg)

def hkdf : Handled := checked v.msg.length (lib.hkdf v.msg v.key v.aad)

def pbkdf2 : Handled := checked v.msg.length (lib.pbkdf2 v.msg v.key cmfPbkdf2Iter)

def ed25519 : Handled := checked v.msg.length (lib.ed25519Sign v.key v.msg)

def x25519 : Handled :=
  checked cmfX25519Len (lib.x25519 v.key (v.msg.take cmfX25519Len))

def ecdsaVerify : Handled := judge lib.ecdsaVerify v

def rsaPssVerify : Handled := judge lib.rsaPssVerify v

def compute : Handled :=
  match v.op with
  | 0 => digest lib v .sha256
  | 1 => digest lib v .sha512
  | 2 => hmac256 lib v
  | 3 => aead lib v .chacha20Poly1305
  | 4 => aead lib v .aes256Gcm
  | 5 => digest lib v .sha3_256
  | 6 => digest lib v .sha3_512
  | 7 => xof lib v .shake128 32
  | 8 => xof lib v .shake256 64
  | 9 => hkdf lib v
  | 10 => pbkdf2 lib v
  | 11 => ed25519 lib v
  | 12 => x25519 lib v
  | 13 => ecdsaVerify lib v
  | 14 => rsaPssVerify lib v
  | _ => abstain

end AwsLc

/-! ## wolfCrypt -/

namespace WolfSSL

/-- The length `(word32)n`. -/
def word32 (n : ℕ) : ℕ := n % 2 ^ 32

/-- The message as far as a 32-bit length reaches. -/
def message : Bytes := v.msg.take (word32 v.msg.length)

def hash (md : EvpMd) : Handled := checked (message v).length (lib.digest md (message v))

def sha256 : Handled := hash lib v .sha256

def sha512 : Handled := hash lib v .sha512

def sha3_256 : Handled := hash lib v .sha3_256

def sha3_512 : Handled := hash lib v .sha3_512

def shake128 : Handled := checked (message v).length (lib.xof .shake128 (message v) 32)

def shake256 : Handled := checked (message v).length (lib.xof .shake256 (message v) 64)

def hmac256 : Handled := checked (message v).length (lib.hmac .sha256 v.key (message v))

/-- `chachapoly` and `aesgcm`: the length of the message is cut for the
encryption, but not for the place of the tag. -/
def aead (a : EvpCipher) : Handled :=
  sealParts v.msg.length (lib.aead a v.key v.nonce v.aad (message v))

def chachapoly : Handled := aead lib v .chacha20Poly1305

def aesgcm : Handled := aead lib v .aes256Gcm

def hkdf : Handled := checked (message v).length (lib.hkdf (message v) v.key v.aad)

/-- The length is cast to `int` here, and a negative one refused. -/
def pbkdf2 : Handled :=
  if (v.msg.length : ℤ).bmod (2 ^ 32) < 0 then ⟨⟨[], []⟩, .failure⟩
  else checked (message v).length (lib.pbkdf2 (message v) v.key cmfPbkdf2Iter)

def ed25519Sign : Handled :=
  checked (message v).length (lib.ed25519Sign v.key (message v))

def x25519Ss : Handled :=
  if lib.x25519Setup v.key then
    checked cmfX25519Len (lib.x25519 v.key (v.msg.take cmfX25519Len))
  else ⟨⟨[], []⟩, .failure⟩

def ecdsaVerify : Handled :=
  judge (fun pub sig msg => lib.ecdsaVerify pub sig (msg.take (word32 msg.length))) v

def rsaPssVerify : Handled :=
  judge (fun pub sig msg => lib.rsaPssVerify pub sig (msg.take (word32 msg.length))) v

def compute : Handled :=
  match v.op with
  | 0 => sha256 lib v
  | 1 => sha512 lib v
  | 2 => hmac256 lib v
  | 3 => chachapoly lib v
  | 4 => aesgcm lib v
  | 5 => sha3_256 lib v
  | 6 => sha3_512 lib v
  | 7 => shake128 lib v
  | 8 => shake256 lib v
  | 9 => hkdf lib v
  | 10 => pbkdf2 lib v
  | 11 => ed25519Sign lib v
  | 12 => x25519Ss lib v
  | 13 => ecdsaVerify lib v
  | 14 => rsaPssVerify lib v
  | _ => abstain

end WolfSSL

/-! ## Botan -/

namespace Botan

def digest (md : EvpMd) : Handled := checked v.msg.length (lib.digest md v.msg)

def xof (x : EvpXof) (outlen : ℕ) : Handled :=
  checked v.msg.length (lib.xof x v.msg outlen)

def hmac256 : Handled := checked v.msg.length (lib.hmac .sha256 v.key v.msg)

def aead (a : EvpCipher) : Handled :=
  checked v.msg.length (lib.aead a v.key v.nonce v.aad v.msg)

def hkdf : Handled := checked v.msg.length (lib.hkdf v.msg v.key v.aad)

def pbkdf2 : Handled := checked v.msg.length (lib.pbkdf2 v.msg v.key cmfPbkdf2Iter)

def ed25519 : Handled := checked v.msg.length (lib.ed25519Sign v.key v.msg)

def x25519 : Handled :=
  checked cmfX25519Len (lib.x25519 v.key (v.msg.take cmfX25519Len))

def ecdsaVerify : Handled := judge lib.ecdsaVerify v

def rsaPssVerify : Handled := judge lib.rsaPssVerify v

def compute : Handled :=
  match v.op with
  | 0 => digest lib v .sha256
  | 1 => digest lib v .sha512
  | 2 => hmac256 lib v
  | 3 => aead lib v .chacha20Poly1305
  | 4 => aead lib v .aes256Gcm
  | 5 => digest lib v .sha3_256
  | 6 => digest lib v .sha3_512
  -- digest("SHAKE-128(256)") and digest("SHAKE-256(512)")
  | 7 => xof lib v .shake128 32
  | 8 => xof lib v .shake256 64
  | 9 => hkdf lib v
  | 10 => pbkdf2 lib v
  | 11 => ed25519 lib v
  | 12 => x25519 lib v
  | 13 => ecdsaVerify lib v
  | 14 => rsaPssVerify lib v
  | _ => abstain

end Botan

/-! ## libgcrypt -/

namespace Libgcrypt

def hashBuf (md : EvpMd) : Handled := unchecked v.msg.length (lib.digest md v.msg)

def shake (x : EvpXof) (outlen : ℕ) : Handled :=
  checked v.msg.length (lib.xof x v.msg outlen)

def hmacAlgo (md : EvpMd) : Handled := checked v.msg.length (lib.hmac md v.key v.msg)

def hmac256 : Handled := hmacAlgo lib v .sha256

/-- `hmac_algo` with one of the two MACs that are no HMAC. -/
def macAlgo (m : EvpMac) : Handled := checked v.msg.length (lib.mac m v.key v.msg)

def aeadKl (cipher : EvpCipher) (keylen : ℕ) : Handled :=
  sealParts v.msg.length (lib.aead cipher (v.key.take keylen) v.nonce v.aad v.msg)

def aead (cipher : EvpCipher) : Handled := aeadKl lib v cipher cmfKeylen

def pbkdf2 : Handled := checked v.msg.length (lib.pbkdf2 v.msg v.key cmfPbkdf2Iter)

def compute : Handled :=
  match v.op with
  | 0 => hashBuf lib v .sha256
  | 1 => hashBuf lib v .sha512
  | 2 => hmac256 lib v
  | 3 => aead lib v .chacha20Poly1305
  | 4 => aead lib v .aes256Gcm
  | 5 => hashBuf lib v .sha3_256
  | 6 => hashBuf lib v .sha3_512
  | 7 => shake lib v .shake128 32
  | 8 => shake lib v .shake256 64
  | 10 => pbkdf2 lib v
  | 15 => hashBuf lib v .sha1
  | 16 => hashBuf lib v .sha224
  | 17 => hashBuf lib v .sha384
  | 18 => hashBuf lib v .sha512_256
  | 19 => hashBuf lib v .md5
  | 20 => hmacAlgo lib v .sha1
  | 21 => hmacAlgo lib v .sha384
  | 22 => hmacAlgo lib v .sha512
  | 23 => aeadKl lib v .aes128Gcm 16
  | 24 => aeadKl lib v .aes192Gcm 24
  | 25 => macAlgo lib v .poly1305
  | 26 => macAlgo lib v .cmacAes256Cbc
  | _ => abstain

end Libgcrypt

/-! ## nettle -/

namespace Nettle

def hash (md : EvpMd) : Handled := unchecked v.msg.length (lib.digest md v.msg)

def sha256 : Handled := hash lib v .sha256
def sha512 : Handled := hash lib v .sha512
def sha3_256_ : Handled := hash lib v .sha3_256
def sha3_512_ : Handled := hash lib v .sha3_512
def nsha1 : Handled := hash lib v .sha1
def nsha224 : Handled := hash lib v .sha224
def nsha384 : Handled := hash lib v .sha384
def nsha512_256 : Handled := hash lib v .sha512_256
def nmd5 : Handled := hash lib v .md5

def shake256 : Handled := unchecked v.msg.length (lib.xof .shake256 v.msg 64)

def hmac (md : EvpMd) : Handled := unchecked v.msg.length (lib.hmac md v.key v.msg)

def hmac256 : Handled := hmac lib v .sha256
def hmac1 : Handled := hmac lib v .sha1
def hmac384 : Handled := hmac lib v .sha384
def hmac512 : Handled := hmac lib v .sha512

def aead (cipher : EvpCipher) (keylen : ℕ) : Handled where
  footprint :=
    ⟨[⟨0, v.msg.length⟩], [⟨0, v.msg.length⟩, ⟨v.msg.length, cmfTaglen⟩]⟩
  result := .output (lib.aead cipher (v.key.take keylen) v.nonce v.aad v.msg).bytes

def chachapoly : Handled := aead lib v .chacha20Poly1305 32
def aesgcm : Handled := aead lib v .aes256Gcm 32
def aesgcm128 : Handled := aead lib v .aes128Gcm 16
def aesgcm192 : Handled := aead lib v .aes192Gcm 24

def cmac256 : Handled := unchecked v.msg.length (lib.mac .cmacAes256Cbc v.key v.msg)

def pbkdf2_ : Handled := unchecked v.msg.length (lib.pbkdf2 v.msg v.key cmfPbkdf2Iter)

def hkdf_ : Handled := unchecked v.msg.length (lib.hkdf v.msg v.key v.aad)

def ed25519_ : Handled := unchecked v.msg.length (lib.ed25519Sign v.key v.msg)

def x25519_ : Handled :=
  -- RFC 7748 clamp
  let scalar := (v.key.modify 0 (· &&& 248)).modify 31 fun b => (b &&& 127) ||| 64
  unchecked cmfX25519Len (lib.x25519 scalar (v.msg.take cmfX25519Len))

def compute : Handled :=
  match v.op with
  | 0 => sha256 lib v
  | 1 => sha512 lib v
  | 2 => hmac256 lib v
  | 3 => chachapoly lib v
  | 4 => aesgcm lib v
  | 5 => sha3_256_ lib v
  | 6 => sha3_512_ lib v
  | 8 => shake256 lib v
  | 9 => hkdf_ lib v
  | 10 => pbkdf2_ lib v
  | 11 => ed25519_ lib v
  | 12 => x25519_ lib v
  | 15 => nsha1 lib v
  | 16 => nsha224 lib v
  | 17 => nsha384 lib v
  | 18 => nsha512_256 lib v
  | 19 => nmd5 lib v
  | 20 => hmac1 lib v
  | 21 => hmac384 lib v
  | 22 => hmac512 lib v
  | 23 => aesgcm128 lib v
  | 24 => aesgcm192 lib v
  | 26 => cmac256 lib v
  | _ => abstain

end Nettle

end

end Compute
end CMFuzz
