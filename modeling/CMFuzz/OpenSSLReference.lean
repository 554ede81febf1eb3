import CMFuzz.WireProtocol

/-!
# The OpenSSL reference of the runner

`ref_compute` of `diff_subproc_runner.c` dispatches on the op to the functions
of `libcrypto`.  The library is a parameter: its results are arbitrary up to
the documented output lengths.
-/

namespace CMFuzz
namespace Runner

open ByteCodec
open Wire

/-! ## OpenSSL -/

inductive EvpMd where
  | sha256 | sha512 | sha3_256 | sha3_512 | sha1 | sha224 | sha384 | sha512_256 | md5
  deriving DecidableEq, Repr

def EvpMd.size : EvpMd → ℕ
  | .sha256 => 32
  | .sha512 => 64
  | .sha3_256 => 32
  | .sha3_512 => 64
  | .sha1 => 20
  | .sha224 => 28
  | .sha384 => 48
  | .sha512_256 => 32
  | .md5 => 16

inductive EvpXof where
  | shake128 | shake256
  deriving DecidableEq, Repr

inductive EvpCipher where
  | chacha20Poly1305 | aes256Gcm | aes128Gcm | aes192Gcm
  deriving DecidableEq, Repr

inductive EvpMac where
  | poly1305 | cmacAes256Cbc
  deriving DecidableEq, Repr

/-- A signature scheme with a key that is generated once per run.  The number
is that of the test vector: the results of key generation and signing depend
on randomness outside the seed. -/
structure Signer (κ : Type) where
  gen : ℕ → Option κ
  sign : κ → ℕ → Bytes → Option Bytes
  sign_length : ∀ key i m sig, sign key i m = some sig → sig.length ≤ 512
  verify : κ → Bytes → Bytes → Bool
  exportKey : κ → Option Bytes
  exportKey_length : ∀ key pub, exportKey key = some pub → pub.length ≤ 512

/-- The functions of `libcrypto` the runner calls, with `none` for failure. -/
structure OpenSSL (κ : Type) where
  digest : EvpMd → Bytes → Option Bytes
  digest_length : ∀ md m o, digest md m = some o → o.length = md.size
  xof : EvpXof → Bytes → ℕ → Option Bytes
  xof_length : ∀ md m n o, xof md m n = some o → o.length = n
  hmac : EvpMd → Bytes → Bytes → Option Bytes
  hmac_length : ∀ md k m o, hmac md k m = some o → o.length = md.size
  aead : EvpCipher → Bytes → Bytes → Bytes → Bytes → Option Bytes
  aead_length : ∀ ci k n a m o, aead ci k n a m = some o →
    o.length = m.length + cmfTaglen
  mac : EvpMac → Bytes → Bytes → ℕ → Option Bytes
  mac_length : ∀ name k m n o, mac name k m n = some o → o.length ≤ n
  hkdf : Bytes → Bytes → Bytes → ℕ → Option Bytes
  hkdf_length : ∀ ikm salt info n o, hkdf ikm salt info n = some o → o.length = n
  pbkdf2 : Bytes → Bytes → ℕ → ℕ → Option Bytes
  pbkdf2_length : ∀ pw salt it n o, pbkdf2 pw salt it n = some o → o.length = n
  ed25519Sign : Bytes → Bytes → Option Bytes
  ed25519Sign_length : ∀ seed m o, ed25519Sign seed m = some o →
    o.length = cmfEd25519Siglen
  x25519 : Bytes → Bytes → Option Bytes
  x25519_length : ∀ scalar peer o, x25519 scalar peer = some o →
    o.length = cmfX25519Len
  ecdsa : Signer κ
  rsaPss : Signer κ

variable {κ : Type}

def refCompute (ssl : OpenSSL κ) (v : CmfVec) : Option Bytes :=
  match v.op with
  | 0 => ssl.digest .sha256 v.msg
  | 1 => ssl.digest .sha512 v.msg
  | 2 => ssl.hmac .sha256 v.key v.msg
  | 3 => ssl.aead .chacha20Poly1305 v.key v.nonce v.aad v.msg
  | 4 => ssl.aead .aes256Gcm v.key v.nonce v.aad v.msg
  | 5 => ssl.digest .sha3_256 v.msg
  | 6 => ssl.digest .sha3_512 v.msg
  | 7 => ssl.xof .shake128 v.msg 32
  | 8 => ssl.xof .shake256 v.msg 64
  | 9 => ssl.hkdf v.msg v.key v.aad cmfHkdfOutlen
  | 10 => ssl.pbkdf2 v.msg v.key 4096 cmfPbkdf2Dklen
  | 11 => ssl.ed25519Sign v.key v.msg
  | 12 => ssl.x25519 v.key (v.msg.take cmfX25519Len)
  | 15 => ssl.digest .sha1 v.msg
  | 16 => ssl.digest .sha224 v.msg
  | 17 => ssl.digest .sha384 v.msg
  | 18 => ssl.digest .sha512_256 v.msg
  | 19 => ssl.digest .md5 v.msg
  | 20 => ssl.hmac .sha1 v.key v.msg
  | 21 => ssl.hmac .sha384 v.key v.msg
  | 22 => ssl.hmac .sha512 v.key v.msg
  | 23 => ssl.aead .aes128Gcm (v.key.take 16) v.nonce v.aad v.msg
  | 24 => ssl.aead .aes192Gcm (v.key.take 24) v.nonce v.aad v.msg
  | 25 => ssl.mac .poly1305 v.key v.msg cmfTaglen
  | 26 => ssl.mac .cmacAes256Cbc v.key v.msg cmfTaglen
  | _ => none

theorem EvpMd.size_le (md : EvpMd) : md.size ≤ 64 := by
  cases md <;> decide

theorem refCompute_length {ssl : OpenSSL κ} {v : CmfVec} {o : Bytes}
    (ho : refCompute ssl v = some o) : o.length ≤ v.msg.length + 64 := by
  have hfixed : ∀ {n}, o.length ≤ n → n ≤ 64 → o.length ≤ v.msg.length + 64 := by
    omega
  have hdigest : ∀ md m, ssl.digest md m = some o → o.length ≤ v.msg.length + 64 :=
    fun md m h => hfixed (ssl.digest_length md m o h).le md.size_le
  have hhmac : ∀ md k m, ssl.hmac md k m = some o → o.length ≤ v.msg.length + 64 :=
    fun md k m h => hfixed (ssl.hmac_length md k m o h).le md.size_le
  have haead : ∀ ci k n a, ssl.aead ci k n a v.msg = some o →
      o.length ≤ v.msg.length + 64 := by
    intro ci k n a h
    rw [ssl.aead_length ci k n a v.msg o h]
    exact Nat.add_le_add_left (by decide) _
  unfold refCompute at ho
  split at ho
  case h_8 => exact hfixed (ssl.xof_length _ _ _ _ ho).le (by decide)
  case h_9 => exact hfixed (ssl.xof_length _ _ _ _ ho).le (by decide)
  case h_10 => exact hfixed (ssl.hkdf_length _ _ _ _ _ ho).le (by decide)
  case h_11 => exact hfixed (ssl.pbkdf2_length _ _ _ _ _ ho).le (by decide)
  case h_12 => exact hfixed (ssl.ed25519Sign_length _ _ _ ho).le (by decide)
  case h_13 => exact hfixed (ssl.x25519_length _ _ _ ho).le (by decide)
  case h_24 => exact hfixed (ssl.mac_length _ _ _ _ _ ho) (by decide)
  case h_25 => exact hfixed (ssl.mac_length _ _ _ _ _ ho) (by decide)
  case h_26 => exact absurd ho (by simp)
  all_goals first
    | exact hdigest _ _ ho
    | exact hhmac _ _ _ ho
    | exact haead _ _ _ _ ho

def zeroSigner (siglen publen : ℕ) (hsig : siglen ≤ 512) (hpub : publen ≤ 512) :
    Signer Unit where
  gen _ := some ()
  sign _ _ _ := some (List.replicate siglen 0)
  sign_length := by simpa using hsig
  verify _ _ _ := true
  exportKey _ := some (List.replicate publen 0)
  exportKey_length := by simpa using hpub

/-- An OpenSSL whose every call succeeds with zero bytes. -/
def zeroSSL : OpenSSL Unit where
  digest md _ := some (List.replicate md.size 0)
  digest_length := by simp +contextual [eq_comm]
  xof _ _ n := some (List.replicate n 0)
  xof_length := by simp +contextual [eq_comm]
  hmac md _ _ := some (List.replicate md.size 0)
  hmac_length := by simp +contextual [eq_comm]
  aead _ _ _ _ m := some (List.replicate (m.length + cmfTaglen) 0)
  aead_length := by simp +contextual [eq_comm]
  mac _ _ _ n := some (List.replicate n 0)
  mac_length := by simp +contextual [eq_comm]
  hkdf _ _ _ n := some (List.replicate n 0)
  hkdf_length := by simp +contextual [eq_comm]
  pbkdf2 _ _ _ n := some (List.replicate n 0)
  pbkdf2_length := by simp +contextual [eq_comm]
  ed25519Sign _ _ := some (List.replicate cmfEd25519Siglen 0)
  ed25519Sign_length := by simp +contextual [eq_comm]
  x25519 _ _ := some (List.replicate cmfX25519Len 0)
  x25519_length := by simp +contextual [eq_comm]
  ecdsa := zeroSigner 70 65 (by decide) (by decide)
  rsaPss := zeroSigner 256 256 (by decide) (by decide)

end Runner
end CMFuzz
