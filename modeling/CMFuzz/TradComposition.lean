import CMFuzz.BlockModes
import CMFuzz.FuzzEngine
import CMFuzz.HpkeHarness
import CMFuzz.VectorGeneration

/-!
# Traditional compositions

`comp_trad_harness`: encrypt-then-MAC over AES-256-CBC and HMAC-SHA256, and a
record layer that makes the nonce of AES-256-GCM from a sequence number.  The
block cipher, HMAC and GCM of OpenSSL are functions that the harness calls.
-/

namespace CMFuzz
namespace Trad

open BlockModes
open ByteCodec
open Engine
open SplitMix
open Runner (flipBit bitMask_ne_zero)

structure Library where
  aes : Bytes → Bytes → Bytes
  aesInv : Bytes → Bytes → Bytes
  hmac : Bytes → Bytes → Bytes
  gcmSeal : Bytes → Bytes → Bytes → Bytes → Bytes
  gcmOpen : Bytes → Bytes → Bytes → Bytes → Option Bytes

/-- What the harness is compiled with. -/
inductive Build where
  | shipped
  | faultEtm
  | faultRec
  deriving DecidableEq, Repr

/-! ## Encrypt-then-MAC -/

/-- `iv || ct || tag`. -/
def etmSeal (lib : Library) (k1 k2 iv m : Bytes) : Bytes :=
  let body := iv ++ cbc 16 (lib.aes k1) iv m
  body ++ lib.hmac k2 body

inductive Opening where
  /-- `return -1` before the decryption. -/
  | rejected
  /-- The plaintext, or nothing when the padding is bad. -/
  | decrypted (pt : Option Bytes)
  deriving DecidableEq, Repr

def Opening.ret : Opening → ℤ
  | .rejected => -1
  | .decrypted none => -1
  | .decrypted (some pt) => pt.length

def etmOpen (lib : Library) (build : Build) (k1 k2 input : Bytes) : Opening :=
  if input.length < 16 + 16 + 32 then .rejected
  else
    let ctn := input.length - 16 - 32
    if ctn % 16 ≠ 0 then .rejected
    else
      let mac := lib.hmac k2 (input.take (16 + ctn))
      let macok := build = .faultEtm ∨ mac = (input.drop (16 + ctn)).take 32
      if ¬ macok then .rejected
      else .decrypted (cbcOpen 16 (lib.aesInv k1) (input.take 16) ((input.drop 16).take ctn))

/-- An input that carries the right tag over whole blocks. -/
structure Authentic (lib : Library) (k2 input : Bytes) : Prop where
  size : 64 ≤ input.length
  blocks : 16 ∣ input.length - 48
  tag : lib.hmac k2 (input.take (input.length - 32)) = input.drop (input.length - 32)

theorem authentic_iff {lib : Library} {k2 input : Bytes} :
    Authentic lib k2 input ↔ 16 + 16 + 32 ≤ input.length ∧ (input.length - 16 - 32) % 16 = 0 ∧
      lib.hmac k2 (input.take (16 + (input.length - 16 - 32))) =
        (input.drop (16 + (input.length - 16 - 32))).take 32 := by
  by_cases hsize : 64 ≤ input.length
  · have hbody : 16 + (input.length - 16 - 32) = input.length - 32 := by omega
    have htag : (input.drop (input.length - 32)).take 32 = input.drop (input.length - 32) :=
      List.take_of_length_le (by rw [List.length_drop]; omega)
    have hctn : input.length - 16 - 32 = input.length - 48 := by omega
    rw [hbody, htag, hctn]
    constructor
    · intro h
      exact ⟨h.size, Nat.mod_eq_zero_of_dvd h.blocks, h.tag⟩
    · intro h
      exact ⟨h.1, Nat.dvd_of_mod_eq_zero h.2.1, h.2.2⟩
  · constructor
    · intro h
      exact absurd h.size hsize
    · intro h
      exact absurd h.1 hsize

theorem etmOpen_authentic {lib : Library} (k1 : Bytes) {k2 input : Bytes}
    (h : Authentic lib k2 input) :
    etmOpen lib .shipped k1 k2 input = .decrypted (cbcOpen 16 (lib.aesInv k1) (input.take 16)
      ((input.drop 16).take (input.length - 16 - 32))) := by
  rcases authentic_iff.mp h with ⟨hsize, hblocks, hmac⟩
  rw [etmOpen, if_neg (not_lt.mpr hsize)]
  dsimp only
  rw [if_neg (not_not.mpr hblocks), if_neg (not_not.mpr (Or.inr hmac))]

theorem etmOpen_not_authentic {lib : Library} (k1 : Bytes) {k2 input : Bytes}
    (h : ¬ Authentic lib k2 input) : etmOpen lib .shipped k1 k2 input = .rejected := by
  rw [etmOpen]
  split
  · rfl
  · rename_i hsize
    dsimp only
    split
    · rfl
    · rename_i hblocks
      split
      · rfl
      · rename_i hmac
        exact absurd (authentic_iff.mpr ⟨not_lt.mp hsize, not_not.mp hblocks,
          (not_not.mp hmac).resolve_left (by decide)⟩) h

theorem etmOpen_eq_rejected_iff {lib : Library} {k1 k2 input : Bytes} :
    etmOpen lib .shipped k1 k2 input = .rejected ↔ ¬ Authentic lib k2 input := by
  constructor
  · intro hrejected hauthentic
    rw [etmOpen_authentic k1 hauthentic] at hrejected
    cases hrejected
  · exact etmOpen_not_authentic k1

theorem authentic_append {lib : Library} {k2 body tag : Bytes} (htag : tag.length = 32)
    (h : Authentic lib k2 (body ++ tag)) : lib.hmac k2 body = tag := by
  have hlen : (body ++ tag).length - 32 = body.length := by
    rw [List.length_append, htag, Nat.add_sub_cancel]
  have heq := h.tag
  rwa [hlen, List.take_left, List.drop_left] at heq

/-- What the tag is computed over. -/
def etmBody (lib : Library) (k1 iv m : Bytes) : Bytes := iv ++ cbc 16 (lib.aes k1) iv m

theorem etmSeal_eq (lib : Library) (k1 k2 iv m : Bytes) :
    etmSeal lib k1 k2 iv m = etmBody lib k1 iv m ++ lib.hmac k2 (etmBody lib k1 iv m) := rfl

theorem etmSeal_body_length {lib : Library} (hmac : ∀ k data, (lib.hmac k data).length = 32)
    (k1 k2 iv m : Bytes) :
    (etmSeal lib k1 k2 iv m).length = (etmBody lib k1 iv m).length + 32 := by
  rw [etmSeal_eq, List.length_append, hmac]

section

variable {lib : Library} {k1 iv : Bytes} (hinv : Invertible 16 (lib.aes k1) (lib.aesInv k1))
  (hmac : ∀ k data, (lib.hmac k data).length = 32) (hiv : iv.length = 16)

include hinv hiv in
theorem etmBody_length (m : Bytes) :
    (etmBody lib k1 iv m).length = 16 + 16 * (m.length / 16 + 1) := by
  rw [etmBody, List.length_append, hiv, cbc_length hinv.blockCipher (by decide) hiv]

include hinv hmac hiv

theorem etmSeal_authentic (k2 m : Bytes) : Authentic lib k2 (etmSeal lib k1 k2 iv m) := by
  have hbody := etmBody_length hinv hiv m
  have hlen := etmSeal_body_length hmac k1 k2 iv m
  refine ⟨by omega, ⟨m.length / 16 + 1, by omega⟩, ?_⟩
  rw [hlen, Nat.add_sub_cancel, etmSeal_eq, List.take_left, List.drop_left]

theorem etmOpen_etmSeal (k2 m : Bytes) :
    etmOpen lib .shipped k1 k2 (etmSeal lib k1 k2 iv m) = .decrypted (some m) := by
  have hbody := etmBody_length hinv hiv m
  have hlen := etmSeal_body_length hmac k1 k2 iv m
  have hcbc := cbc_length hinv.blockCipher (by decide) hiv m
  have hct : ((etmSeal lib k1 k2 iv m).drop 16).take
      ((etmSeal lib k1 k2 iv m).length - 16 - 32) = cbc 16 (lib.aes k1) iv m := by
    rw [hlen, hbody, etmSeal_eq, etmBody, List.append_assoc, List.drop_left' hiv,
      List.take_left' (by omega)]
  have hfirst : (etmSeal lib k1 k2 iv m).take 16 = iv := by
    rw [etmSeal_eq, etmBody, List.append_assoc, List.take_left' hiv]
  rw [etmOpen_authentic k1 (etmSeal_authentic hinv hmac hiv k2 m), hct, hfirst,
    cbcOpen_cbc hinv (by decide) (by decide) hiv]

end

section

variable {lib : Library} (hmac : ∀ k data, (lib.hmac k data).length = 32)

include hmac

theorem etmOpen_flip_tag (k1 k2 iv m : Bytes) {i b : ℕ} (hb : b < 8)
    (hi : (etmSeal lib k1 k2 iv m).length - 32 ≤ i) (hi' : i < (etmSeal lib k1 k2 iv m).length) :
    etmOpen lib .shipped k1 k2 (flipBit (etmSeal lib k1 k2 iv m) i b) = .rejected := by
  have hlen := etmSeal_body_length hmac k1 k2 iv m
  obtain ⟨j, rfl⟩ : ∃ j, i = (etmBody lib k1 iv m).length + j :=
    ⟨i - (etmBody lib k1 iv m).length, by omega⟩
  have htag := hmac k2 (etmBody lib k1 iv m)
  apply etmOpen_not_authentic
  intro hauthentic
  rw [flipBit, etmSeal_eq, modify_append_right] at hauthentic
  have heq := authentic_append ((List.length_modify _ _ _).trans htag) hauthentic
  exact modify_xor_ne (by omega) (bitMask_ne_zero hb) heq.symm

theorem etmOpen_flip_body (k1 k2 iv m : Bytes) {i b : ℕ} (hb : b < 8)
    (hi : i < (etmSeal lib k1 k2 iv m).length - 32)
    (haccept : etmOpen lib .shipped k1 k2 (flipBit (etmSeal lib k1 k2 iv m) i b) ≠ .rejected) :
    flipBit (etmBody lib k1 iv m) i b ≠ etmBody lib k1 iv m ∧
      lib.hmac k2 (flipBit (etmBody lib k1 iv m) i b) = lib.hmac k2 (etmBody lib k1 iv m) := by
  have hlen := etmSeal_body_length hmac k1 k2 iv m
  have hbody : i < (etmBody lib k1 iv m).length := by omega
  constructor
  · exact modify_xor_ne hbody (bitMask_ne_zero hb)
  · rw [ne_eq, etmOpen_eq_rejected_iff, not_not, flipBit, etmSeal_eq,
      modify_append_left _ hbody] at haccept
    exact authentic_append (hmac _ _) haccept

end

/-- What is sealed opens, nothing is decrypted without its tag, and one flipped
bit is only taken where HMAC collides. -/
theorem etm_authenticates {lib : Library}
    (haes : ∀ k, k.length = 32 → Invertible 16 (lib.aes k) (lib.aesInv k))
    (hmac : ∀ k data, (lib.hmac k data).length = 32) {k1 iv : Bytes} (hk1 : k1.length = 32)
    (hiv : iv.length = 16) (k2 : Bytes) :
    (∀ m : Bytes, m.length ≤ 1024 →
      (etmSeal lib k1 k2 iv m).length = 16 + 16 * (m.length / 16 + 1) + 32 ∧
      (etmSeal lib k1 k2 iv m).length ≤ 1088 ∧
      etmOpen lib .shipped k1 k2 (etmSeal lib k1 k2 iv m) = .decrypted (some m) ∧
      (etmOpen lib .shipped k1 k2 (etmSeal lib k1 k2 iv m)).ret = m.length) ∧
    (∀ input : Bytes,
      (0 ≤ (etmOpen lib .shipped k1 k2 input).ret → Authentic lib k2 input) ∧
      (¬ Authentic lib k2 input → etmOpen lib .shipped k1 k2 input = .rejected ∧
        (etmOpen lib .shipped k1 k2 input).ret = -1)) ∧
    ∀ m : Bytes, m.length ≤ 1024 → ∀ i < (etmSeal lib k1 k2 iv m).length, ∀ b < 8,
      ((etmSeal lib k1 k2 iv m).length - 32 ≤ i →
        (etmOpen lib .shipped k1 k2 (flipBit (etmSeal lib k1 k2 iv m) i b)).ret = -1) ∧
      (i < (etmSeal lib k1 k2 iv m).length - 32 →
        0 ≤ (etmOpen lib .shipped k1 k2 (flipBit (etmSeal lib k1 k2 iv m) i b)).ret →
        flipBit (etmBody lib k1 iv m) i b ≠ etmBody lib k1 iv m ∧
          lib.hmac k2 (flipBit (etmBody lib k1 iv m) i b) =
            lib.hmac k2 (etmBody lib k1 iv m)) := by
  have hinv := haes k1 hk1
  refine ⟨?_, ?_, ?_⟩
  · intro m hm
    have hlen := etmSeal_body_length hmac k1 k2 iv m
    rw [etmBody_length hinv hiv] at hlen
    have hopen := etmOpen_etmSeal hinv hmac hiv k2 m
    exact ⟨hlen, by omega, hopen, congrArg Opening.ret hopen⟩
  · intro input
    constructor
    · intro haccept
      by_contra hauthentic
      rw [etmOpen_not_authentic k1 hauthentic] at haccept
      exact absurd haccept (by decide)
    · intro hauthentic
      have hrejected := etmOpen_not_authentic k1 hauthentic
      exact ⟨hrejected, congrArg Opening.ret hrejected⟩
  · intro m _ i hi b hb
    constructor
    · intro htag
      exact congrArg Opening.ret (etmOpen_flip_tag hmac k1 k2 iv m hb htag hi)
    · intro hbody haccept
      refine etmOpen_flip_body hmac k1 k2 iv m hb hbody ?_
      intro hrejected
      rw [hrejected] at haccept
      exact absurd haccept (by decide)

/-! ## The record layer -/

/-- The sequence number goes into the low eight bytes, its lowest byte last. -/
def recNonce (staticIv : Bytes) (seq : UInt64) : Bytes :=
  (List.range 8).foldl
    (fun nonce i => nonce.modify (11 - i) (· ^^^ (seq >>> UInt64.ofNat (8 * i)).toUInt8)) staticIv

def recSeal (lib : Library) (key staticIv : Bytes) (seq : UInt64) (aad m : Bytes) : Bytes :=
  lib.gcmSeal key (recNonce staticIv seq) aad m

/-- The plaintext when the tag is right. -/
def recOpen (lib : Library) (build : Build) (key staticIv : Bytes) (seqReq : UInt64)
    (aad ct : Bytes) (seqReal : UInt64) : Option Bytes :=
  let use := if build = .faultRec then seqReal else seqReq
  lib.gcmOpen key (recNonce staticIv use) aad ct

theorem recNonce_eq {staticIv : Bytes} (hiv : staticIv.length = 12) (seq : UInt64) :
    recNonce staticIv seq =
      staticIv.take 4 ++ xorBytes (staticIv.drop 4) (wordBytes seq).reverse := by
  match staticIv, hiv with
  | [a0, a1, a2, a3, a4, a5, a6, a7, a8, a9, a10, a11], _ => rfl

theorem recNonce_take {staticIv : Bytes} (hiv : staticIv.length = 12) (seq : UInt64) :
    (recNonce staticIv seq).take 4 = staticIv.take 4 := by
  rw [recNonce_eq hiv]
  exact List.take_left' (by rw [List.length_take, hiv]; rfl)

theorem recNonce_injective {staticIv : Bytes} (hiv : staticIv.length = 12) :
    Function.Injective (recNonce staticIv) := by
  intro s s' heq
  have hlow : (staticIv.drop 4).length = 8 := by rw [List.length_drop, hiv]
  have hword : ∀ s, (wordBytes s).reverse.length = 8 := fun s => by
    rw [List.length_reverse, wordBytes_length]
  rw [recNonce_eq hiv, recNonce_eq hiv] at heq
  have hxor := List.append_cancel_left heq
  have hbytes : (wordBytes s).reverse = (wordBytes s').reverse := by
    rw [← xorBytes_xorBytes (hlow.trans (hword s).symm), hxor,
      xorBytes_xorBytes (hlow.trans (hword s').symm)]
  exact wordBytes_injective (List.reverse_injective hbytes)

/-- An AEAD that opens what was sealed under the same key, nonce and additional
data, and whose ciphertexts show all of them. -/
structure IdealAead (lib : Library) : Prop where
  opens : ∀ k n aad c m, lib.gcmOpen k n aad c = some m ↔ c = lib.gcmSeal k n aad m
  injective : ∀ k n aad m k' n' aad' m', lib.gcmSeal k n aad m = lib.gcmSeal k' n' aad' m' →
    k = k' ∧ n = n' ∧ aad = aad' ∧ m = m'

theorem recOpen_recSeal {lib : Library} (hideal : IdealAead lib) (key staticIv : Bytes)
    (seq : UInt64) (aad m : Bytes) (seqReal : UInt64) :
    recOpen lib .shipped key staticIv seq aad (recSeal lib key staticIv seq aad m) seqReal =
      some m := (hideal.opens _ _ _ _ _).mpr rfl

theorem recOpen_other {lib : Library} (hideal : IdealAead lib) {staticIv : Bytes}
    (hiv : staticIv.length = 12) (key : Bytes) {seq seq' : UInt64} (hne : seq' ≠ seq)
    (aad m : Bytes) (seqReal : UInt64) :
    recOpen lib .shipped key staticIv seq' aad (recSeal lib key staticIv seq aad m) seqReal =
      none := by
  rw [Option.eq_none_iff_forall_ne_some]
  intro pt hopen
  have hsealed := (hideal.opens _ _ _ _ _).mp hopen
  have hnonce := (hideal.injective _ _ _ _ _ _ _ _ hsealed).2.1
  exact hne (recNonce_injective hiv hnonce).symm

theorem xor_one_ne (seq : UInt64) : seq ^^^ 1 ≠ seq := by
  intro heq
  have hzero := (UInt64.xor_right_inj seq).mp (heq.trans UInt64.xor_zero.symm)
  exact absurd hzero (by decide)

structure Record where
  seq : UInt64
  aad : Bytes
  msg : Bytes

/-- The nonces and the sealed bytes of a run of `rec_seal`. -/
def sealRun (lib : Library) (key staticIv : Bytes) (records : List Record) :
    List (Bytes × Bytes) :=
  records.map fun r => (recNonce staticIv r.seq, recSeal lib key staticIv r.seq r.aad r.msg)

theorem sealRun_nonces {staticIv : Bytes} (hiv : staticIv.length = 12) (lib : Library)
    (key : Bytes) {records : List Record} (hseqs : (records.map Record.seq).Nodup) :
    ((sealRun lib key staticIv records).map Prod.fst).Nodup := by
  have hnonces := hseqs.map (recNonce_injective hiv)
  rw [List.map_map] at hnonces
  rw [sealRun, List.map_map]
  exact hnonces

/-- A record only opens at its own sequence number, and sequence numbers that
differ never share a nonce. -/
theorem record_binds_sequence {staticIv : Bytes} (hiv : staticIv.length = 12) :
    (∀ s s', recNonce staticIv s = recNonce staticIv s' ↔ s = s') ∧
    (∀ s, (recNonce staticIv s).take 4 = staticIv.take 4) ∧
    (∀ lib, IdealAead lib → ∀ (key aad m : Bytes) (s seqReal : UInt64),
      recOpen lib .shipped key staticIv s aad (recSeal lib key staticIv s aad m) seqReal =
        some m ∧
      (∀ s', s' ≠ s →
        recOpen lib .shipped key staticIv s' aad (recSeal lib key staticIv s aad m) seqReal =
          none) ∧
      recOpen lib .shipped key staticIv (s ^^^ 1) aad (recSeal lib key staticIv s aad m)
        seqReal = none) ∧
    ∀ (lib : Library) (key : Bytes) (records : List Record),
      (records.map Record.seq).Nodup →
        ((sealRun lib key staticIv records).map Prod.fst).Nodup := by
  refine ⟨fun s s' => (recNonce_injective hiv).eq_iff, recNonce_take hiv, ?_, ?_⟩
  · intro lib hideal key aad m s seqReal
    exact ⟨recOpen_recSeal hideal key staticIv s aad m seqReal,
      fun s' hne => recOpen_other hideal hiv key hne aad m seqReal,
      recOpen_other hideal hiv key (xor_one_ne s) aad m seqReal⟩
  · intro lib key records hseqs
    exact sealRun_nonces hiv lib key hseqs

/-! ## One vector of AES-256 and HMAC-SHA256 -/

def vectorKey : Bytes := (List.range 32).map UInt8.ofNat

def vectorIv : Bytes :=
  [0x68, 0x74, 0x4e, 0x5f, 0x2b, 0x5e, 0x6d, 0x7c, 0x83, 0x92, 0xa1, 0xb0, 0xc7, 0xd6, 0xe5, 0xf4]

/-- The block that is encrypted for `"hello"`, and its encryption. -/
def vectorBlock : Bytes :=
  [0x00, 0x11, 0x22, 0x33, 0x44, 0x55, 0x66, 0x77, 0x88, 0x99, 0xaa, 0xbb, 0xcc, 0xdd, 0xee, 0xff]

def vectorCipher : Bytes :=
  [0x8e, 0xa2, 0xb7, 0xca, 0x51, 0x67, 0x45, 0xbf, 0xea, 0xfc, 0x49, 0x90, 0x4b, 0x49, 0x60, 0x89]

def vectorTag : Bytes :=
  [0x87, 0x26, 0x51, 0xc2, 0x7a, 0x9d, 0x44, 0x23, 0x73, 0x93, 0x21, 0x57, 0x75, 0x02, 0x91, 0xe0,
    0xd9, 0xd4, 0xe4, 0x7f, 0x10, 0x2b, 0xa6, 0xc1, 0x57, 0x9a, 0x32, 0xbd, 0xa9, 0x9c, 0x7d, 0x43]

def exchange (a b block : Bytes) : Bytes :=
  if block = a then b else if block = b then a else block

theorem exchange_invertible {n : ℕ} {a b : Bytes} (ha : a.length = n) (hb : b.length = n) :
    Invertible n (exchange a b) (exchange a b) where
  length block hblock := by
    rw [exchange]
    split
    · exact hb
    · split
      · exact ha
      · exact hblock
  decrypt_encrypt block _ := by
    by_cases hblocka : block = a
    · by_cases hab : b = a
      · simp [exchange, hblocka, hab]
      · simp [exchange, hblocka, hab]
    · by_cases hblockb : block = b
      · simp [exchange, hblockb]
      · simp [exchange, hblocka, hblockb]

/-- Block encryption and HMAC on this vector, and an AEAD whose ciphertexts show
what they were sealed with. -/
def vectorLib : Library where
  aes := fun _ => exchange vectorBlock vectorCipher
  aesInv := fun _ => exchange vectorBlock vectorCipher
  hmac := fun _ _ => vectorTag
  gcmSeal := fun k n aad m => Hpke.framedHead k n aad ++ m
  gcmOpen := fun k n aad ct =>
    if ct = Hpke.framedHead k n aad ++ ct.drop (Hpke.framedHead k n aad).length then
      some (ct.drop (Hpke.framedHead k n aad).length)
    else none

theorem vectorLib_aes (k : Bytes) (_ : k.length = 32) :
    Invertible 16 (vectorLib.aes k) (vectorLib.aesInv k) :=
  exchange_invertible (a := vectorBlock) (b := vectorCipher) rfl rfl

theorem vectorLib_hmac (k data : Bytes) : (vectorLib.hmac k data).length = 32 := rfl

theorem vectorIv_length : vectorIv.length = 16 := rfl

theorem vectorKey_length : vectorKey.length = 32 := by simp [vectorKey]

theorem etm_authenticates_hello :
    let buf := etmSeal vectorLib vectorKey (List.replicate 32 0) vectorIv (ascii "hello")
    let opened := etmOpen vectorLib .shipped vectorKey (List.replicate 32 0)
    buf.length = 64 ∧ opened buf = .decrypted (some (ascii "hello")) ∧
      (opened (flipBit buf 63 0)).ret = -1 := by
  intro buf opened
  obtain ⟨hseal, _, hflip⟩ := etm_authenticates
    vectorLib_aes vectorLib_hmac vectorKey_length vectorIv_length (List.replicate 32 0)
  have hmsg : (ascii "hello").length ≤ 1024 := by decide
  obtain ⟨hlen, _, hopen, _⟩ := hseal (ascii "hello") hmsg
  have hbuf : buf.length = 64 := hlen
  have htag := hflip (ascii "hello") hmsg 63 (hbuf ▸ by decide) 0 (by decide)
  exact ⟨hbuf, hopen, htag.1 (hbuf ▸ by decide)⟩

theorem vectorLib_ideal : IdealAead vectorLib where
  opens k n aad c m := by
    constructor
    · intro hopen
      simp only [vectorLib, Option.ite_none_right_eq_some, Option.some.injEq] at hopen
      rw [hopen.1, hopen.2]
      rfl
    · intro hc
      have hdrop : c.drop (Hpke.framedHead k n aad).length = m := by
        rw [hc]
        exact List.drop_left
      simp only [vectorLib, hdrop, Option.ite_none_right_eq_some]
      exact ⟨hc, trivial⟩
  injective k n aad m k' n' aad' m' heq := by
    rcases Hpke.framedHead_append_inj heq with ⟨hk, hn, haad, hm⟩
    exact ⟨hk.symm, hn.symm, haad.symm, hm.symm⟩

theorem record_binds_sequence_zero :
    recNonce (List.replicate 12 7) 1 ≠ recNonce (List.replicate 12 7) 0x8000000000000000 ∧
      recOpen vectorLib .shipped [1] (List.replicate 12 7) (0 ^^^ 1) [2]
        (recSeal vectorLib [1] (List.replicate 12 7) 0 [2] [3]) 0 = none := by
  have hlen : (List.replicate 12 7 : Bytes).length = 12 := rfl
  have hbinds := record_binds_sequence hlen
  constructor
  · exact fun heq => absurd ((hbinds.1 1 0x8000000000000000).mp heq) (by decide)
  · exact (hbinds.2.2.1 vectorLib vectorLib_ideal [1] [2] [3] 0 0).2.2

/-! ## The harness -/

def etmAlg : String := "EtM(AES-CBC+HMAC)"

def recAlg : String := "TLS1.3-record(AES-GCM)"

/-- The assertions of `test_etm`, with the word that chooses the byte to flip. -/
def etmChecks (lib : Library) (build : Build) (k1 k2 iv m : Bytes) (word : UInt64) :
    List Check :=
  let buf := etmSeal lib k1 k2 iv m
  let opened := etmOpen lib build k1 k2 buf
  let bad := buf.modify (word.toNat % buf.length) (· ^^^ 0x01)
  [⟨etmAlg, "O5-roundtrip", "open length mismatch", opened.ret = m.length⟩,
    ⟨etmAlg, "O5-roundtrip", "opened plaintext != message",
      match opened with
      | .decrypted (some pt) => pt.take m.length = m
      | _ => true⟩,
    ⟨etmAlg, "O5-ciphertext-integrity", "tampered ciphertext/tag was accepted",
      (etmOpen lib build k1 k2 bad).ret < 0⟩]

def testEtm (lib : Library) (build : Build) (r : Reader) : Draw (List Check) := do
  let k1 ← cmfRandombytes 32
  let k2 ← cmfRandombytes 32
  let iv ← cmfRandombytes 16
  let word ← next
  pure (etmChecks lib build k1 k2 iv ((cmfRest r).1.take 1024) word)

def recChecks (lib : Library) (build : Build) (key staticIv : Bytes) (seq : UInt64)
    (aad m : Bytes) (word : UInt64) : List Check :=
  let ct := recSeal lib key staticIv seq aad m
  let opened := recOpen lib build key staticIv seq aad ct seq
  let bad := ct.modify (word.toNat % ct.length) (· ^^^ 0x01)
  [⟨recAlg, "O5-roundtrip", "record failed to open", opened.isSome⟩,
    ⟨recAlg, "O5-roundtrip", "opened plaintext != message",
      opened.any fun pt => pt.take m.length = m⟩,
    ⟨recAlg, "O5-seq-binding", "record opened under wrong sequence number",
      (recOpen lib build key staticIv (seq ^^^ 1) aad ct seq).isNone⟩,
    ⟨recAlg, "O5-tamper", "tampered record was accepted",
      (recOpen lib build key staticIv seq aad bad seq).isNone⟩]

def testRecord (lib : Library) (build : Build) (r : Reader) : Draw (List Check) := do
  let key ← cmfRandombytes 32
  let staticIv ← cmfRandombytes 12
  let (sel, r) := cmfU32 r
  let aad ← cmfRandombytes 5
  let word ← next
  pure (recChecks lib build key staticIv sel.toUInt64 aad ((cmfRest r).1.take 1024) word)

def llvmFuzzerTestOneInput (lib : Library) (build : Build) (data : Bytes) : List Check :=
  if data.length < 3 then []
  else
    let (mode, r) := cmfU8 (cmfReaderInit data)
    let test := match build with
      | .faultEtm => testEtm
      | .faultRec => testRecord
      | .shipped => if mode &&& 1 ≠ 0 then testRecord else testEtm
    (test lib build r (cmfPrngSeed data)).1

theorem etmChecks_shipped {lib : Library} {k1 iv : Bytes}
    (hinv : Invertible 16 (lib.aes k1) (lib.aesInv k1))
    (hmac : ∀ k data, (lib.hmac k data).length = 32) (hiv : iv.length = 16) (k2 m : Bytes)
    (word : UInt64) :
    ∀ c ∈ etmChecks lib .shipped k1 k2 iv m word, c.holds = true ∨
      c.oracle = "O5-ciphertext-integrity" ∧ ∃ body, body ≠ etmBody lib k1 iv m ∧
        lib.hmac k2 body = lib.hmac k2 (etmBody lib k1 iv m) := by
  have hopen := etmOpen_etmSeal hinv hmac hiv k2 m
  have hlen := etmSeal_body_length hmac k1 k2 iv m
  intro c hc
  rw [etmChecks, hopen] at hc
  simp only [List.mem_cons, List.not_mem_nil, or_false] at hc
  rcases hc with rfl | rfl | rfl
  · exact Or.inl (decide_eq_true rfl)
  · exact Or.inl (decide_eq_true List.take_length)
  · by_cases haccept : etmOpen lib .shipped k1 k2 (flipBit (etmSeal lib k1 k2 iv m)
        (word.toNat % (etmSeal lib k1 k2 iv m).length) 0) = .rejected
    · exact Or.inl (decide_eq_true
        (lt_of_eq_of_lt (congrArg Opening.ret haccept) (by decide)))
    · have hpos := Nat.mod_lt word.toNat (show 0 < (etmSeal lib k1 k2 iv m).length by omega)
      have hbody : word.toNat % (etmSeal lib k1 k2 iv m).length <
          (etmSeal lib k1 k2 iv m).length - 32 := by
        by_contra htag
        exact haccept (etmOpen_flip_tag hmac k1 k2 iv m (by decide) (not_lt.mp htag) hpos)
      exact Or.inr ⟨rfl, _, etmOpen_flip_body hmac k1 k2 iv m (by decide) hbody haccept⟩

theorem recChecks_shipped {lib : Library} (hideal : IdealAead lib) {staticIv : Bytes}
    (hiv : staticIv.length = 12) (key : Bytes) (seq : UInt64) (aad m : Bytes) (word : UInt64) :
    ∀ c ∈ recChecks lib .shipped key staticIv seq aad m word,
      c.holds = true ∨ c.oracle = "O5-tamper" := by
  have hopen := recOpen_recSeal hideal key staticIv seq aad m seq
  have hother := recOpen_other hideal hiv key (xor_one_ne seq) aad m seq
  intro c hc
  rw [recChecks, hopen, hother] at hc
  simp only [List.mem_cons, List.not_mem_nil, or_false] at hc
  rcases hc with rfl | rfl | rfl | rfl
  · exact Or.inl rfl
  · exact Or.inl (decide_eq_true List.take_length)
  · exact Or.inl rfl
  · exact Or.inr rfl

/-- What the shipped harness can report at all. -/
theorem shipped_oracle {lib : Library}
    (haes : ∀ k, k.length = 32 → Invertible 16 (lib.aes k) (lib.aesInv k))
    (hmac : ∀ k data, (lib.hmac k data).length = 32) (hideal : IdealAead lib) (data : Bytes)
    {c : Check} (hc : violation (llvmFuzzerTestOneInput lib .shipped data) = some c) :
    c.oracle = "O5-ciphertext-integrity" ∨ c.oracle = "O5-tamper" := by
  have hetm : ∀ r, Always (fun checks : List Check => ∀ c ∈ checks, c.holds = true ∨
      c.oracle = "O5-ciphertext-integrity" ∨ c.oracle = "O5-tamper")
      (testEtm lib .shipped r) := by
    intro r
    refine Always.bind (cmfRandombytes_length 32) fun k1 hk1 => ?_
    refine Always.bind (always_true _) fun k2 _ => ?_
    refine Always.bind (cmfRandombytes_length 16) fun iv hiv => ?_
    refine Always.bind (always_true _) fun word _ => Always.pure ?_
    intro c hc
    exact (etmChecks_shipped (haes k1 hk1) hmac hiv k2 _ word c hc).imp_right
      fun h => Or.inl h.1
  have hrec : ∀ r, Always (fun checks : List Check => ∀ c ∈ checks, c.holds = true ∨
      c.oracle = "O5-ciphertext-integrity" ∨ c.oracle = "O5-tamper")
      (testRecord lib .shipped r) := by
    intro r
    refine Always.bind (always_true _) fun key _ => ?_
    refine Always.bind (cmfRandombytes_length 12) fun staticIv hiv => ?_
    refine Always.bind (always_true _) fun aad _ => ?_
    refine Always.bind (always_true _) fun word _ => Always.pure ?_
    intro c hc
    exact (recChecks_shipped hideal hiv key _ aad _ word c hc).imp_right Or.inr
  have hfails : c.holds = false := by
    have hnot := List.find?_some hc
    simpa only [Bool.not_eq_true'] using hnot
  have hmem := List.mem_of_find?_eq_some hc
  have hall : ∀ c ∈ llvmFuzzerTestOneInput lib .shipped data, c.holds = true ∨
      c.oracle = "O5-ciphertext-integrity" ∨ c.oracle = "O5-tamper" := by
    rw [llvmFuzzerTestOneInput]
    split
    · intro c hc
      cases hc
    · dsimp only
      split
      · exact hrec _ _
      · exact hetm _ _
  exact (hall c hmem).resolve_left (by rw [hfails]; decide)

theorem recChecks_faultRec {lib : Library} (hideal : IdealAead lib)
    (key staticIv : Bytes) (seq : UInt64) (aad m : Bytes) (word : UInt64) :
    violation (recChecks lib .faultRec key staticIv seq aad m word) =
      some ⟨recAlg, "O5-seq-binding", "record opened under wrong sequence number", false⟩ := by
  have hopen : ∀ s, recOpen lib .faultRec key staticIv s aad
      (recSeal lib key staticIv seq aad m) seq = some m :=
    fun s => (hideal.opens _ _ _ _ _).mpr rfl
  simp [violation, recChecks, hopen]

theorem faultRec_fires {lib : Library} (hideal : IdealAead lib) {data : Bytes}
    (hdata : 3 ≤ data.length) :
    violation (llvmFuzzerTestOneInput lib .faultRec data) =
      some ⟨recAlg, "O5-seq-binding", "record opened under wrong sequence number", false⟩ := by
  have hrec : ∀ r, Always (fun checks => violation checks =
      some ⟨recAlg, "O5-seq-binding", "record opened under wrong sequence number", false⟩)
      (testRecord lib .faultRec r) := by
    intro r
    refine Always.bind (always_true _) fun key _ => ?_
    refine Always.bind (always_true _) fun staticIv _ => ?_
    refine Always.bind (always_true _) fun aad _ => ?_
    refine Always.bind (always_true _) fun word _ => Always.pure ?_
    exact recChecks_faultRec hideal key staticIv _ aad _ word
  rw [llvmFuzzerTestOneInput, if_neg (by omega)]
  exact hrec _ _

end Trad
end CMFuzz
