import CMFuzz.FaultBuilds

/-!
# What the programs say of their libraries

Behind ten parsers and ten switches the backends are one table: a program
answers a vector with what its library has to say to it, or not at all.  Where
a program looks at no status, or prepares an argument of its own, this rests on
its library; each program names what it relies on.
-/

namespace CMFuzz

open Buffer
open ByteCodec
open Compute
open Runner
open Wire

/-- What a call gives to a caller that looks at its status. -/
def Buffer.Filled.toOption {room : ℕ} (call : Filled room) : Option Bytes :=
  if call.ok then some call.bytes else none

theorem Buffer.Filled.toOption_of_ok {room : ℕ} {call : Filled room} (hok : call.ok = true) :
    call.toOption = some call.bytes := if_pos hok

theorem attempt_result {room : ℕ} (call : Filled room) :
    (attempt call).result = call.toOption := by
  unfold attempt Filled.toOption
  split
  · rfl
  · rfl

namespace Compute

/-! ## The table -/

namespace Library

variable (lib : Library) (v : CmfVec)

/-- What the library has to say to a vector that asks for no verification. -/
def answer : Option Bytes :=
  match v.op with
  | 0 => (lib.digest .sha256 v.msg).toOption
  | 1 => (lib.digest .sha512 v.msg).toOption
  | 2 => (lib.hmac .sha256 v.key v.msg).toOption
  | 3 => (lib.aead .chacha20Poly1305 v.key v.nonce v.aad v.msg).toOption
  | 4 => (lib.aead .aes256Gcm v.key v.nonce v.aad v.msg).toOption
  | 5 => (lib.digest .sha3_256 v.msg).toOption
  | 6 => (lib.digest .sha3_512 v.msg).toOption
  | 7 => (lib.xof .shake128 v.msg 32).toOption
  | 8 => (lib.xof .shake256 v.msg 64).toOption
  | 9 => (lib.hkdf v.msg v.key v.aad).toOption
  | 10 => (lib.pbkdf2 v.msg v.key cmfPbkdf2Iter).toOption
  | 11 => (lib.ed25519Sign v.key v.msg).toOption
  | 12 => (lib.x25519 v.key (v.msg.take cmfX25519Len)).toOption
  | 15 => (lib.digest .sha1 v.msg).toOption
  | 16 => (lib.digest .sha224 v.msg).toOption
  | 17 => (lib.digest .sha384 v.msg).toOption
  | 18 => (lib.digest .sha512_256 v.msg).toOption
  | 19 => (lib.digest .md5 v.msg).toOption
  | 20 => (lib.hmac .sha1 v.key v.msg).toOption
  | 21 => (lib.hmac .sha384 v.key v.msg).toOption
  | 22 => (lib.hmac .sha512 v.key v.msg).toOption
  | 23 => (lib.aead .aes128Gcm (v.key.take 16) v.nonce v.aad v.msg).toOption
  | 24 => (lib.aead .aes192Gcm (v.key.take 24) v.nonce v.aad v.msg).toOption
  | 25 => (lib.mac .poly1305 v.key v.msg).toOption
  | 26 => (lib.mac .cmacAes256Cbc v.key v.msg).toOption
  | _ => none

def check (op : ℤ) : Bytes → Bytes → Bytes → Option Bool :=
  if op = 13 then lib.ecdsaVerify else lib.rsaPssVerify

/-- The library accepts the signature of a verify vector. -/
def Accepts : Prop :=
  ∃ pub sig msg, cmfVerifyParse v.msg = some (pub, sig, msg) ∧
    lib.check v.op pub sig msg = some true

/-- A reply that says what the library says, or nothing. -/
inductive Replies : Computed → Prop
  | abstains : Replies .notImplemented
  | answers {r : Computed} (hop : ¬ (v.op = 13 ∨ v.op = 14)) (hanswer : r.result = lib.answer v) :
      Replies r
  | judges {r : Computed} (hop : v.op = 13 ∨ v.op = 14)
      (haccepts : r = .output [0x01] ↔ lib.Accepts v) : Replies r

/-- No call that the vector asks for fails. -/
structure Unfailing : Prop where
  digest : ∀ md, (lib.digest md v.msg).ok = true
  xof : ∀ xof n, (lib.xof xof v.msg n).ok = true
  hmac : ∀ md, (lib.hmac md v.key v.msg).ok = true
  mac : ∀ mac, (lib.mac mac v.key v.msg).ok = true
  aead : ∀ cipher keylen, (lib.aead cipher (v.key.take keylen) v.nonce v.aad v.msg).ok = true
  hkdf : (lib.hkdf v.msg v.key v.aad).ok = true
  pbkdf2 : (lib.pbkdf2 v.msg v.key cmfPbkdf2Iter).ok = true
  ed25519Sign : (lib.ed25519Sign v.key v.msg).ok = true
  x25519 : (lib.x25519 v.key (v.msg.take cmfX25519Len)).ok = true

end Library

theorem Library.not_accepts_of_parse {lib : Library} {v : CmfVec}
    (hparse : cmfVerifyParse v.msg = none) : ¬ lib.Accepts v := by
  rintro ⟨pub, sig, msg, hsome, _⟩
  rw [hparse] at hsome
  exact nomatch hsome

theorem Library.accepts_iff_of_parse {lib : Library} {v : CmfVec} {pub sig msg : Bytes}
    (hparse : cmfVerifyParse v.msg = some (pub, sig, msg)) :
    lib.Accepts v ↔ lib.check v.op pub sig msg = some true := by
  constructor
  · rintro ⟨pub', sig', msg', hsome, haccept⟩
    rw [hparse] at hsome
    cases hsome
    exact haccept
  · exact fun haccept => ⟨pub, sig, msg, hparse, haccept⟩

theorem judge_result (check : Bytes → Bytes → Bytes → Option Bool) (v : CmfVec) :
    (judge check v).result = match cmfVerifyParse v.msg with
      | none => .output (verdictByte false)
      | some (pub, sig, msg) => .output (verdictByte (check pub sig msg = some true)) := by
  rw [judge]
  cases cmfVerifyParse v.msg with
  | none => rfl
  | some parts =>
      rcases parts with ⟨pub, sig, msg⟩
      by_cases haccept : check pub sig msg = some true
      · simp [haccept, verdictByte]
      · simp [haccept, verdictByte]

namespace Library.Replies

variable {lib : Library} {v : CmfVec} {room : ℕ} {call : Filled room}

theorem attempt (hop : ¬ (v.op = 13 ∨ v.op = 14)) (hcall : call.toOption = lib.answer v) :
    lib.Replies v (CMFuzz.attempt call) :=
  .answers hop ((attempt_result call).trans hcall)

theorem output (hop : ¬ (v.op = 13 ∨ v.op = 14)) (hok : call.ok = true)
    (hcall : call.toOption = lib.answer v) : lib.Replies v (.output call.bytes) :=
  .answers hop ((Filled.toOption_of_ok hok).symm.trans hcall)

theorem checked (hop : ¬ (v.op = 13 ∨ v.op = 14)) (n : ℕ) (hcall : call.toOption = lib.answer v) :
    lib.Replies v (Compute.checked n call).result :=
  attempt hop hcall

theorem sealParts {m : Bytes} {call : Filled (m.length + cmfTaglen)}
    (hop : ¬ (v.op = 13 ∨ v.op = 14)) (n : ℕ) (hcall : call.toOption = lib.answer v) :
    lib.Replies v (Compute.sealParts n call).result :=
  attempt hop hcall

/-- A verdict is the byte 1 exactly where the check succeeds. -/
theorem verdict {p : Prop} [Decidable p] (hop : v.op = 13 ∨ v.op = 14) (hp : p ↔ lib.Accepts v) :
    lib.Replies v (.output (verdictByte p)) := by
  apply judges hop
  rw [← hp, Computed.output.injEq]
  by_cases h : p
  · rw [decide_eq_true h]
    exact iff_of_true rfl h
  · rw [decide_eq_false h]
    exact iff_of_false (by decide) h

theorem judge {check : Bytes → Bytes → Bytes → Option Bool} (hop : v.op = 13 ∨ v.op = 14)
    (hcheck : ∀ pub sig msg, cmfVerifyParse v.msg = some (pub, sig, msg) →
      check pub sig msg = lib.check v.op pub sig msg) :
    lib.Replies v (Compute.judge check v).result := by
  rw [judge_result]
  cases hparse : cmfVerifyParse v.msg with
  | none =>
      apply judges hop
      have hreject : Computed.output (verdictByte false) ≠ .output [0x01] := by decide
      exact iff_of_false hreject (Library.not_accepts_of_parse hparse)
  | some parts =>
      rcases parts with ⟨pub, sig, msg⟩
      apply verdict hop
      rw [Library.accepts_iff_of_parse hparse, hcheck pub sig msg hparse]

end Library.Replies

theorem cmfVerifyParse_msg_length {p pub sig msg : Bytes}
    (hparse : cmfVerifyParse p = some (pub, sig, msg)) : msg.length ≤ p.length := by
  unfold cmfVerifyParse at hparse
  split at hparse
  · exact nomatch hparse
  · dsimp only at hparse
    split at hparse
    · exact nomatch hparse
    · split at hparse
      · exact nomatch hparse
      · rw [Option.some.injEq, Prod.mk.injEq, Prod.mk.injEq] at hparse
        rw [← hparse.2.2, List.length_drop]
        exact Nat.sub_le _ _

/-! ## C and C++ -/

section

variable {lib : Library} {v : CmfVec}

theorem BoringSSL.replies : lib.Replies v (BoringSSL.compute lib v).result := by
  unfold BoringSSL.compute
  split
  case h_10 hop => exact .judge (Or.inl hop) fun _ _ _ _ => by rw [Library.check, if_pos hop]
  case h_11 hop =>
    exact .judge (Or.inr hop) fun _ _ _ _ => by rw [Library.check, if_neg (by omega)]
  case h_12 => exact .abstains
  all_goals
    next hop => exact .checked (by omega) _ (by simp only [Library.answer, hop])

theorem AwsLc.replies : lib.Replies v (AwsLc.compute lib v).result := by
  unfold AwsLc.compute
  split
  case h_14 hop => exact .judge (Or.inl hop) fun _ _ _ _ => by rw [Library.check, if_pos hop]
  case h_15 hop =>
    exact .judge (Or.inr hop) fun _ _ _ _ => by rw [Library.check, if_neg (by omega)]
  case h_16 => exact .abstains
  all_goals
    next hop => exact .checked (by omega) _ (by simp only [Library.answer, hop])

theorem Botan.replies : lib.Replies v (Botan.compute lib v).result := by
  unfold Botan.compute
  split
  case h_14 hop => exact .judge (Or.inl hop) fun _ _ _ _ => by rw [Library.check, if_pos hop]
  case h_15 hop =>
    exact .judge (Or.inr hop) fun _ _ _ _ => by rw [Library.check, if_neg (by omega)]
  case h_16 => exact .abstains
  all_goals
    next hop => exact .checked (by omega) _ (by simp only [Library.answer, hop])

theorem WolfSSL.message_eq (hmsg : v.msg.length < 2 ^ 31) : WolfSSL.message v = v.msg := by
  rw [WolfSSL.message, WolfSSL.word32, Nat.mod_eq_of_lt (by omega), List.take_length]

theorem WolfSSL.length_bmod {n : ℕ} (hn : n < 2 ^ 31) : ¬ (n : ℤ).bmod (2 ^ 32) < 0 := by
  rw [Int.bmod_eq_emod_of_lt]
  · exact not_lt.mpr (Int.emod_nonneg _ (by decide))
  · rw [Int.emod_eq_of_lt (by omega) (by omega)]
    omega

theorem WolfSSL.pbkdf2_eq (hmsg : v.msg.length < 2 ^ 31) :
    WolfSSL.pbkdf2 lib v = checked (WolfSSL.message v).length
      (lib.pbkdf2 (WolfSSL.message v) v.key cmfPbkdf2Iter) := by
  unfold WolfSSL.pbkdf2
  exact if_neg (WolfSSL.length_bmod hmsg)

theorem WolfSSL.check_eq {p pub sig msg : Bytes} (hp : p.length < 2 ^ 31)
    (hparse : cmfVerifyParse p = some (pub, sig, msg)) :
    msg.take (WolfSSL.word32 msg.length) = msg := by
  have hmsg := cmfVerifyParse_msg_length hparse
  rw [WolfSSL.word32, Nat.mod_eq_of_lt (by omega), List.take_length]

theorem WolfSSL.replies (hmsg : v.msg.length < 2 ^ 31) (hsetup : lib.x25519Setup v.key = true) :
    lib.Replies v (WolfSSL.compute lib v).result := by
  have hmessage := WolfSSL.message_eq hmsg
  unfold WolfSSL.compute
  split
  case h_4 hop =>
    exact .sealParts (by omega) _ (by rw [hmessage]; simp only [Library.answer, hop])
  case h_5 hop =>
    exact .sealParts (by omega) _ (by rw [hmessage]; simp only [Library.answer, hop])
  case h_11 hop =>
    rw [WolfSSL.pbkdf2_eq hmsg, hmessage]
    exact .checked (by omega) _ (by simp only [Library.answer, hop])
  case h_13 hop =>
    rw [WolfSSL.x25519Ss, if_pos hsetup]
    exact .checked (by omega) _ (by simp only [Library.answer, hop])
  case h_14 hop =>
    exact .judge (Or.inl hop) fun _ _ _ hparse => by
      rw [Library.check, if_pos hop, WolfSSL.check_eq hmsg hparse]
  case h_15 hop =>
    exact .judge (Or.inr hop) fun _ _ _ hparse => by
      rw [Library.check, if_neg (by omega), WolfSSL.check_eq hmsg hparse]
  case h_16 => exact .abstains
  all_goals
    next hop =>
      exact .checked (by omega) _ (by rw [hmessage]; simp only [Library.answer, hop])

theorem key_take (v : CmfVec) : v.key.take cmfKeylen = v.key :=
  List.take_of_length_le v.key_length.le

theorem Libgcrypt.replies (hdigest : ∀ md, (lib.digest md v.msg).ok = true) :
    lib.Replies v (Libgcrypt.compute lib v).result := by
  have hkey := key_take v
  unfold Libgcrypt.compute
  split
  case h_4 hop =>
    exact .sealParts (by omega) _ (by rw [hkey]; simp only [Library.answer, hop])
  case h_5 hop =>
    exact .sealParts (by omega) _ (by rw [hkey]; simp only [Library.answer, hop])
  case h_19 hop => exact .sealParts (by omega) _ (by simp only [Library.answer, hop])
  case h_20 hop => exact .sealParts (by omega) _ (by simp only [Library.answer, hop])
  case h_23 => exact .abstains
  all_goals
    next hop =>
      first
      | exact .checked (by omega) _ (by simp only [Library.answer, hop])
      | exact .output (by omega) (hdigest _) (by simp only [Library.answer, hop])

/-- The scalar that `x25519_` of `compute_nettle.c` hands over. -/
def Nettle.clamp (key : Bytes) : Bytes :=
  (key.modify 0 (· &&& 248)).modify 31 fun b => (b &&& 127) ||| 64

theorem Nettle.replies (hok : lib.Unfailing v)
    (hclamp : lib.x25519 (Nettle.clamp v.key) (v.msg.take cmfX25519Len) =
      lib.x25519 v.key (v.msg.take cmfX25519Len)) :
    lib.Replies v (Nettle.compute lib v).result := by
  have hkey := key_take v
  have haead := hok.aead
  unfold Nettle.compute
  split
  case h_4 hop =>
    exact .output (by omega) (haead _ _) (by rw [hkey]; simp only [Library.answer, hop])
  case h_5 hop =>
    exact .output (by omega) (haead _ _) (by rw [hkey]; simp only [Library.answer, hop])
  case h_12 hop =>
    have hcall : (Nettle.x25519_ lib v).result =
        .output (lib.x25519 (Nettle.clamp v.key) (v.msg.take cmfX25519Len)).bytes := rfl
    rw [hcall, hclamp]
    exact .output (by omega) hok.x25519 (by simp only [Library.answer, hop])
  case h_21 hop => exact .output (by omega) (haead _ _) (by simp only [Library.answer, hop])
  case h_22 hop => exact .output (by omega) (haead _ _) (by simp only [Library.answer, hop])
  case h_24 => exact .abstains
  all_goals
    next hop =>
      first
      | exact .output (by omega) (hok.digest _) (by simp only [Library.answer, hop])
      | exact .output (by omega) (hok.hmac _) (by simp only [Library.answer, hop])
      | exact .output (by omega) (hok.xof _ _) (by simp only [Library.answer, hop])
      | exact .output (by omega) (hok.mac _) (by simp only [Library.answer, hop])
      | exact .output (by omega) hok.hkdf (by simp only [Library.answer, hop])
      | exact .output (by omega) hok.pbkdf2 (by simp only [Library.answer, hop])
      | exact .output (by omega) hok.ed25519Sign (by simp only [Library.answer, hop])

end

/-! ## Bridges -/

section

variable (lib : Library) (v : CmfVec)

theorem GoBridge.ecdsaVerify_eq :
    GoBridge.ecdsaVerify lib v.msg = (judge lib.ecdsaVerify v).result := by
  rw [GoBridge.ecdsaVerify, GoBridge.parseVerifyPayload_eq]
  exact (judge_result _ _).symm

theorem GoBridge.rsaPSSVerify_eq :
    GoBridge.rsaPSSVerify lib v.msg = (judge lib.rsaPssVerify v).result := by
  rw [GoBridge.rsaPSSVerify, GoBridge.parseVerifyPayload_eq]
  exact (judge_result _ _).symm

theorem RustBridge.ecdsaP256Verify_eq :
    RustBridge.ecdsaP256Verify lib v.msg = (judge lib.ecdsaVerify v).result := by
  rw [RustBridge.ecdsaP256Verify, RustBridge.parseVerifyPayload_eq]
  exact (judge_result _ _).symm

theorem RustBridge.rsaPssVerify_eq :
    RustBridge.rsaPssVerify lib v.msg = (judge lib.rsaPssVerify v).result := by
  rw [RustBridge.rsaPssVerify, RustBridge.parseVerifyPayload_eq]
  exact (judge_result _ _).symm

end

theorem splitBlob_cmfVecFields (op : ℤ) {blob : Bytes} (hlong : headerLen ≤ blob.length) :
    splitBlob blob = some (cmfVecFields op blob).toBlobFields := by
  cases hsplit : splitBlob blob with
  | none => exact absurd ((splitBlob_eq_none_iff blob).mp hsplit) (not_lt.mpr hlong)
  | some f => rw [cmfVecFields, hsplit]

section

variable {lib : Library} {v : CmfVec} {blob : Bytes}
variable (hsplit : splitBlob blob = some v.toBlobFields)

include hsplit

theorem GoBridge.replies (hok : lib.Unfailing v)
    (hpeer : v.op = 12 → cmfX25519Len ≤ v.msg.length) :
    lib.Replies v (GoBridge.dispatch lib v.op blob) := by
  have hkey := key_take v
  have hlong : ¬ v.key.length < cmfKeylen := not_lt.mpr v.key_length.ge
  unfold GoBridge.dispatch
  split
  · next haead =>
      rw [GoBridge.aeadFromBlob_of_split hsplit]
      dsimp only
      split
      · next hop => exact .attempt (by omega) (by simp only [Library.answer, hop])
      · next hop =>
          have hop4 : v.op = 4 := haead.resolve_left hop
          exact .attempt (by omega) (by simp only [Library.answer, hop4])
  · next haead =>
      rw [GoBridge.parseVec_of_split hsplit]
      unfold GoBridge.compute
      dsimp only
      split
      case h_8 hop => exact .attempt (by omega) (by simp only [Library.answer, hop])
      case h_10 hop =>
        rw [if_neg hlong, hkey]
        exact .output (by omega) hok.ed25519Sign (by simp only [Library.answer, hop])
      case h_11 hop =>
        rw [if_neg (not_or.mpr ⟨hlong, not_lt.mpr (hpeer hop)⟩), hkey]
        exact .attempt (by omega) (by simp only [Library.answer, hop])
      case h_12 hop =>
        rw [GoBridge.ecdsaVerify_eq]
        exact .judge (Or.inl hop) fun _ _ _ _ => by rw [Library.check, if_pos hop]
      case h_13 hop =>
        rw [GoBridge.rsaPSSVerify_eq]
        exact .judge (Or.inr hop) fun _ _ _ _ => by rw [Library.check, if_neg (by omega)]
      case h_14 => exact .abstains
      all_goals
        next hop =>
          first
          | exact .output (by omega) (hok.digest _) (by simp only [Library.answer, hop])
          | exact .output (by omega) (hok.hmac _) (by simp only [Library.answer, hop])
          | exact .output (by omega) (hok.xof _ _) (by simp only [Library.answer, hop])
          | exact .output (by omega) hok.pbkdf2 (by simp only [Library.answer, hop])

theorem RustBridge.replies (hok : lib.Unfailing v)
    (hpeer : v.op = 12 → cmfX25519Len ≤ v.msg.length) :
    lib.Replies v (RustBridge.dispatch lib v.op blob) := by
  have hkey := key_take v
  have hlong : ¬ v.key.length < cmfKeylen := not_lt.mpr v.key_length.ge
  unfold RustBridge.dispatch
  split
  · next haead =>
      rw [RustBridge.aeadFromBlob_of_split hsplit]
      dsimp only
      split
      · next hop => exact .attempt (by omega) (by simp only [Library.answer, hop])
      · next hop =>
          have hop4 : v.op = 4 := haead.resolve_left hop
          exact .attempt (by omega) (by simp only [Library.answer, hop4])
  · next haead =>
      rw [RustBridge.parseVec_of_split hsplit]
      dsimp only
      split
      case h_8 hop => exact .attempt (by omega) (by simp only [Library.answer, hop])
      case h_10 hop =>
        rw [RustBridge.ed25519Sign, if_neg hlong, hkey]
        exact .output (by omega) hok.ed25519Sign (by simp only [Library.answer, hop])
      case h_11 hop =>
        rw [RustBridge.x25519Op, if_neg (not_or.mpr ⟨hlong, not_lt.mpr (hpeer hop)⟩), hkey]
        exact .output (by omega) hok.x25519 (by simp only [Library.answer, hop])
      case h_12 hop =>
        rw [RustBridge.ecdsaP256Verify_eq]
        exact .judge (Or.inl hop) fun _ _ _ _ => by rw [Library.check, if_pos hop]
      case h_13 hop =>
        rw [RustBridge.rsaPssVerify_eq]
        exact .judge (Or.inr hop) fun _ _ _ _ => by rw [Library.check, if_neg (by omega)]
      case h_14 => exact .abstains
      all_goals
        next hop =>
          first
          | exact .output (by omega) (hok.digest _) (by simp only [Library.answer, hop])
          | exact .output (by omega) (hok.hmac _) (by simp only [Library.answer, hop])
          | exact .output (by omega) (hok.xof _ _) (by simp only [Library.answer, hop])
          | exact .output (by omega) hok.pbkdf2 (by simp only [Library.answer, hop])

omit hsplit in
theorem JavaBridge.verify_replies {check : Bytes → Bytes → Bytes → Option Bool}
    (hop : v.op = 13 ∨ v.op = 14)
    (hcheck : ∀ pub sig msg, check pub sig msg = lib.check v.op pub sig msg) :
    lib.Replies v (JavaBridge.verify check v.msg) := by
  apply Library.Replies.judges hop
  rw [JavaBridge.verify, JavaBridge.parseVerify_eq]
  cases hparse : cmfVerifyParse v.msg with
  | none => exact iff_of_false (fun h => nomatch h) (Library.not_accepts_of_parse hparse)
  | some parts =>
      rcases parts with ⟨pub, sig, msg⟩
      rw [Library.accepts_iff_of_parse hparse, ← hcheck]
      dsimp only
      cases check pub sig msg with
      | none => exact iff_of_false (fun h => nomatch h) (fun h => nomatch h)
      | some accepted =>
          cases accepted
          · exact iff_of_false (by decide) (by decide)
          · exact iff_of_true rfl rfl

theorem JavaBridge.replies (hpeer : v.op = 12 → cmfX25519Len ≤ v.msg.length) :
    lib.Replies v (JavaBridge.compute lib v.op blob) := by
  unfold JavaBridge.compute
  rw [JavaBridge.parse_of_split hsplit]
  dsimp only
  split
  case h_13 hop =>
    rw [if_neg (not_lt.mpr (hpeer hop))]
    exact .attempt (by omega) (by simp only [Library.answer, hop])
  case h_14 hop =>
    exact verify_replies (Or.inl hop) fun _ _ _ => by rw [Library.check, if_pos hop]
  case h_15 hop =>
    exact verify_replies (Or.inr hop) fun _ _ _ => by rw [Library.check, if_neg (by omega)]
  case h_16 => exact .abstains
  all_goals
    next hop => exact .attempt (by omega) (by simp only [Library.answer, hop])

omit hsplit in
theorem PyBridge.verify_replies {check : Bytes → Bytes → Bytes → Option Bool}
    (hop : v.op = 13 ∨ v.op = 14) (hinside : ¬ SignatureRunsPastEnd v.msg)
    (hcheck : ∀ pub sig msg, cmfVerifyParse v.msg = some (pub, sig, msg) →
      check pub sig msg = lib.check v.op pub sig msg) :
    lib.Replies v (PyBridge.verify check v.msg) := by
  rw [PyBridge.verify, PyBridge.parseVerify_eq hinside]
  cases hparse : cmfVerifyParse v.msg with
  | none =>
      apply Library.Replies.judges hop
      exact iff_of_false (fun h => nomatch h) (Library.not_accepts_of_parse hparse)
  | some parts =>
      rcases parts with ⟨pub, sig, msg⟩
      apply Library.Replies.verdict hop
      rw [Library.accepts_iff_of_parse hparse, hcheck pub sig msg hparse]

theorem PyBridge.compute_replies
    (hinside : v.op = 13 ∨ v.op = 14 → ¬ SignatureRunsPastEnd v.msg)
    (hpoint : v.op = 13 → ∀ pub sig msg, cmfVerifyParse v.msg = some (pub, sig, msg) →
      pub.length = 65 ∧ pub.getD 0 0 = 0x04) :
    lib.Replies v (PyBridge.compute lib v.op blob) := by
  unfold PyBridge.compute
  rw [PyBridge.parse_of_split hsplit]
  dsimp only
  split
  case h_13 hop =>
    apply verify_replies (Or.inl hop) (hinside (Or.inl hop))
    intro pub sig msg hparse
    rcases hpoint hop pub sig msg hparse with ⟨hlength, htag⟩
    rw [Library.check, if_pos hop, PyBridge.ecdsaVerify, if_neg]
    exact not_or.mpr ⟨not_not.mpr hlength, not_not.mpr htag⟩
  case h_14 hop =>
    exact verify_replies (Or.inr hop) (hinside (Or.inr hop)) fun _ _ _ _ => by
      rw [Library.check, if_neg (by omega)]
  case h_15 => exact .abstains
  all_goals
    next hop => exact .attempt (by omega) (by simp only [Library.answer, hop])

omit hsplit in
theorem Library.answer_length {out : Bytes} (hout : lib.answer v = some out) : 16 ≤ out.length := by
  have hroom : ∀ {room : ℕ} {call : Filled room}, call.toOption = some out → 16 ≤ room →
      16 ≤ out.length := by
    intro room call hcall hsize
    rw [Filled.toOption] at hcall
    split at hcall
    · next hok =>
        rw [← Option.some.inj hcall, call.full hok]
        exact hsize
    · exact nomatch hcall
  unfold Library.answer at hout
  split at hout
  case h_26 => exact nomatch hout
  all_goals
    first
    | exact hroom hout (by decide)
    | exact hroom hout (Nat.le_add_left _ _)

/-- No reply is the text by which `main` recognises an exception. -/
theorem PyBridge.reply_eq
    (hreplies : lib.Replies v (PyBridge.compute lib v.op blob)) :
    PyBridge.reply lib v.op blob = PyBridge.compute lib v.op blob := by
  rw [PyBridge.reply, if_neg]
  intro hmarker
  rw [hmarker] at hreplies
  cases hreplies with
  | answers hop hanswer =>
      have hlength := Library.answer_length hanswer.symm
      exact absurd hlength (by decide)
  | judges hop _ =>
      unfold PyBridge.compute at hmarker
      rw [PyBridge.parse_of_split hsplit] at hmarker
      rcases hop with h | h
      · rw [h] at hmarker
        rcases FlipBuild.py_verdict hmarker with hbyte | hbyte
        · exact absurd hbyte (by decide)
        · exact absurd hbyte (by decide)
      · rw [h] at hmarker
        rcases FlipBuild.py_verdict hmarker with hbyte | hbyte
        · exact absurd hbyte (by decide)
        · exact absurd hbyte (by decide)

end

end Compute
end CMFuzz
