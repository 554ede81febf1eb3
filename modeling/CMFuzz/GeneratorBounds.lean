import CMFuzz.ComputeBounds
import CMFuzz.GeneratorTrace
import CMFuzz.RunnerMain

/-!
# Bounds of the generated vectors

The field lengths of every emitted request, and the fixed buffers they flow
into: those of the generator itself, the reference output and its row, the
output buffers of the C programs, and the rows of their replies.
-/

namespace CMFuzz
namespace Runner

open ByteCodec
open Compute
open LineStream
open SplitMix
open Wire

variable {κ : Type}

/-! ## Buffers of the runner -/

abbrev msgSize : ℕ := 256
abbrev ecdsaSigSize : ℕ := 160
abbrev rsaSigSize : ℕ := 512
abbrev nbufSize : ℕ := 512
abbrev payloadSize : ℕ := 2048
abbrev referenceSize : ℕ := 8192
abbrev rowSize : ℕ := 8300

/-- Uncompressed P-256 points, their DER signatures, and RSA-2048. -/
structure OpenSSL.KeySizes (ssl : OpenSSL κ) : Prop where
  ecdsa_pub : ∀ key pub, ssl.ecdsa.exportKey key = some pub → pub.length = 65
  ecdsa_sig : ∀ key i m sig, ssl.ecdsa.sign key i m = some sig → sig.length ≤ 72
  rsa_modulus : ∀ key n, ssl.rsaPss.exportKey key = some n → n.length = 256
  rsa_sig : ∀ key i m sig, ssl.rsaPss.sign key i m = some sig → sig.length = 256

structure Emitted.Bounded (e : Emitted) : Prop where
  op_le : e.op ≤ 26
  compute : ¬ (e.op = 13 ∨ e.op = 14) → e.vec.aad.length ≤ 63 ∧ e.vec.msg.length ≤ 511 ∧
    (e.op ∉ [3, 4, 9, 23, 24] → e.vec.aad.length = 0)
  x25519 : e.op = 12 → e.vec.aad.length = 0 ∧ e.vec.msg.length = cmfX25519Len ∧
    ∀ b ∈ e.vec.msg.getLast?, b < 0x80
  payload : e.op = 13 ∨ e.op = 14 → e.vec.msg.length ≤ payloadSize
  parts : e.op = 13 ∨ e.op = 14 →
    ∀ pub sig msg, cmfVerifyParse e.vec.msg = some (pub, sig, msg) →
      pub.length ≤ nbufSize ∧ msg.length ≤ msgSize ∧
        sig.length ≤ if e.op = 13 then ecdsaSigSize else rsaSigSize

structure Emitted.ReferenceFits (e : Emitted) : Prop where
  output : ∀ o, e.reference = .computed (some o) → o.length ≤ referenceSize
  row : e.reference.text.length + 1 ≤ rowSize

/-- The reply of a C program to the request, up to the row it is stored in. -/
structure Emitted.ReplyFits (e : Emitted) (cli : Cli) (lib : Library) : Prop where
  within : cli.Within lib e.vec
  output : (cli.handle lib e.vec).OutputLe cli.outSize
  row : (cli.handle lib e.vec).result.text.length + 1 ≤ rowSize
  stored : (storeReply e.op ((cli.handle lib e.vec).result.text ++ [10])).1 =
    if (cli.handle lib e.vec).result = .notImplemented then ascii "NA"
    else foldOp e.op (cli.handle lib e.vec).result.text

/-! ## Compute requests -/

theorem drawMsglen_x25519 : Always (· = cmfX25519Len) (drawMsglen 12) :=
  Always.bind (always_true next) fun _ _ => Always.pure rfl

theorem drawAadlen_none {op : ℕ} (hop : op ∉ [3, 4, 9, 23, 24]) :
    Always (· = 0) (drawAadlen op) := by
  have hnone : ¬ (op = 3 ∨ op = 4 ∨ op = 9 ∨ op = 23 ∨ op = 24) := by
    simpa using hop
  rw [drawAadlen, if_neg hnone]
  exact Always.pure rfl

/-- Masking bit 255 leaves the last byte of a peer key below 0x80. -/
theorem drawBody_x25519 {n : ℕ} :
    Always (fun body : Bytes => ∀ b ∈ body.getLast?, b < 0x80) (drawBody 12 n) := by
  have hmask : ∀ b : UInt8, b &&& 0x7F < 0x80 := by
    intro b
    rw [UInt8.lt_iff_toNat_lt, UInt8.toNat_and]
    exact Nat.lt_succ_of_le Nat.and_le_right
  refine Always.bind (lowBytes_length n) fun body hbody => ?_
  rw [if_pos rfl]
  refine Always.bind (pinPeer_length body) fun peer hpeer => Always.pure ?_
  intro b hb
  have hlen : (peer.modify (n - 1) (· &&& 0x7F)).length = n := by
    rw [List.length_modify, hpeer, hbody]
  rw [Option.mem_def, List.getLast?_eq_getElem?, hlen, List.getElem?_modify_eq] at hb
  obtain ⟨c, _, rfl⟩ := Option.map_eq_some_iff.mp hb
  exact hmask c

structure ComputeBlob.Ruled (op : ℕ) (c : ComputeBlob) : Prop where
  aadlen_none : op ∉ [3, 4, 9, 23, 24] → c.aadlen = 0
  msglen_x25519 : op = 12 → c.msglen = cmfX25519Len
  body_x25519 : op = 12 → ∀ b ∈ c.body.getLast?, b < 0x80

theorem drawCompute_ruled (op : ℕ) :
    Always (fun c : ComputeBlob => c.Ruled op) (drawCompute op) := by
  have hmsglen : Always (fun n => op = 12 → n = cmfX25519Len) (drawMsglen op) := by
    by_cases hop : op = 12
    · subst hop
      exact fun s _ => drawMsglen_x25519 s
    · exact fun s h => absurd h hop
  have haadlen : Always (fun n => op ∉ [3, 4, 9, 23, 24] → n = 0) (drawAadlen op) := by
    by_cases hop : op ∈ [3, 4, 9, 23, 24]
    · exact fun s h => absurd hop h
    · exact fun s _ => drawAadlen_none hop s
  have hbody : ∀ n, Always (fun body : Bytes => op = 12 → ∀ b ∈ body.getLast?, b < 0x80)
      (drawBody op n) := by
    intro n
    by_cases hop : op = 12
    · subst hop
      exact fun s _ => drawBody_x25519 s
    · exact fun s h => absurd h hop
  refine Always.bind (Always.attach _ hmsglen) fun msglen hm => ?_
  refine Always.bind (Always.attach _ haadlen) fun aadlen ha => ?_
  refine Always.bind (always_true _) fun head _ => ?_
  refine Always.bind (Always.attach _ (hbody _)) fun body hb => ?_
  exact Always.pure ⟨ha, hm, hb⟩

theorem ComputeBlob.vec_lengths (op : ℕ) (c : ComputeBlob) :
    (cmfVecFields op c.blob).aad.length = c.aadlen ∧
      (cmfVecFields op c.blob).msg.length = c.msglen := by
  rw [cmfVecFields_compute]
  simp [localVec, bytesAt]

theorem ComputeBlob.vec_msg (op : ℕ) (c : ComputeBlob) :
    (cmfVecFields op c.blob).msg = c.body.drop c.aadlen := by
  have hlocal := localVec_join op c.fields
  rw [c.aad_length, c.msg_length] at hlocal
  rw [cmfVecFields_compute, c.blob_eq_join, hlocal]
  rfl

theorem emitCompute_bounded (ssl : OpenSSL κ) {op : ℕ} (hop : op < cmfNumOps)
    (hcompute : ¬ (op = 13 ∨ op = 14)) :
    Always (fun e : Emitted => e.Bounded) (emitCompute ssl op) := by
  refine Always.bind (drawCompute_ruled op) fun c hc => Always.pure ?_
  obtain ⟨haad, hmsg⟩ := c.vec_lengths op
  constructor
  case op_le => exact Nat.le_of_lt_succ hop
  case compute =>
    intro _
    refine ⟨haad.le.trans c.aadlen_le, hmsg.le.trans c.msglen_le, fun hnone => ?_⟩
    exact haad.trans (hc.aadlen_none hnone)
  case x25519 =>
    intro h12
    have h12' : op = 12 := h12
    have hzero : c.aadlen = 0 := hc.aadlen_none (by simp [h12'])
    refine ⟨haad.trans hzero, hmsg.trans (hc.msglen_x25519 h12'), ?_⟩
    show ∀ b ∈ (cmfVecFields op c.blob).msg.getLast?, b < 0x80
    rw [c.vec_msg, hzero, List.drop_zero]
    exact hc.body_x25519 h12'
  case payload => exact fun h => absurd h hcompute
  case parts => exact fun h => absurd h hcompute

/-! ## Verify requests -/

structure Payload.Sized (p : Payload) (publen siglen : ℕ) : Prop where
  pub_le : p.pub.length ≤ publen
  sig_le : p.sig.length ≤ siglen
  msg_le : p.msg.length ≤ 200

section

variable {scheme : Signer κ} {publen siglen : ℕ}
  (hpub : ∀ key pub, scheme.exportKey key = some pub → pub.length ≤ publen)
  (hsig : ∀ key i m sig, scheme.sign key i m = some sig → sig.length ≤ siglen)

include hpub

theorem packSigned_sized (rhsFirst : Bool) (key : κ) {msg sig : Bytes}
    (hmsg : msg.length ≤ 200) (hlen : sig.length ≤ siglen) (hcap : sig.length ≤ 512) :
    Always (fun made : Option Payload => ∀ p ∈ made, p.Sized publen siglen)
      (packSigned scheme rhsFirst key msg sig hcap) := by
  refine Always.bind (Always.attach _ (tamper_length rhsFirst msg sig))
    fun tampered ht => Always.pure ?_
  intro p hp
  split at hp
  · simp at hp
  · next pub hexport =>
      split at hp
      · simp at hp
      · obtain rfl := Option.some.inj hp
        exact ⟨hpub key pub hexport, ht.2.le.trans hlen, ht.1.le.trans hmsg⟩

include hsig

theorem makePayload_sized (rhsFirst : ℕ → Bool) (i : ℕ) (cached : Option κ) :
    Always (fun made : Option κ × Option Payload => ∀ p ∈ made.2, p.Sized publen siglen)
      (makePayload scheme rhsFirst i cached) := by
  unfold makePayload
  split
  · exact Always.pure (by simp)
  · next key _ =>
      refine Always.bind (P := fun made : Option Payload =>
        ∀ p ∈ made, p.Sized publen siglen) ?_ fun made hmade => Always.pure hmade
      refine Always.bind (always_true next) fun r _ => ?_
      refine Always.bind (lowBytes_length _) fun msg hmsg => ?_
      split
      · exact Always.pure (by simp)
      · next sig hsign =>
          exact packSigned_sized hpub (rhsFirst i) key (by omega)
            (hsig key i msg sig hsign) _

end

theorem Payload.Sized.bytes_length {p : Payload} {publen siglen : ℕ}
    (h : p.Sized publen siglen) : p.bytes.length ≤ 204 + publen + siglen := by
  have hpub := h.pub_le
  have hsig := h.sig_le
  have hmsg := h.msg_le
  simp only [Payload.bytes, List.length_append, putBe16_length]
  omega

theorem emitVerify_msg_none (op : ℕ) : (emitVerify op none).vec.msg = [] :=
  cmfVecFields_zeroHeader op []

theorem emitVerify_msg_some (op : ℕ) (p : Payload) :
    (emitVerify op (some p)).vec.msg = p.bytes :=
  cmfVecFields_zeroHeader op p.bytes

theorem emitVerify_bounded {op publen siglen : ℕ} (hop : op = 13 ∨ op = 14)
    (hroom : 204 + publen + siglen ≤ payloadSize) (hpub : publen ≤ nbufSize)
    (hsig : siglen ≤ if op = 13 then ecdsaSigSize else rsaSigSize) {made : Option Payload}
    (hmade : ∀ p ∈ made, p.Sized publen siglen) : (emitVerify op made).Bounded := by
  constructor
  case op_le =>
    show op ≤ 26
    omega
  case compute => exact fun h => absurd hop h
  case x25519 =>
    intro h12
    have hop12 : op = 12 := h12
    omega
  case payload =>
    intro _
    cases made with
    | none =>
        rw [emitVerify_msg_none]
        exact Nat.zero_le _
    | some p =>
        rw [emitVerify_msg_some]
        exact (hmade p rfl).bytes_length.trans hroom
  case parts =>
    intro _ pub sig msg hparse
    cases made with
    | none =>
        rw [emitVerify_msg_none] at hparse
        simp [cmfVerifyParse] at hparse
    | some p =>
        have hsized := hmade p rfl
        rw [emitVerify_msg_some, cmfVerifyParse_bytes p] at hparse
        obtain ⟨rfl, rfl, rfl⟩ : p.pub = pub ∧ p.sig = sig ∧ p.msg = msg := by
          simpa using hparse
        exact ⟨hsized.pub_le.trans hpub, hsized.msg_le.trans (by decide),
          hsized.sig_le.trans hsig⟩

/-! ## Every vector of a run -/

theorem emitVector_bounded {ssl : OpenSSL κ} (hsizes : ssl.KeySizes)
    (rhsFirst : ℕ → Bool) (i : ℕ) (keys : Keys κ) :
    Always (fun made : Keys κ × Emitted => made.2.Bounded)
      (emitVector ssl rhsFirst i keys) := by
  refine Always.bind (always_true next) fun r _ => ?_
  have hop : r.toNat % cmfNumOps < cmfNumOps := Nat.mod_lt _ (by decide)
  dsimp only
  generalize r.toNat % cmfNumOps = op at hop ⊢
  split
  · next h13 =>
      refine Always.bind (makePayload_sized
        (fun key pub h => (hsizes.ecdsa_pub key pub h).le) hsizes.ecdsa_sig
        rhsFirst i keys.ecdsa) fun made hmade => Always.pure ?_
      exact emitVerify_bounded (Or.inl h13) (by decide) (by decide)
        (by rw [if_pos h13]; decide) hmade
  · next h13 =>
      split
      · next h14 =>
          refine Always.bind (makePayload_sized
            (fun key n h => (hsizes.rsa_modulus key n h).le)
            (fun key i m sig h => (hsizes.rsa_sig key i m sig h).le)
            rhsFirst i keys.rsa) fun made hmade => Always.pure ?_
          exact emitVerify_bounded (Or.inr h14) (by decide) (by decide)
            (by rw [if_neg h13]; decide) hmade
      · next h14 =>
          have hcompute : ¬ (op = 13 ∨ op = 14) := by omega
          exact Always.bind (emitCompute_bounded ssl hop hcompute)
            fun e he => Always.pure he

theorem Emitted.Bounded.msg_length_le {e : Emitted} (h : e.Bounded) :
    e.vec.msg.length ≤ payloadSize := by
  by_cases hop : e.op = 13 ∨ e.op = 14
  · exact h.payload hop
  · exact (h.compute hop).2.1.trans (by decide)

/-! ## Where the lengths go -/

theorem ReferenceOf.output_length_le {ssl : OpenSSL κ} {v : CmfVec} {reference : Reference}
    (h : ReferenceOf ssl v reference) :
    ∀ o, reference = .computed (some o) → o.length ≤ 575 := by
  intro o ho
  cases h with
  | computed hop hmsg =>
      have hlen := refCompute_length (Reference.computed.inj ho)
      omega
  | signed => cases ho
  | unsigned => cases ho

theorem Reference.text_length_le {reference : Reference} {n : ℕ} (hn : 1 ≤ n)
    (h : ∀ o, reference = .computed (some o) → o.length ≤ n) :
    reference.text.length ≤ 1 + 2 * n := by
  cases reference with
  | verdict accepted =>
      have hlen : (Reference.verdict accepted).text.length = 2 := by
        cases accepted <;> rfl
      omega
  | computed out =>
      cases out with
      | none =>
          show 3 ≤ 1 + 2 * n
          omega
      | some o =>
          have ho := h o rfl
          show (hexEncode o).length ≤ 1 + 2 * n
          rw [hexEncode_length]
          omega

theorem Emitted.Faithful.referenceFits {ssl : OpenSSL κ} {e : Emitted}
    (h : e.Faithful ssl) : e.ReferenceFits := by
  have hlen := h.reference_of.output_length_le
  refine ⟨fun o ho => (hlen o ho).trans (by decide), ?_⟩
  have htext := Reference.text_length_le (by decide) hlen
  show e.reference.text.length + 1 ≤ 8300
  omega

theorem outputLe_handle (cli : Cli) (lib : Library) (v : CmfVec) :
    (cli.handle lib v).OutputLe (v.msg.length + 64) := by
  intro out hout
  have hhandling := cli.handling lib v
  generalize cli.handle lib v = h at hhandling hout
  cases hhandling with
  | abstains => cases hout
  | computes haead hop hwithin houtput => exact (houtput out hout).trans (by omega)
  | encrypts hop hwithin hreach houtput =>
      exact (houtput out hout).trans (Nat.add_le_add_left (by decide) _)
  | exchanges hop hcli hwithin hreach houtput => exact (houtput out hout).trans (by omega)
  | judges verify hop =>
      rw [← Computed.output.inj hout, List.length_singleton]
      omega

theorem Emitted.Bounded.fits {e : Emitted} (h : e.Bounded) (cli : Cli) : cli.Fits e.vec := by
  have hvop : e.vec.op = e.op := cmfVecFields_op _ _
  constructor
  · intro haead
    have hop : ¬ (e.op = 13 ∨ e.op = 14) := by
      rw [hvop] at haead
      rintro (hverify | hverify) <;> rw [hverify] at haead <;> revert haead <;>
        cases cli <;> decide
    have hmsg := (h.compute hop).2.1
    have hsize : 4160 ≤ cli.outSize := by cases cli <;> decide
    simp only [cmfTaglen]
    omega
  · intro h12 _
    rw [hvop] at h12
    exact (h.x25519 (by exact_mod_cast h12)).2.1.ge

theorem text_length_le {r : Computed} {n : ℕ} (hn : 1 ≤ n)
    (h : ∀ out, r = .output out → out.length ≤ n) : r.text.length ≤ 1 + 2 * n := by
  cases r with
  | output out =>
      have hout := h out rfl
      show (hexEncode out).length ≤ 1 + 2 * n
      rw [hexEncode_length]
      omega
  | failure =>
      show 3 ≤ 1 + 2 * n
      omega
  | notImplemented =>
      show 2 ≤ 1 + 2 * n
      omega

theorem storeReply_text {op : ℕ} {r : Computed} (hrow : r.text.length + 1 ≤ rowSize) :
    (storeReply op (r.text ++ [10])).1 =
      if r = .notImplemented then ascii "NA" else foldOp op r.text := by
  have hstrip := stripReply_text r
  by_cases hna : r = .notImplemented
  · rw [if_pos hna, storeReply_na op (hstrip.trans (r.text_eq_na_iff.mpr hna))]
  · have hne : stripReply (r.text ++ [10]) ≠ ascii "NA" := by
      rw [hstrip]
      exact fun h => hna (r.text_eq_na_iff.mp h)
    have hfold := foldOp_length_le op r.text
    have hshort : (foldOp op r.text).length ≤ replyCap := by
      simp only [rowSize] at hrow
      simp only [replyCap]
      omega
    rw [if_neg hna, storeReply_of_ne op hne, hstrip, List.take_of_length_le hshort]

theorem Emitted.Bounded.replyFits {e : Emitted} (h : e.Bounded) (cli : Cli)
    (lib : Library) : e.ReplyFits cli lib := by
  have hmsg := h.msg_length_le
  have hsize : 4160 ≤ cli.outSize := by cases cli <;> decide
  have houtput := outputLe_handle cli lib e.vec
  have htext := text_length_le (by omega) houtput
  have hrow : (cli.handle lib e.vec).result.text.length + 1 ≤ rowSize := by
    simp only [payloadSize] at hmsg
    simp only [rowSize]
    omega
  refine ⟨Cli.within_of_fits lib (h.fits cli), fun out hout => ?_, hrow, storeReply_text hrow⟩
  have hlen := houtput out hout
  simp only [payloadSize] at hmsg
  omega

theorem generator_bounds (ssl : OpenSSL κ) (hsizes : ssl.KeySizes) (rhsFirst : ℕ → Bool)
    (seed : UInt64) (N : ℕ) :
    (∀ e ∈ genVectors ssl rhsFirst seed N,
      e.Bounded ∧ e.ReferenceFits ∧ ∀ cli lib, e.ReplyFits cli lib) ∧
    ∀ x ∈ tracedVectors ssl rhsFirst seed N, ∀ d ∈ x.2, d.message.length ≤ msgSize := by
  refine ⟨fun e he => ?_, fun x hx d hd => ?_⟩
  · have hbounded : e.Bounded :=
      (emitFrom_always (emitVector_bounded hsizes rhsFirst) N 0 ⟨none, none⟩ seed).2 e he
    have hfaithful := (genVectors_faithful ssl rhsFirst seed N).2 e he
    exact ⟨hbounded, hfaithful.referenceFits, hbounded.replyFits⟩
  · have hlen := emitTraced_length ssl rhsFirst N 0 ⟨none, none⟩ seed x hx d hd
    exact hlen.trans (by decide)

theorem zeroSSL_keySizes : zeroSSL.KeySizes where
  ecdsa_pub := by
    rintro _ _ ⟨⟩
    exact List.length_replicate
  ecdsa_sig := by
    rintro _ _ _ _ ⟨⟩
    exact List.length_replicate.trans_le (by decide)
  rsa_modulus := by
    rintro _ _ ⟨⟩
    exact List.length_replicate
  rsa_sig := by
    rintro _ _ _ _ ⟨⟩
    exact List.length_replicate

theorem generator_bounds_zeroSSL :
    (∀ e ∈ genVectors zeroSSL (fun _ => false) 7 3,
      e.Bounded ∧ e.ReferenceFits ∧ ∀ cli lib, e.ReplyFits cli lib) ∧
    ∀ x ∈ tracedVectors zeroSSL (fun _ => false) 7 3,
      ∀ d ∈ x.2, d.message.length ≤ msgSize :=
  generator_bounds zeroSSL zeroSSL_keySizes (fun _ => false) 7 3

end Runner
end CMFuzz
