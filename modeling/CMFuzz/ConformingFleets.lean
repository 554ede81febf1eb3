import CMFuzz.FleetAgreement
import CMFuzz.GeneratorBounds
import CMFuzz.LibraryAnswers

/-!
# Fleets over libraries that agree with OpenSSL

Ten programs can stand behind the names of a command line, each over a library
of its own and each in a plain build or in a fault build.  Where the libraries
compute what OpenSSL computes, a run is silent about every plain build, whatever
the seed and the number of vectors, and reports the fault builds exactly where
their fault can be seen.
-/

namespace CMFuzz
namespace Runner

open ByteCodec
open Compute
open LineStream
open SplitMix
open Wire

variable {κ : Type}

/-! ## What is sent -/

/-- What the programs take for granted of a request. -/
structure Emitted.Sent (e : Emitted) : Prop where
  long : headerLen ≤ e.blob.length
  short : e.vec.msg.length < 2 ^ 31
  peer : e.op = 12 → cmfX25519Len ≤ e.vec.msg.length

theorem emitCompute_sent (ssl : OpenSSL κ) (op : ℕ) :
    Always (fun e : Emitted => e.Sent) (emitCompute ssl op) := by
  refine Always.bind (drawCompute_ruled op) fun c hc => Always.pure ?_
  have hmsg := (c.vec_lengths op).2
  constructor
  case long =>
    show headerLen ≤ c.blob.length
    rw [c.blob_eq_join, BlobFields.join_length]
    omega
  case short =>
    show (cmfVecFields op c.blob).msg.length < 2 ^ 31
    have hle := c.msglen_le
    omega
  case peer => exact fun hop => (hmsg.trans (hc.msglen_x25519 hop)).ge

theorem emitVerify_sent {op : ℕ} (hop : op = 13 ∨ op = 14) {made : Option Payload}
    (hmade : ∀ p ∈ made, p.Sized 512 512) : (emitVerify op made).Sent := by
  constructor
  case long =>
    show headerLen ≤ (List.replicate headerLen 0 ++ _).length
    rw [List.length_append, List.length_replicate]
    exact Nat.le_add_right _ _
  case short =>
    cases made with
    | none =>
        rw [emitVerify_msg_none]
        exact Nat.two_pow_pos 31
    | some p =>
        have hlength := (hmade p rfl).bytes_length
        rw [emitVerify_msg_some]
        omega
  case peer =>
    intro h12
    have hop12 : op = 12 := h12
    omega

theorem makePayload_small (scheme : Signer κ) (rhsFirst : ℕ → Bool) (i : ℕ)
    (cached : Option κ) :
    Always (fun made : Option κ × Option Payload => ∀ p ∈ made.2, p.Sized 512 512)
      (makePayload scheme rhsFirst i cached) :=
  makePayload_sized scheme.exportKey_length scheme.sign_length rhsFirst i cached

theorem emitVector_sent (ssl : OpenSSL κ) (rhsFirst : ℕ → Bool) (i : ℕ) (keys : Keys κ) :
    Always (fun made : Keys κ × Emitted => made.2.Sent) (emitVector ssl rhsFirst i keys) := by
  refine Always.bind (always_true next) fun r _ => ?_
  dsimp only
  generalize r.toNat % cmfNumOps = op
  split
  · next h13 =>
      refine Always.bind (makePayload_small ssl.ecdsa rhsFirst i keys.ecdsa) fun made hmade => ?_
      exact Always.pure (emitVerify_sent (Or.inl h13) hmade)
  · split
    · next h14 =>
        refine Always.bind (makePayload_small ssl.rsaPss rhsFirst i keys.rsa) fun made hmade => ?_
        exact Always.pure (emitVerify_sent (Or.inr h14) hmade)
    · exact Always.bind (emitCompute_sent ssl op) fun e he => Always.pure he

theorem genVectors_sent (ssl : OpenSSL κ) (rhsFirst : ℕ → Bool) (seed : UInt64) (n : ℕ) :
    ∀ e ∈ genVectors ssl rhsFirst seed n, e.Sent :=
  (emitFrom_always (emitVector_sent ssl rhsFirst) n 0 ⟨none, none⟩ seed).2

theorem Emitted.Sent.split {e : Emitted} (h : e.Sent) :
    splitBlob e.blob = some e.vec.toBlobFields := splitBlob_cmfVecFields e.op h.long

theorem Emitted.vec_op (e : Emitted) : e.vec.op = e.op := cmfVecFields_op _ _

theorem Emitted.Faithful.inside {ssl : OpenSSL κ} {e : Emitted} (he : e.Faithful ssl)
    (hop : e.vec.op = 13 ∨ e.vec.op = 14) : ¬ SignatureRunsPastEnd e.vec.msg := by
  intro hover
  have hreject := (verifyParsers_of_overrun hover).1
  have href := he.reference_of
  generalize e.reference = reference at href
  cases href with
  | computed hcompute => exact hop.elim hcompute.1 hcompute.2
  | signed _ _ _ _ _ _ _ hparse =>
      rw [hreject] at hparse
      exact nomatch hparse
  | unsigned _ hmsg =>
      rw [hmsg] at hover
      exact absurd hover.1 (by decide)

/-! ## Libraries that agree with the reference -/

/-- On the vector `v` the library computes what OpenSSL computes, up to the two
ways of refusing an exchange. -/
structure Follows (lib : Library) (ssl : OpenSSL κ) (v : CmfVec) : Prop where
  digest : ∀ md, (lib.digest md v.msg).toOption = ssl.digest md v.msg
  xof : ∀ xof n, (lib.xof xof v.msg n).toOption = ssl.xof xof v.msg n
  hmac : ∀ md, (lib.hmac md v.key v.msg).toOption = ssl.hmac md v.key v.msg
  mac : ∀ mac, (lib.mac mac v.key v.msg).toOption = ssl.mac mac v.key v.msg cmfTaglen
  aead : ∀ cipher keylen, (lib.aead cipher (v.key.take keylen) v.nonce v.aad v.msg).toOption =
    ssl.aead cipher (v.key.take keylen) v.nonce v.aad v.msg
  hkdf : (lib.hkdf v.msg v.key v.aad).toOption = ssl.hkdf v.msg v.key v.aad cmfHkdfOutlen
  pbkdf2 : (lib.pbkdf2 v.msg v.key cmfPbkdf2Iter).toOption =
    ssl.pbkdf2 v.msg v.key 4096 cmfPbkdf2Dklen
  ed25519Sign : (lib.ed25519Sign v.key v.msg).toOption = ssl.ed25519Sign v.key v.msg
  x25519 : foldSecret (lib.x25519 v.key (v.msg.take cmfX25519Len)).toOption =
    foldSecret (ssl.x25519 v.key (v.msg.take cmfX25519Len))
  ecdsaVerify : ∀ key pub sig msg, ssl.ecdsa.exportKey key = some pub →
    cmfVerifyParse v.msg = some (pub, sig, msg) →
    (lib.ecdsaVerify pub sig msg = some true ↔ ssl.ecdsa.verify key sig msg = true)
  rsaPssVerify : ∀ key pub sig msg, ssl.rsaPss.exportKey key = some pub →
    cmfVerifyParse v.msg = some (pub, sig, msg) →
    (lib.rsaPssVerify pub sig msg = some true ↔ ssl.rsaPss.verify key sig msg = true)

namespace Follows

variable {lib : Library} {ssl : OpenSSL κ} {v : CmfVec} (h : Follows lib ssl v)

include h

theorem aead_key (cipher : EvpCipher) :
    (lib.aead cipher v.key v.nonce v.aad v.msg).toOption =
      ssl.aead cipher v.key v.nonce v.aad v.msg := by
  have hfull := h.aead cipher cmfKeylen
  rwa [key_take] at hfull

theorem secret (hop : v.op = 12) :
    foldSecret (lib.answer v) = foldSecret (refCompute ssl v) := by
  have hx25519 := h.x25519
  simpa only [Library.answer, refCompute, hop] using hx25519

theorem answer_eq (hop : v.op ≠ 12) : lib.answer v = refCompute ssl v := by
  unfold Library.answer
  split
  case h_13 hsecret => exact absurd hsecret hop
  case h_26 =>
    unfold refCompute
    split
    case h_26 => rfl
    all_goals contradiction
  all_goals
    next hop' =>
      simp only [refCompute, hop', h.digest, h.xof, h.hmac, h.mac, h.aead, h.aead_key, h.hkdf,
        h.pbkdf2, h.ed25519Sign]

theorem accepts_iff {key : κ} {pub sig msg : Bytes} {scheme : Signer κ}
    (hscheme : v.op = 13 ∧ scheme = ssl.ecdsa ∨ v.op = 14 ∧ scheme = ssl.rsaPss)
    (hpub : scheme.exportKey key = some pub)
    (hparse : cmfVerifyParse v.msg = some (pub, sig, msg)) :
    lib.Accepts v ↔ scheme.verify key sig msg = true := by
  rw [Library.accepts_iff_of_parse hparse, Library.check]
  rcases hscheme with ⟨hop, rfl⟩ | ⟨hop, rfl⟩
  · rw [if_pos hop]
    exact h.ecdsaVerify key pub sig msg hpub hparse
  · rw [if_neg (by omega)]
    exact h.rsaPssVerify key pub sig msg hpub hparse

end Follows

/-- A reply that says what such a library says is no reason for a report. -/
theorem matchesReply_of_replies {ssl : OpenSSL κ} {lib : Library} {e : Emitted} {r : Computed}
    (he : e.Faithful ssl) (hfollows : Follows lib ssl e.vec) (hr : lib.Replies e.vec r) :
    MatchesReply r e := by
  have hvop := e.vec_op
  have href := he.reference_of
  cases hr with
  | abstains => exact Or.inl rfl
  | answers hop hanswer =>
      apply Or.inr
      generalize e.reference = reference at href
      cases href with
      | computed =>
          dsimp only
          rw [hanswer]
          split
          · next h12 => exact hfollows.secret (by omega)
          · next h12 => exact hfollows.answer_eq (by omega)
      | signed _ hscheme => omega
      | unsigned hverify => exact absurd hverify hop
  | judges hop haccepts =>
      apply Or.inr
      generalize e.reference = reference at href
      cases href with
      | computed hcompute => exact absurd hop (not_or.mpr hcompute)
      | signed scheme hscheme key pub sig msg hpub hparse =>
          exact haccepts.trans (hfollows.accepts_iff hscheme hpub hparse)
      | unsigned _ hmsg =>
          have hparse : cmfVerifyParse e.vec.msg = none := by
            rw [hmsg]
            rfl
          exact iff_of_false (fun hout => Library.not_accepts_of_parse hparse (haccepts.mp hout))
            Bool.false_ne_true

/-! ## Programs -/

inductive BackendProgram where
  | flip (build : FlipBuild)
  | spoil (build : SpoilBuild)

/-- The runner sends uncompressed points. -/
def OpenSSL.Uncompressed (ssl : OpenSSL κ) : Prop :=
  ∀ key pub, ssl.ecdsa.exportKey key = some pub → pub.length = 65 ∧ pub.getD 0 0 = 0x04

namespace BackendProgram

def main (p : BackendProgram) (lib : Library) (fault : Bool) (stdin : Bytes) : Bytes :=
  match p with
  | .flip build => build.main lib fault stdin
  | .spoil build => build.main lib fault stdin

def reply (p : BackendProgram) (lib : Library) (e : Emitted) : Computed :=
  match p with
  | .flip build => build.reply lib e
  | .spoil build => build.reply lib e

/-- What becomes of reply number `k`. -/
def written (p : BackendProgram) (fault : Bool) (k : ℕ) (r : Computed) : Computed :=
  match p with
  | .flip _ => r.inject fault
  | .spoil _ => r.spoil (fault && decide (k = 0))

theorem main_requestFile (p : BackendProgram) (lib : Library) (fault : Bool)
    {vectors : List Emitted} (hop : ∀ e ∈ vectors, e.op < cmfNumOps)
    (hblob : ∀ e ∈ vectors, e.blob ≠ []) :
    p.main lib fault (requestFile vectors) =
      unlines 10 ((vectors.mapIdx fun k e => p.written fault k (p.reply lib e)).map
        Computed.text) := by
  cases p with
  | flip build =>
      have hreplies : (vectors.mapIdx fun k e =>
          (flip build).written fault k ((flip build).reply lib e)) =
            vectors.map fun e => (build.reply lib e).inject fault := mapIdx_const _ _
      rw [hreplies]
      exact build.main_requestFile lib fault hop hblob
  | spoil build => exact build.main_requestFile lib fault hop

/-- What a program relies on besides the functions themselves: calls it does not
check, a key that is set up, a scalar that may be clamped before the call, and
the one form of points that Python reads. -/
def Relies (ssl : OpenSSL κ) (lib : Library) (v : CmfVec) : BackendProgram → Prop
  | .flip (.cli .wolfssl) => lib.x25519Setup v.key = true
  | .flip (.cli .libgcrypt) => ∀ md, (lib.digest md v.msg).ok = true
  | .flip (.cli .nettle) => lib.Unfailing v ∧
      lib.x25519 (Nettle.clamp v.key) (v.msg.take cmfX25519Len) =
        lib.x25519 v.key (v.msg.take cmfX25519Len)
  | .flip (.cli _) => True
  | .flip (.java _ _) => True
  | .flip (.python _ _) => ssl.Uncompressed
  | .spoil _ => lib.Unfailing v

theorem python_point {ssl : OpenSSL κ} (hpoints : ssl.Uncompressed) {e : Emitted}
    (he : e.Faithful ssl) (hop : e.vec.op = 13) {pub sig msg : Bytes}
    (hparse : cmfVerifyParse e.vec.msg = some (pub, sig, msg)) :
    pub.length = 65 ∧ pub.getD 0 0 = 0x04 := by
  have href := he.reference_of
  generalize e.reference = reference at href
  cases href with
  | computed hcompute => exact absurd hop hcompute.1
  | signed scheme hscheme key pub' sig' msg' hpub hparse' =>
      rw [hparse'] at hparse
      cases hparse
      rcases hscheme with ⟨_, rfl⟩ | ⟨hop14, _⟩
      · exact hpoints key _ hpub
      · omega
  | unsigned _ hmsg =>
      rw [hmsg] at hparse
      exact nomatch hparse

theorem replies {ssl : OpenSSL κ} {lib : Library} {e : Emitted} (he : e.Faithful ssl)
    (hsent : e.Sent) (p : BackendProgram) (hrelies : p.Relies ssl lib e.vec) :
    lib.Replies e.vec (p.reply lib e) := by
  have hpeer : e.vec.op = 12 → cmfX25519Len ≤ e.vec.msg.length := by
    rw [e.vec_op]
    exact fun hop => hsent.peer (by exact_mod_cast hop)
  have hop : (e.op : ℤ) = e.vec.op := e.vec_op.symm
  cases p with
  | flip build =>
      cases build with
      | cli program =>
          cases program with
          | boringssl => exact BoringSSL.replies
          | awsLc => exact AwsLc.replies
          | wolfssl => exact WolfSSL.replies hsent.short hrelies
          | botan => exact Botan.replies
          | libgcrypt => exact Libgcrypt.replies hrelies
          | nettle => exact Nettle.replies hrelies.1 hrelies.2
      | java charset unicodeDigit =>
          show lib.Replies e.vec (JavaBridge.compute lib e.op e.blob)
          rw [hop]
          exact JavaBridge.replies hsent.split hpeer
      | python charset unicodeDigit =>
          have hcompute : lib.Replies e.vec (PyBridge.compute lib e.vec.op e.blob) :=
            PyBridge.compute_replies hsent.split he.inside
              fun h13 _ _ _ hparse => python_point hrelies he h13 hparse
          show lib.Replies e.vec (PyBridge.reply lib e.op e.blob)
          rw [hop, PyBridge.reply_eq hsent.split hcompute]
          exact hcompute
  | spoil build =>
      cases build with
      | go =>
          show lib.Replies e.vec (GoBridge.dispatch lib e.op e.blob)
          rw [hop]
          exact GoBridge.replies hsent.split hrelies hpeer
      | rust utf8 =>
          show lib.Replies e.vec (RustBridge.dispatch lib e.op e.blob)
          rw [hop]
          exact RustBridge.replies hsent.split hrelies hpeer

end BackendProgram

/-! ## Fleets -/

/-- A program as it is built and linked. -/
structure Installed where
  program : BackendProgram
  lib : Library
  fault : Bool

namespace Installed

def reply (x : Installed) (e : Emitted) : Computed := x.program.reply x.lib e

def main (x : Installed) (stdin : Bytes) : Bytes := x.program.main x.lib x.fault stdin

/-- The library agrees with OpenSSL on a vector, and gives the program all it
relies on. -/
structure Conforms (x : Installed) (ssl : OpenSSL κ) (e : Emitted) : Prop where
  follows : Follows x.lib ssl e.vec
  relies : x.program.Relies ssl x.lib e.vec

/-- A vector on which the fault of the build can be seen.  The verdict of a
verify op is seen only where it is an accept. -/
def Shows (x : Installed) (k : ℕ) (e : Emitted) : Prop :=
  x.fault = true ∧ (e.op = 13 ∨ e.op = 14 → e.reference = .verdict true) ∧
    match x.program with
    | .flip _ => ∃ out, x.reply e = .output out ∧ out ≠ []
    | .spoil _ => k = 0 ∧ e.op ≤ 14

variable {ssl : OpenSSL κ}

theorem matches_iff {x : Installed} {e : Emitted} (he : e.Faithful ssl) (hsent : e.Sent)
    (hx : x.Conforms ssl e) (k : ℕ) :
    MatchesReply (x.program.written x.fault k (x.reply e)) e ↔ ¬ x.Shows k e := by
  have hmatches := matchesReply_of_replies he hx.follows
    (BackendProgram.replies he hsent x.program hx.relies)
  rcases x with ⟨program, lib, fault⟩
  cases program with
  | flip build =>
      cases fault with
      | false =>
          have hplain : (build.reply lib e).inject false = build.reply lib e :=
            Computed.inject_false _
          show MatchesReply ((build.reply lib e).inject false) e ↔ _
          rw [hplain]
          exact iff_of_true hmatches fun hshows => Bool.false_ne_true hshows.1
      | true =>
          have hcaught := not_matches_inject_iff he hmatches fun hop out =>
            build.reply_verdict lib hop
          rw [← not_iff_not, not_not]
          apply hcaught.trans
          constructor
          · rintro ⟨out, hout, hne, haccept⟩
            exact ⟨rfl, haccept, out, hout, hne⟩
          · rintro ⟨_, haccept, out, hout, hne⟩
            exact ⟨out, hout, hne, haccept⟩
  | spoil build =>
      have hcaught := not_matches_spoil_iff he (build.reply_notImplemented_iff lib e)
      by_cases hspoilt : fault = true ∧ k = 0
      · rcases hspoilt with ⟨rfl, rfl⟩
        rw [← not_iff_not, not_not]
        apply hcaught.trans
        constructor
        · exact fun h => ⟨rfl, h.2, rfl, h.1⟩
        · exact fun hshows => ⟨hshows.2.2.2, hshows.2.1⟩
      · have hplain : (fault && decide (k = 0)) = false := by
          simpa using hspoilt
        have hunspoilt : (build.reply lib e).spoil false = build.reply lib e :=
          if_neg fun h => Bool.false_ne_true h.1
        show MatchesReply ((build.reply lib e).spoil (fault && decide (k = 0))) e ↔ _
        rw [hplain, hunspoilt]
        exact iff_of_true hmatches fun hshows => hspoilt ⟨hshows.1, hshows.2.2.1⟩

end Installed

section

variable (ssl : OpenSSL κ) (rhsFirst : ℕ → Bool) (program : CString) (n : ℕ) (seed : UInt64)

theorem alone_flags_iff (installed : CString → Installed) (arg : BackendArg)
    (hconforms : ∀ e ∈ genVectors ssl rhsFirst seed n, (installed arg.path).Conforms ssl e)
    (i : ℕ) :
    (runnerMain ssl rhsFirst (fun path => (installed path).main) program n seed
        [arg.text]).Flags i ↔
      ∃ e, (genVectors ssl rhsFirst seed n)[i]? = some e ∧ (installed arg.path).Shows i e := by
  have hfaithful := (genVectors_faithful ssl rhsFirst seed n).2
  have hsent := genVectors_sent ssl rhsFirst seed n
  have hmain := (installed arg.path).program.main_requestFile (installed arg.path).lib
    (installed arg.path).fault (fun e he => (hfaithful e he).op_lt)
    (genVectors_blob ssl rhsFirst seed n)
  have hrun := runnerMain_replies ssl rhsFirst (fun path => (installed path).main) program n seed
    arg hmain
  rw [hrun, replyCampaign_flags_of hfaithful fun _ => List.getElem?_mapIdx]
  apply exists_congr
  intro e
  apply and_congr_right
  intro he
  have hmem := List.mem_of_getElem? he
  rw [not_iff_comm]
  exact ((installed arg.path).matches_iff (hfaithful e hmem) (hsent e hmem) (hconforms e hmem)
    i).symm

end

theorem zeroLibrary_follows (v : CmfVec) : Follows zeroLibrary zeroSSL v where
  digest _ := rfl
  xof _ _ := rfl
  hmac _ := rfl
  mac _ := rfl
  aead _ _ := rfl
  hkdf := rfl
  pbkdf2 := rfl
  ed25519Sign := rfl
  x25519 := rfl
  ecdsaVerify _ _ _ _ _ _ := iff_of_true rfl rfl
  rsaPssVerify _ _ _ _ _ _ := iff_of_true rfl rfl

theorem zeroLibrary_unfailing (v : CmfVec) : zeroLibrary.Unfailing v where
  digest _ := rfl
  xof _ _ := rfl
  hmac _ := rfl
  mac _ := rfl
  aead _ _ := rfl
  hkdf := rfl
  pbkdf2 := rfl
  ed25519Sign := rfl
  x25519 := rfl

/-- The Go bridge behind the path `p` is a fault build, nettle behind the other
paths is not. -/
def goAndNettle (path : CString) : Installed :=
  if path = ascii "p" then ⟨.spoil .go, zeroLibrary, true⟩
  else ⟨.flip (.cli .nettle), zeroLibrary, false⟩

theorem goAndNettle_conforms (path : CString) (e : Emitted) :
    (goAndNettle path).Conforms zeroSSL e := by
  unfold goAndNettle
  split
  · exact ⟨zeroLibrary_follows _, zeroLibrary_unfailing _⟩
  · exact ⟨zeroLibrary_follows _, zeroLibrary_unfailing _, rfl⟩

end Runner
end CMFuzz
