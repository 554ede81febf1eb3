import CMFuzz.NonceHarnesses

/-!
# Release before verification

The five harnesses that open what they sealed, in the plain build and in that
of `CMF_FAULT_RELEASE`, which always runs that test and goes on with what the
output buffer holds.
-/

namespace CMFuzz
namespace Seq

open BlockModes
open ByteCodec
open Engine
open SplitMix

/-- The harnesses with an AEAD. -/
inductive AeadHarness where
  | seqAead
  | seqBoringSSL
  | seqAwsLc
  | seqWolfSSL
  | seqBotan
  deriving DecidableEq, Repr

namespace AeadHarness

def harness : AeadHarness → Harness
  | .seqAead => .seqAead
  | .seqBoringSSL => .seqBoringSSL
  | .seqAwsLc => .seqAwsLc
  | .seqWolfSSL => .seqWolfSSL
  | .seqBotan => .seqBotan

def test (gcm : Gcm) : AeadHarness → Reader → Draw (List Check)
  | .seqAead => SeqAead.testRelease gcm
  | .seqBoringSSL => SeqBoringSSL.testOpen gcm
  | .seqAwsLc => SeqAwsLc.testOpen gcm
  | .seqWolfSSL => SeqWolfSSL.testOpen gcm
  | .seqBotan => SeqBotan.testOpen gcm

def testNonce (gcm : Gcm) : AeadHarness → Reader → Draw (List Check)
  | .seqAead => fun _ => SeqAead.testNonce gcm false
  | .seqBoringSSL => SeqBoringSSL.testNonce gcm false
  | .seqAwsLc => SeqAwsLc.testNonce gcm false
  | .seqWolfSSL => SeqWolfSSL.testNonce gcm false
  | .seqBotan => SeqBotan.testNonce gcm false

def alg : AeadHarness → String
  | .seqAead => SeqAead.alg
  | .seqBoringSSL => SeqBoringSSL.alg
  | .seqAwsLc => SeqAwsLc.alg
  | .seqWolfSSL => SeqWolfSSL.alg
  | .seqBotan => SeqBotan.alg

def misuse : AeadHarness → String
  | .seqAead => "AEAD plaintext used before/without successful tag verification"
  | .seqBoringSSL => "EVP_AEAD plaintext used without a successful open() (forgery accepted)"
  | .seqAwsLc => "EVP_AEAD plaintext used without a successful open() (forgery accepted)"
  | .seqWolfSSL => "AES-GCM plaintext used without a successful decrypt (forgery accepted)"
  | .seqBotan => "AEAD plaintext used without a successful finish() (forgery accepted)"

/-- Two of the harnesses compare as many bytes as the message has. -/
def same : AeadHarness → Bytes → Bytes → Bool
  | .seqAead => fun pt m => pt.take m.length = m
  | .seqWolfSSL => fun pt m => pt.take m.length = m
  | _ => fun pt m => pt = m

/-- The bytes of a message that are sealed. -/
def cap : AeadHarness → ℕ
  | .seqAead => 512
  | _ => 256

end AeadHarness

/-- `deliver = 1`: the buffer holds the plaintext where there is one.  Without
a context wolfCrypt's test has returned before. -/
def AeadHarness.released (leftover : Bytes) : AeadHarness → Opening → Opening
  | _, .plaintext pt => .plaintext pt
  | .seqWolfSSL, .unavailable => .unavailable
  | _, _ => .plaintext leftover

/-- The library as the fault build uses it, whatever its status. -/
def AeadHarness.releasing (h : AeadHarness) (gcm : Gcm) (leftover : Bytes) : Gcm :=
  { gcm with opened := fun k n ct tag => h.released leftover (gcm.opened k n ct tag) }

/-- The build of `CMF_FAULT_RELEASE`. -/
def AeadHarness.releaseBuild (h : AeadHarness) (gcm : Gcm) (leftover : Bytes) :
    Bytes → List Check :=
  selectTest true (h.test (h.releasing gcm leftover)) (h.testNonce gcm)

/-! ## The libraries -/

/-- Contexts and keys can be set up. -/
structure Gcm.Ready (gcm : Gcm) : Prop where
  seals : ∀ k n m, gcm.sealed k n m = true
  available : ∀ k n ct tag, gcm.opened k n ct tag ≠ .unavailable

/-- The tag of a message lets nothing else through. -/
structure Gcm.Sound (gcm : Gcm) : Prop where
  forged : ∀ k n m ct, ct ≠ gcm.encrypt k n m →
    (gcm.opened k n ct (gcm.tag k n m)).delivered = none
  honest : ∀ k n m, ∀ pt ∈ (gcm.opened k n (gcm.encrypt k n m) (gcm.tag k n m)).delivered, pt = m

/-- What was sealed is delivered. -/
def Gcm.Delivers (gcm : Gcm) : Prop :=
  ∀ k n m, gcm.opened k n (gcm.encrypt k n m) (gcm.tag k n m) = .plaintext m

theorem AeadHarness.released_plaintext (h : AeadHarness) (leftover pt : Bytes) :
    h.released leftover (.plaintext pt) = .plaintext pt := by
  cases h with
  | _ => rfl

theorem AeadHarness.released_of_available (h : AeadHarness) (leftover : Bytes) {o : Opening}
    (ho : o ≠ .unavailable) : ∃ pt, h.released leftover o = .plaintext pt := by
  cases o with
  | unavailable => exact absurd rfl ho
  | rejected =>
      cases h with
      | _ => exact ⟨leftover, rfl⟩
  | plaintext pt => exact ⟨pt, h.released_plaintext leftover pt⟩

theorem Gcm.Ready.releasing {gcm : Gcm} (hready : gcm.Ready) (h : AeadHarness)
    (leftover : Bytes) : (h.releasing gcm leftover).Ready where
  seals := hready.seals
  available := by
    intro k n ct tag
    rcases h.released_of_available leftover (hready.available k n ct tag) with ⟨pt, hpt⟩
    show h.released leftover (gcm.opened k n ct tag) ≠ .unavailable
    rw [hpt]
    exact Opening.noConfusion

/-! ## One test -/

/-- What the test reads of the input: whether to forge, and the message. -/
def tampers (r : Reader) : Bool := decide ((cmfU8 r).1 &&& 1 ≠ 0)

def message (r : Reader) : Bytes := (cmfRest (cmfU8 r).2).1

/-- The ciphertext that is opened. -/
def presented (tamper : Bool) (pos : ℕ) (ct : Bytes) : Bytes :=
  if tamper then ct.modify pos (· ^^^ 0x01) else ct

theorem Gcm.encrypt_length (gcm : Gcm) (k n m : Bytes) :
    (gcm.encrypt k n m).length = m.length := xorStream_length _ m

theorem take_ne_nil {m : Bytes} {n : ℕ} (hm : m ≠ []) (hn : 0 < n) : m.take n ≠ [] := by
  intro hnil
  rcases List.take_eq_nil_iff.mp hnil with h | h
  · exact absurd h (Nat.ne_of_gt hn)
  · exact hm h

section

variable {gcm : Gcm} (hready : gcm.Ready) {r : Reader} {P : List Check → Prop}

include hready

theorem OneShot.always_testOpen {checks : Bool → Bytes → Opening → List Check}
    (hempty : message r = [] → P [])
    (hopened : ∀ k n, message r ≠ [] → P (checks (tampers r) ((message r).take 256)
      (gcm.opened k n (presented (tampers r) 0 (gcm.encrypt k n ((message r).take 256)))
        (gcm.tag k n ((message r).take 256))))) :
    Always P (OneShot.testOpen gcm checks r) := by
  refine Always.bind (always_true _) fun k _ => ?_
  refine Always.bind (always_true _) fun n _ => ?_
  dsimp only
  split
  case isTrue hnil =>
    apply Always.pure
    apply hempty
    by_contra hm
    exact take_ne_nil hm (by decide) hnil
  case isFalse hm =>
    have hmessage : message r ≠ [] := fun hnil => hm (by
      show (message r).take 256 = []
      rw [hnil]
      rfl)
    rw [if_pos (hready.seals _ _ _)]
    exact Always.pure (hopened k n hmessage)

omit hready in
theorem SeqAead.always_testRelease (hempty : message r = [] → P [])
    (hopened : ∀ k n pos, message r ≠ [] → pos < ((message r).take 512).length →
      P (OneShot.openChecks AeadHarness.seqAead.alg AeadHarness.seqAead.misuse
        AeadHarness.seqAead.same (tampers r) ((message r).take 512)
        (gcm.opened k n (presented (tampers r) pos (gcm.encrypt k n ((message r).take 512)))
          (gcm.tag k n ((message r).take 512))))) :
    Always P (SeqAead.testRelease gcm r) := by
  refine Always.bind (always_true _) fun k _ => ?_
  refine Always.bind (always_true _) fun n _ => ?_
  dsimp only
  split
  case isTrue hnil =>
    apply Always.pure
    apply hempty
    by_contra hm
    exact take_ne_nil hm (by decide) hnil
  case isFalse hm =>
    have hmessage : message r ≠ [] := fun hnil => hm (by
      show (message r).take 512 = []
      rw [hnil]
      rfl)
    have hpos : 0 < ((message r).take 512).length := List.length_pos_iff.mpr hm
    split
    case isTrue htamper =>
      refine Always.bind (always_true _) fun word _ => ?_
      have hlt : word.toNat % (gcm.encrypt k n ((message r).take 512)).length <
          ((message r).take 512).length := by
        rw [gcm.encrypt_length]
        exact Nat.mod_lt _ hpos
      have h := hopened k n _ hmessage hlt
      rw [presented, if_pos (show tampers r = true from htamper)] at h
      exact Always.pure h
    case isFalse htamper =>
      have h := hopened k n 0 hmessage hpos
      rw [presented, if_neg (show ¬ tampers r = true from htamper)] at h
      exact Always.pure h

/-- What a test can end with. -/
theorem AeadHarness.always_test (h : AeadHarness) (hempty : message r = [] → P [])
    (hopened : ∀ k n pos, message r ≠ [] → pos < ((message r).take h.cap).length →
      P (OneShot.openChecks h.alg h.misuse h.same (tampers r) ((message r).take h.cap)
        (gcm.opened k n (presented (tampers r) pos (gcm.encrypt k n ((message r).take h.cap)))
          (gcm.tag k n ((message r).take h.cap))))) :
    Always P (h.test gcm r) := by
  have hfirst : message r ≠ [] → 0 < ((message r).take 256).length := fun hm =>
    List.length_pos_iff.mpr (take_ne_nil hm (by decide))
  cases h with
  | seqAead => exact SeqAead.always_testRelease hempty hopened
  | seqBoringSSL =>
      exact OneShot.always_testOpen hready hempty fun k n hm => hopened k n 0 hm (hfirst hm)
  | seqAwsLc =>
      exact OneShot.always_testOpen hready hempty fun k n hm => hopened k n 0 hm (hfirst hm)
  | seqWolfSSL =>
      apply OneShot.always_testOpen hready hempty
      intro k n hm
      rw [if_neg (hready.available _ _ _ _)]
      exact hopened k n 0 hm (hfirst hm)
  | seqBotan =>
      exact OneShot.always_testOpen hready hempty fun k n hm => hopened k n 0 hm (hfirst hm)

end

/-! ## Verdicts -/

theorem presented_forged (gcm : Gcm) (k n : Bytes) {m : Bytes} {pos : ℕ} (hpos : pos < m.length) :
    presented true pos (gcm.encrypt k n m) ≠ gcm.encrypt k n m :=
  modify_xor_ne (hpos.trans_eq (gcm.encrypt_length k n m).symm) (by decide)

theorem AeadHarness.same_self (h : AeadHarness) (m : Bytes) : h.same m m = true := by
  cases h with
  | seqAead => exact decide_eq_true List.take_length
  | seqWolfSSL => exact decide_eq_true List.take_length
  | _ => exact decide_eq_true rfl

def AllHold (checks : List Check) : Prop := ∀ c ∈ checks, c.holds = true

theorem openChecks_undelivered (h : AeadHarness) (tamper : Bool) (m : Bytes) {opening : Opening}
    (hopening : opening.delivered = none) :
    AllHold (OneShot.openChecks h.alg h.misuse h.same tamper m opening) := by
  rw [OneShot.openChecks, hopening]
  intro c hc
  rw [List.mem_singleton.mp hc]
  rfl

theorem openChecks_honest (h : AeadHarness) {m : Bytes} {opening : Opening}
    (hopening : ∀ pt ∈ opening.delivered, pt = m) :
    AllHold (OneShot.openChecks h.alg h.misuse h.same false m opening) := by
  cases opening with
  | unavailable => exact openChecks_undelivered h false m rfl
  | rejected => exact openChecks_undelivered h false m rfl
  | plaintext pt =>
      have hplaintext : pt = m := hopening pt rfl
      intro c hc
      rcases List.mem_cons.mp hc with rfl | hc
      · rfl
      · rw [List.mem_singleton.mp hc, hplaintext]
        exact h.same_self m

/-- A sound library passes the test, forged or not. -/
theorem openChecks_sound {gcm : Gcm} (hsound : gcm.Sound) (h : AeadHarness) (tamper : Bool)
    (k n : Bytes) {m : Bytes} {pos : ℕ} (hpos : pos < m.length) :
    AllHold (OneShot.openChecks h.alg h.misuse h.same tamper m
      (gcm.opened k n (presented tamper pos (gcm.encrypt k n m)) (gcm.tag k n m))) := by
  cases tamper with
  | true =>
      exact openChecks_undelivered h true m
        (hsound.forged k n m _ (presented_forged gcm k n hpos))
  | false => exact openChecks_honest h (hsound.honest k n m)

/-- Whatever is released of a forged ciphertext is reported. -/
theorem openChecks_released (h : AeadHarness) (m pt : Bytes) :
    violation (OneShot.openChecks h.alg h.misuse h.same true m (.plaintext pt)) =
      some ⟨h.alg, releaseBeforeVerify, h.misuse, false⟩ := rfl

theorem violation_eq_none_of_holds {checks : List Check} (hchecks : AllHold checks) :
    violation checks = none := by
  apply List.find?_eq_none.mpr
  intro c hc
  rw [hchecks c hc]
  exact Bool.false_ne_true

theorem OneShot.nonceChecks_about (alg : String) (gcm : Gcm) (k n1 n2 m1 m2 : Bytes) :
    ∀ c ∈ OneShot.nonceChecks alg gcm k n1 n2 m1 m2, AboutNonce c := by
  rw [OneShot.nonceChecks]
  split
  · intro c hc
    rw [List.mem_singleton.mp hc]
    exact Or.inl rfl
  · exact fun c hc => absurd hc List.not_mem_nil

def AllAboutNonce (checks : List Check) : Prop := ∀ c ∈ checks, AboutNonce c

theorem allAboutNonce_nil : AllAboutNonce [] := fun _ hc => absurd hc List.not_mem_nil

theorem OneShot.testNonce_about (alg : String) (gcm : Gcm) (fault : Bool) (r : Reader) :
    Always AllAboutNonce (OneShot.testNonce alg gcm fault r) := by
  refine Always.bind (always_true _) fun k _ => ?_
  dsimp only
  split
  · exact Always.pure allAboutNonce_nil
  · refine Always.bind (always_true _) fun n1 _ => ?_
    refine Always.bind (always_true _) fun n2 _ => ?_
    split
    · exact Always.pure (OneShot.nonceChecks_about alg gcm k n1 n2 _ _)
    · exact Always.pure allAboutNonce_nil

theorem SeqBotan.testNonce_about (gcm : Gcm) (fault : Bool) (r : Reader) :
    Always AllAboutNonce (SeqBotan.testNonce gcm fault r) := by
  refine Always.bind (always_true _) fun k _ => ?_
  dsimp only
  split
  · exact Always.pure allAboutNonce_nil
  · refine Always.bind (always_true _) fun n1 _ => ?_
    split
    · refine Always.bind (always_true _) fun n2 _ => ?_
      split
      · exact Always.pure (OneShot.nonceChecks_about SeqBotan.alg gcm k n1 n2 _ _)
      · exact Always.pure allAboutNonce_nil
    · exact Always.pure allAboutNonce_nil

theorem SeqAead.testNonce_about (gcm : Gcm) (fault : Bool) :
    Always AllAboutNonce (SeqAead.testNonce gcm fault) := by
  refine Always.bind (always_true _) fun k _ => ?_
  refine Always.bind (always_true _) fun m1 _ => ?_
  refine Always.bind (always_true _) fun m2 _ => Always.pure ?_
  intro c hc
  rcases List.mem_cons.mp hc with rfl | hc
  · exact Or.inl rfl
  · split at hc
    · rw [List.mem_singleton.mp hc]
      exact Or.inl rfl
    · exact absurd hc List.not_mem_nil

/-- The nonce test of a plain build holds in every check. -/
theorem AeadHarness.testNonce_holds (h : AeadHarness) (gcm : Gcm) (r : Reader) :
    Always AllHold (h.testNonce gcm r) := by
  intro s c hc
  cases h with
  | seqAead => exact SeqAead.quiet_testNonce gcm s c hc (SeqAead.testNonce_about gcm false s c hc)
  | seqBoringSSL =>
      exact OneShot.quiet_testNonce _ gcm r s c hc (OneShot.testNonce_about _ gcm false r s c hc)
  | seqAwsLc =>
      exact OneShot.quiet_testNonce _ gcm r s c hc (OneShot.testNonce_about _ gcm false r s c hc)
  | seqWolfSSL =>
      exact OneShot.quiet_testNonce _ gcm r s c hc (OneShot.testNonce_about _ gcm false r s c hc)
  | seqBotan =>
      exact SeqBotan.quiet_testNonce gcm r s c hc (SeqBotan.testNonce_about gcm false r s c hc)

theorem AeadHarness.run_eq (h : AeadHarness) (gcm : Gcm) (aes : Bytes → Bytes → Bytes) :
    h.harness.run gcm aes false = selectTest false (h.testNonce gcm) (h.test gcm) := by
  cases h with
  | _ => rfl

theorem selectTest_holds {test other : Reader → Draw (List Check)}
    (htest : ∀ r, Always AllHold (test r)) (hother : ∀ r, Always AllHold (other r))
    (data : Bytes) : AllHold (selectTest false test other data) := by
  rw [selectTest]
  split
  · exact fun _ hc => absurd hc List.not_mem_nil
  · dsimp only
    rw [if_neg Bool.false_ne_true]
    split
    · exact hother _ _
    · exact htest _ _

/-- The reader of a test: the mode has been taken. -/
theorem selectTest_fault {test other : Reader → Draw (List Check)} {data : Bytes}
    (hdata : 2 ≤ data.length) :
    selectTest true test other data = (test ⟨data, 1⟩ (cmfPrngSeed data)).1 := by
  have hreader : (cmfU8 (cmfReaderInit data)).2 = ⟨data, 1⟩ := by
    rw [cmfU8, cmfReaderInit, if_pos (show 0 < data.length by omega)]
  rw [selectTest, if_neg (by omega)]
  dsimp only
  rw [if_pos rfl, hreader]

theorem tampers_second {data : Bytes} (hdata : 2 ≤ data.length) :
    tampers ⟨data, 1⟩ = decide (data.getD 1 0 &&& 1 ≠ 0) := by
  rw [tampers, cmfU8, if_pos (show 1 < data.length by omega)]

theorem message_second {data : Bytes} (hdata : 2 ≤ data.length) :
    message ⟨data, 1⟩ = data.drop 2 := by
  rw [message, cmfU8, if_pos (show 1 < data.length by omega), cmfRest]

/-- The inputs with a message whose second byte asks for a forgery. -/
def Forges (data : Bytes) : Prop := 3 ≤ data.length ∧ data.getD 1 0 &&& 1 ≠ 0

instance (data : Bytes) : Decidable (Forges data) := inferInstanceAs (Decidable (_ ∧ _))

/-- Over a sound library no plain build reports anything.  The release build
reports exactly the inputs that forge, where the library delivers what it
sealed. -/
theorem release_exact {gcm : Gcm} (hready : gcm.Ready) (aes : Bytes → Bytes → Bytes)
    (h : AeadHarness) (leftover data : Bytes) :
    (gcm.Sound → violation (h.harness.run gcm aes false data) = none) ∧
    (Forges data → violation (h.releaseBuild gcm leftover data) =
      some ⟨h.alg, releaseBeforeVerify, h.misuse, false⟩) ∧
    (gcm.Delivers → ¬ Forges data → violation (h.releaseBuild gcm leftover data) = none) := by
  have hfault := hready.releasing h leftover
  constructor
  · intro hsound
    rw [h.run_eq]
    apply violation_eq_none_of_holds
    apply selectTest_holds (h.testNonce_holds gcm)
    intro r
    apply h.always_test hready (P := AllHold)
    · exact fun _ _ hc => absurd hc List.not_mem_nil
    · exact fun k n pos _ hpos => openChecks_sound hsound h (tampers r) k n hpos
  constructor
  · rintro ⟨hlength, hodd⟩
    rw [AeadHarness.releaseBuild, selectTest_fault (by omega)]
    apply h.always_test hfault (P := fun checks =>
      violation checks = some ⟨h.alg, releaseBeforeVerify, h.misuse, false⟩)
    · intro hnil
      rw [message_second (by omega)] at hnil
      have hshort := List.drop_eq_nil_iff.mp hnil
      omega
    · intro k n pos _ _
      rcases h.released_of_available leftover (hready.available k n _ _) with ⟨pt, hpt⟩
      rw [tampers_second (by omega), decide_eq_true hodd]
      show violation (OneShot.openChecks h.alg h.misuse h.same true _
        (h.released leftover (gcm.opened k n _ _))) = _
      rw [hpt]
      exact openChecks_released h _ pt
  · intro hdelivers hforges
    by_cases hdata : 2 ≤ data.length
    · rw [AeadHarness.releaseBuild, selectTest_fault hdata]
      apply h.always_test hfault (P := fun checks => violation checks = none)
      · exact fun _ => rfl
      · intro k n pos hm _
        have heven : decide (data.getD 1 0 &&& 1 ≠ 0) = false := by
          apply decide_eq_false
          intro hodd
          rw [message_second hdata] at hm
          have hlong := List.length_pos_iff.mpr hm
          rw [List.length_drop] at hlong
          exact hforges ⟨by omega, hodd⟩
        rw [tampers_second hdata, heven]
        apply violation_eq_none_of_holds
        apply openChecks_honest
        show ∀ pt ∈ (h.released leftover (gcm.opened k n (gcm.encrypt k n _)
          (gcm.tag k n _))).delivered, pt = _
        rw [hdelivers, h.released_plaintext]
        exact fun pt hpt => (Option.some.inj hpt).symm
    · rw [AeadHarness.releaseBuild, selectTest, if_pos (by omega)]
      rfl

theorem xorGcm_ready : xorGcm.Ready where
  seals := fun _ _ _ => rfl
  available := by
    intro k n ct tag
    show (if xorStream _ ct = tag then Opening.plaintext _ else Opening.rejected) ≠ _
    split
    · exact Opening.noConfusion
    · exact Opening.noConfusion

theorem xorGcm_opened (k n ct m : Bytes) : xorGcm.opened k n ct (xorGcm.tag k n m) =
    if xorStream (xorGcm.keystream k n) ct = m
      then .plaintext (xorStream (xorGcm.keystream k n) ct) else .rejected := rfl

theorem xorGcm_delivers : xorGcm.Delivers := by
  intro k n m
  rw [xorGcm_opened, Gcm.encrypt, xorStream_xorStream, if_pos rfl]

theorem xorGcm_sound : xorGcm.Sound where
  forged := by
    intro k n m ct hct
    rw [xorGcm_opened]
    split
    case isTrue hm =>
      exfalso
      apply hct
      rw [Gcm.encrypt, ← hm, xorStream_xorStream]
    case isFalse => rfl
  honest := by
    intro k n m pt hpt
    rw [xorGcm_delivers k n m] at hpt
    exact (Option.some.inj hpt).symm

theorem release_exact_botan :
    violation (AeadHarness.seqBotan.harness.run xorGcm xorBlock false [1, 1, 7]) = none ∧
    violation (AeadHarness.seqBotan.releaseBuild xorGcm [] [0, 1, 7]) =
      some ⟨SeqBotan.alg, releaseBeforeVerify, AeadHarness.seqBotan.misuse, false⟩ ∧
    violation (AeadHarness.seqBotan.releaseBuild xorGcm [] [0, 2, 7]) = none :=
  ⟨(release_exact xorGcm_ready xorBlock .seqBotan [] [1, 1, 7]).1 xorGcm_sound,
    (release_exact xorGcm_ready xorBlock .seqBotan [] [0, 1, 7]).2.1 (by decide),
    (release_exact xorGcm_ready xorBlock .seqBotan [] [0, 2, 7]).2.2 xorGcm_delivers (by decide)⟩

end Seq
end CMFuzz
