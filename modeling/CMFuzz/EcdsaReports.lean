import CMFuzz.EcdsaSequence

/-!
# What the ECDSA harness reports

The harness takes equal first components for a nonce that was used twice.  Over
a curve such as P-256 they also come from opposite nonces and from points whose
coordinates are one order apart, and from no others.
-/

namespace CMFuzz
namespace Ecdsa

open BigNumbers
open ByteCodec
open Engine

section

variable {P : Type} [AddCommGroup P] [DecidableEq P] {c : Curve P}

/-- A coordinate is below twice the order, and it tells a point from all others
but its negation. -/
structure Curve.Weierstrass (c : Curve P) : Prop where
  xCoord_nonneg : ∀ p, 0 ≤ c.xCoord p
  xCoord_lt : ∀ p, c.xCoord p < 2 * c.order
  xCoord_eq_iff : ∀ p q, c.xCoord p = c.xCoord q ↔ p.1 = q.1 ∨ p.1 = -q.1

/-- The nonces that leave the same `r`: equal ones, opposite ones, and those
whose coordinates are one order apart. -/
def Curve.Collide (c : Curve P) (k k' : ℤ) : Prop :=
  k = k' ∨ k + k' = c.order ∨
    affineX c (k • c.generator) 0 = affineX c (k' • c.generator) 0 + c.order ∨
    affineX c (k' • c.generator) 0 = affineX c (k • c.generator) 0 + c.order

instance (c : Curve P) (k k' : ℤ) : Decidable (c.Collide k k') :=
  inferInstanceAs (Decidable (_ ∨ _))

theorem affineX_zsmul {k : ℤ} (hk : 0 < k) (hk' : k < c.order) :
    ∃ h : k • c.generator ≠ 0,
      affineX c (k • c.generator) 0 = c.xCoord ⟨k • c.generator, h⟩ := by
  have hpoint := zsmul_ne_zero c.addOrderOf_generator (cast_ne_zero hk hk')
  exact ⟨hpoint, dif_pos hpoint⟩

theorem ecdsaSign_r_eq_iff (hc : c.Weierstrass) {k k' : ℤ} (hk : 0 < k) (hk' : k < c.order)
    (hl : 0 < k') (hl' : k' < c.order) (d d' : ℤ) (msg msg' : Bytes) :
    (ecdsaSign c d msg k).r = (ecdsaSign c d' msg' k').r ↔ c.Collide k k' := by
  have hg := c.addOrderOf_generator
  rcases affineX_zsmul hk hk' with ⟨hp, hx⟩
  rcases affineX_zsmul hl hl' with ⟨hq, hy⟩
  have hsame : c.xCoord ⟨k • c.generator, hp⟩ = c.xCoord ⟨k' • c.generator, hq⟩ ↔
      k = k' ∨ k + k' = c.order := by
    rw [hc.xCoord_eq_iff, zsmul_eq_iff hg hk hk' hl hl', zsmul_eq_neg_iff hg hk hk' hl hl']
  rw [ecdsaSign_r, ecdsaSign_r, Curve.Collide, hx, hy,
    bnMod_eq_bnMod_iff (hc.xCoord_nonneg _) (hc.xCoord_lt _) (hc.xCoord_nonneg _) (hc.xCoord_lt _),
    hsame, or_assoc]

/-! ## Reports -/

def nonceReused : Check :=
  ⟨alg, kUniqueness, "per-signature nonce reused across distinct messages", false⟩

theorem violation_signatureChecks {d : ℤ} {m1 m2 : Bytes} {sig1 sig2 : Signing}
    (hverify : sig1.ok = true → ecdsaVerify c (d • c.generator) m1 sig1.r sig1.s = true) :
    violation (signatureChecks c d m1 m2 sig1 sig2) =
      if (sig1.ok && sig2.ok) = true ∧ sig1.r = sig2.r then some nonceReused else none := by
  rw [signatureChecks]
  by_cases hboth : (sig1.ok && sig2.ok) = true
  · have hfirst := hverify (Bool.and_eq_true_iff.mp hboth).1
    rw [if_pos hboth, hfirst]
    by_cases hr : sig1.r = sig2.r
    · rw [if_pos ⟨hboth, hr⟩, decide_eq_true hr]
      rfl
    · rw [if_neg fun h => hr h.2, decide_eq_false hr]
      rfl
  · rw [if_neg hboth, if_neg fun h => hboth h.1]
    rfl

/-- Both messages of the input are signed. -/
def SignsTwice (c : Curve P) (faultKreuse : Bool) (dDrawn k1Drawn k2Drawn : ℤ) (data : Bytes) :
    Prop :=
  4 ≤ data.length ∧
    ((ecdsaSign c (privateKey dDrawn) (messages (cmfPrngSeed data)).1.1
        (nonceK faultKreuse c.order k1Drawn)).ok &&
      (ecdsaSign c (privateKey dDrawn) (messages (cmfPrngSeed data)).1.2
        (nonceK faultKreuse c.order k2Drawn)).ok) = true

instance (c : Curve P) (faultKreuse : Bool) (dDrawn k1Drawn k2Drawn : ℤ) (data : Bytes) :
    Decidable (SignsTwice c faultKreuse dDrawn k1Drawn k2Drawn data) :=
  inferInstanceAs (Decidable (_ ∧ _))

section

variable (faultKreuse : Bool) (dDrawn : ℤ) {k1Drawn k2Drawn : ℤ} (hlow1 : 0 ≤ k1Drawn)
  (hhigh1 : k1Drawn < c.order) (hlow2 : 0 ≤ k2Drawn) (hhigh2 : k2Drawn < c.order)

include hlow1 hhigh1 hlow2 hhigh2

theorem violation_llvmFuzzerTestOneInput (hc : c.Weierstrass) (data : Bytes) :
    violation (llvmFuzzerTestOneInput c faultKreuse dDrawn k1Drawn k2Drawn data) =
      if SignsTwice c faultKreuse dDrawn k1Drawn k2Drawn data ∧
          c.Collide (nonceK faultKreuse c.order k1Drawn) (nonceK faultKreuse c.order k2Drawn)
        then some nonceReused else none := by
  rcases nonceK_range c faultKreuse hlow1 hhigh1 with ⟨hk, hk'⟩
  rcases nonceK_range c faultKreuse hlow2 hhigh2 with ⟨hl, hl'⟩
  rw [llvmFuzzerTestOneInput]
  by_cases hshort : data.length < 4
  · rw [if_pos hshort, if_neg fun h => absurd h.1.1 (Nat.not_le.mpr hshort)]
    rfl
  · rw [if_neg hshort]
    show violation (checks c faultKreuse dDrawn k1Drawn k2Drawn _ _) = _
    rw [checks, violation_signatureChecks (ecdsaVerify_ecdsaSign hk hk')]
    apply if_congr _ rfl rfl
    rw [ecdsaSign_r_eq_iff hc hk hk' hl hl']
    exact and_congr_left fun _ => (and_iff_right (Nat.not_lt.mp hshort)).symm

end

omit [DecidableEq P] in
theorem privateKey_range {dDrawn : ℤ} (hlow : 0 ≤ dDrawn) (hhigh : dDrawn < c.order) :
    0 ≤ privateKey dDrawn ∧ privateKey dDrawn < c.order := by
  have hone : (1 : ℤ) < c.order := by exact_mod_cast c.prime.one_lt
  rw [privateKey]
  split <;> omega

/-- The shipped harness reports exactly the runs that sign twice under nonces
with one `r`, and the fault build every run that signs twice, where the key is
what the recovery makes of the two signatures; neither reports anything else. -/
theorem ecdsa_exact (hc : c.Weierstrass) {dDrawn k1Drawn k2Drawn : ℤ} (hlow : 0 ≤ dDrawn)
    (hhigh : dDrawn < c.order) (hlow1 : 0 ≤ k1Drawn) (hhigh1 : k1Drawn < c.order)
    (hlow2 : 0 ≤ k2Drawn) (hhigh2 : k2Drawn < c.order) (data : Bytes) :
    let k1 := nonceK false c.order k1Drawn
    let k2 := nonceK false c.order k2Drawn
    let fixed := nonceK true c.order k1Drawn
    let d := privateKey dDrawn
    let m1 := (messages (cmfPrngSeed data)).1.1
    let m2 := (messages (cmfPrngSeed data)).1.2
    (violation (llvmFuzzerTestOneInput c false dDrawn k1Drawn k2Drawn data) =
      if SignsTwice c false dDrawn k1Drawn k2Drawn data ∧ c.Collide k1 k2 then some nonceReused
      else none) ∧
    (violation (llvmFuzzerTestOneInput c true dDrawn k1Drawn k2Drawn data) =
      if SignsTwice c true dDrawn k1Drawn k2Drawn data then some nonceReused else none) ∧
    (SignsTwice c true dDrawn k1Drawn k2Drawn data →
      (digest c m1 : ZMod c.order) ≠ (digest c m2 : ZMod c.order) →
      recoverKey c (ecdsaSign c d m1 fixed).r (ecdsaSign c d m1 fixed).s
        (ecdsaSign c d m2 fixed).s (digest c m1) (digest c m2) = d) := by
  intro k1 k2 fixed d m1 m2
  constructor
  · exact violation_llvmFuzzerTestOneInput false dDrawn hlow1 hhigh1 hlow2 hhigh2 hc data
  constructor
  · rw [violation_llvmFuzzerTestOneInput true dDrawn hlow1 hhigh1 hlow2 hhigh2 hc data]
    have hfixed : c.Collide (nonceK true c.order k1Drawn) (nonceK true c.order k2Drawn) :=
      Or.inl rfl
    simp only [hfixed, and_true]
  · intro hsigns hdigests
    have hne : (fixed : ZMod c.order) ≠ 0 := by
      rcases nonceK_range c true hlow1 hhigh1 with ⟨hk, hk'⟩
      exact cast_ne_zero hk hk'
    rcases Bool.and_eq_true_iff.mp hsigns.2 with ⟨hok1, hok2⟩
    have h1 : Signature c d m1 fixed _ _ := signature_of_ok hne hok1
    have h2 : Signature c d m2 fixed _ _ := signature_of_ok hne hok2
    have hr : (ecdsaSign c d m2 fixed).r = (ecdsaSign c d m1 fixed).r := by
      rw [ecdsaSign_r, ecdsaSign_r]
    rw [hr] at h2
    rcases privateKey_range hlow hhigh with ⟨hd, hd'⟩
    exact (recoverKey_signatures hd hd' hne h1 h2 hdigests).2

end

/-! ## Seven points -/

theorem sevenCurve_weierstrass : sevenCurve.Weierstrass where
  xCoord_nonneg := by decide
  xCoord_lt := by decide
  xCoord_eq_iff := by decide

/-- Nonces 2 and 5 are opposite. -/
theorem ecdsa_exact_opposite :
    violation (llvmFuzzerTestOneInput sevenCurve false 3 2 5 [1, 2, 3, 4]) = some nonceReused := by
  have hexact := (ecdsa_exact sevenCurve_weierstrass (by decide : (0 : ℤ) ≤ 3) (by decide)
    (by decide : (0 : ℤ) ≤ 2) (by decide) (by decide : (0 : ℤ) ≤ 5) (by decide) [1, 2, 3, 4]).1
  rw [hexact]
  exact if_pos (by decide +kernel)

end Ecdsa
end CMFuzz
