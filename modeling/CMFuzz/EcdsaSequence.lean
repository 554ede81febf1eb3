import CMFuzz.BigNumbers
import CMFuzz.FuzzEngine

/-!
# ECDSA and its nonces

`seq_ecdsa_harness`: a signer whose nonce comes from a source of its own, a
verifier, and the recovery of the private key from two signatures under one
nonce.  The group of the curve is any cyclic group of prime order, with any
integer as the coordinate of a point that is not the identity.
-/

namespace CMFuzz
namespace Ecdsa

open BigNumbers
open ByteCodec
open Engine
open SplitMix

/-- A group with its generator, the coordinates of its points and a digest. -/
structure Curve (P : Type) [AddCommGroup P] where
  order : ℕ
  prime : order.Prime
  generator : P
  addOrderOf_generator : addOrderOf generator = order
  generates : ∀ p : P, p ∈ AddSubgroup.zmultiples generator
  xCoord : {p : P // p ≠ 0} → ℤ
  sha256 : Bytes → Bytes

section

variable {P : Type} [AddCommGroup P] [DecidableEq P] (c : Curve P)

/-- `EC_POINT_get_affine_coordinates`, which leaves `x` alone at infinity. -/
def affineX (p : P) (x : ℤ) : ℤ := if h : p ≠ 0 then c.xCoord ⟨p, h⟩ else x

def digest (msg : Bytes) : ℤ := bnMod (bnBin2bn (c.sha256 msg)) c.order

/-- The nonce from what `BN_rand_range` returned. -/
def nonceK (faultKreuse : Bool) (order drawn : ℤ) : ℤ :=
  let k := if faultKreuse then bnMod 0x0123456789abcdef order else drawn
  if k = 0 then 1 else k

/-- What a call of `ecdsa_sign` returns and leaves in `r` and `s`. -/
structure Signing where
  ok : Bool
  r : ℤ
  s : ℤ
  deriving DecidableEq, Repr

def ecdsaSign (d : ℤ) (msg : Bytes) (k : ℤ) : Signing :=
  let z := digest c msg
  let R := k • c.generator
  let r := bnMod (affineX c R 0) c.order
  if r = 0 then ⟨false, r, 0⟩
  else
    let kinv := bnModInverse k c.order
    let tmp := bnModMul r d c.order
    let tmp := bnModAdd tmp z c.order
    let s := bnModMul kinv tmp c.order
    ⟨s ≠ 0, r, s⟩

def ecdsaVerify (pub : P) (msg : Bytes) (r s : ℤ) : Bool :=
  let z := digest c msg
  let w := bnModInverse s c.order
  let u1 := bnModMul z w c.order
  let u2 := bnModMul r w c.order
  let x := bnMod (affineX c (u1 • c.generator + u2 • pub) 0) c.order
  x = r

/-- The recovery of the key, with its two scratch variables. -/
def recoverKey (r1 s1 s2 z1 z2 : ℤ) : ℤ :=
  let t := bnModSub s1 s2 c.order
  let t := bnModInverse t c.order
  let k := bnModSub z1 z2 c.order
  let k := bnModMul k t c.order
  let dr := bnModMul s1 k c.order
  let dr := bnModSub dr z1 c.order
  let t := bnModInverse r1 c.order
  bnModMul dr t c.order

/-! ## One signature -/

variable {c}

/-- What the two values of a signature are as residues. -/
structure Signature (c : Curve P) (d : ℤ) (msg : Bytes) (k r s : ℤ) : Prop where
  r_eq : r = bnMod (affineX c (k • c.generator) 0) c.order
  s_eq : (s : ZMod c.order) = (k : ZMod c.order)⁻¹ * (r * d + digest c msg)
  r_ne : (r : ZMod c.order) ≠ 0
  s_ne : (s : ZMod c.order) ≠ 0

/-- `k^{-1} (z + r*d) mod n`. -/
def signatureS (c : Curve P) (d : ℤ) (msg : Bytes) (k r : ℤ) : ℤ :=
  bnModMul (bnModInverse k c.order)
    (bnModAdd (bnModMul r d c.order) (digest c msg) c.order) c.order

theorem ecdsaSign_eq (c : Curve P) (d : ℤ) (msg : Bytes) (k : ℤ) :
    ecdsaSign c d msg k =
      if bnMod (affineX c (k • c.generator) 0) c.order = 0 then
        ⟨false, bnMod (affineX c (k • c.generator) 0) c.order, 0⟩
      else
        ⟨signatureS c d msg k (bnMod (affineX c (k • c.generator) 0) c.order) ≠ 0,
          bnMod (affineX c (k • c.generator) 0) c.order,
          signatureS c d msg k (bnMod (affineX c (k • c.generator) 0) c.order)⟩ := rfl

omit [DecidableEq P] in
theorem cast_signatureS {k : ℤ} (hk : (k : ZMod c.order) ≠ 0) (d : ℤ) (msg : Bytes) (r : ℤ) :
    ((signatureS c d msg k r : ℤ) : ZMod c.order) =
      (k : ZMod c.order)⁻¹ * (r * d + digest c msg) := by
  have hprime : Fact c.order.Prime := ⟨c.prime⟩
  rw [signatureS, cast_bnModMul, cast_bnModInverse hk, cast_bnModAdd, cast_bnModMul]

omit [DecidableEq P] in
theorem signatureS_eq_zero_iff (d : ℤ) (msg : Bytes) (k r : ℤ) :
    signatureS c d msg k r = 0 ↔ ((signatureS c d msg k r : ℤ) : ZMod c.order) = 0 := by
  rw [signatureS, bnModMul_eq_zero_iff, cast_bnModMul]

theorem ecdsaSign_ok_iff (d : ℤ) (msg : Bytes) (k : ℤ) :
    (ecdsaSign c d msg k).ok = false ↔
      (ecdsaSign c d msg k).r = 0 ∨ (ecdsaSign c d msg k).s = 0 := by
  rw [ecdsaSign_eq]
  split
  · rename_i hr
    exact ⟨fun _ => Or.inl hr, fun _ => rfl⟩
  · rename_i hr
    rw [or_iff_right hr]
    simp

theorem signature_of_ok {d : ℤ} {msg : Bytes} {k : ℤ} (hk : (k : ZMod c.order) ≠ 0)
    (hok : (ecdsaSign c d msg k).ok = true) :
    Signature c d msg k (ecdsaSign c d msg k).r (ecdsaSign c d msg k).s := by
  rw [ecdsaSign_eq] at hok ⊢
  split at hok
  · exact absurd hok Bool.false_ne_true
  · rename_i hr
    rw [if_neg hr]
    have hs := of_decide_eq_true hok
    refine ⟨rfl, cast_signatureS hk d msg _, ?_, ?_⟩
    · rwa [cast_bnMod, ne_eq, ← bnMod_eq_zero_iff]
    · rwa [ne_eq, ← signatureS_eq_zero_iff]

theorem ecdsaVerify_signature {d : ℤ} {msg : Bytes} {k r s : ℤ}
    (hk : (k : ZMod c.order) ≠ 0) (hsig : Signature c d msg k r s) :
    ecdsaVerify c (d • c.generator) msg r s = true := by
  have hprime : Fact c.order.Prime := ⟨c.prime⟩
  have hfactor : ((bnModMul (digest c msg) (bnModInverse s c.order) c.order +
      bnModMul r (bnModInverse s c.order) c.order * d : ℤ) : ZMod c.order) = k := by
    rw [Int.cast_add, Int.cast_mul, cast_bnModMul, cast_bnModMul, cast_bnModInverse hsig.s_ne]
    exact nonce_of_signature hk hsig.s_eq hsig.s_ne
  have hpoint : bnModMul (digest c msg) (bnModInverse s c.order) c.order • c.generator +
      bnModMul r (bnModInverse s c.order) c.order • d • c.generator = k • c.generator := by
    rw [← mul_zsmul', ← add_zsmul, mul_comm d]
    exact zsmul_eq_of_cast_eq c.addOrderOf_generator hfactor
  show decide (bnMod (affineX c _ 0) c.order = r) = true
  rw [hpoint]
  exact decide_eq_true hsig.r_eq.symm

theorem ecdsaVerify_ecdsaSign {d : ℤ} {msg : Bytes} {k : ℤ} (hk : 0 < k) (hk' : k < c.order)
    (hok : (ecdsaSign c d msg k).ok = true) :
    ecdsaVerify c (d • c.generator) msg (ecdsaSign c d msg k).r (ecdsaSign c d msg k).s =
      true := by
  have hne := cast_ne_zero hk hk'
  exact ecdsaVerify_signature hne (signature_of_ok hne hok)

/-! ## Two signatures under one nonce -/

theorem ecdsaSign_r (d : ℤ) (msg : Bytes) (k : ℤ) :
    (ecdsaSign c d msg k).r = bnMod (affineX c (k • c.generator) 0) c.order := by
  rw [ecdsaSign_eq]
  split <;> rfl

omit [DecidableEq P] in
theorem recoverKey_range (r1 s1 s2 z1 z2 : ℤ) :
    0 ≤ recoverKey c r1 s1 s2 z1 z2 ∧ recoverKey c r1 s1 s2 z1 z2 < c.order := by
  have hpos : (0 : ℤ) < c.order := Int.natCast_pos.mpr c.prime.pos
  exact ⟨Int.emod_nonneg _ hpos.ne', Int.emod_lt_of_pos _ hpos⟩

theorem recoverKey_signatures {d : ℤ} {m1 m2 : Bytes} {k r s1 s2 : ℤ} (hd : 0 ≤ d)
    (hd' : d < c.order) (hk : (k : ZMod c.order) ≠ 0) (h1 : Signature c d m1 k r s1)
    (h2 : Signature c d m2 k r s2)
    (hz : (digest c m1 : ZMod c.order) ≠ (digest c m2 : ZMod c.order)) :
    ((s1 - s2 : ℤ) : ZMod c.order) ≠ 0 ∧
      recoverKey c r s1 s2 (digest c m1) (digest c m2) = d := by
  have hprime : Fact c.order.Prime := ⟨c.prime⟩
  rcases nonce_of_reuse hk h1.s_eq h2.s_eq hz with ⟨hdiff, hnonce⟩
  have hsub : ((bnModSub s1 s2 c.order : ℤ) : ZMod c.order) ≠ 0 := by
    rwa [cast_bnModSub]
  rw [← Int.cast_sub] at hdiff
  refine ⟨hdiff, ?_⟩
  rcases recoverKey_range (c := c) r s1 s2 (digest c m1) (digest c m2) with ⟨hlow, hhigh⟩
  apply eq_of_cast_eq hlow hhigh hd hd'
  show ((bnModMul _ _ c.order : ℤ) : ZMod c.order) = d
  rw [cast_bnModMul, cast_bnModSub, cast_bnModMul, cast_bnModMul, cast_bnModSub,
    cast_bnModInverse hsub, cast_bnModInverse h1.r_ne, cast_bnModSub, hnonce]
  exact key_of_reuse hk h1.r_ne h1.s_eq

/-! ## The harness -/

def alg : String := "ECDSA-P256/seq"

def kUniqueness : String := "O6-ecdsa-k-uniqueness"

/-- Two messages that differ in their first byte. -/
def messages : Draw (Bytes × Bytes) := do
  let m1 ← cmfRandombytes 16
  let m2 ← cmfRandombytes 16
  pure (m1.set 0 0xA1, m2.set 0 0xB2)

def signatureChecks (c : Curve P) (d : ℤ) (m1 m2 : Bytes) (sig1 sig2 : Signing) : List Check :=
  if sig1.ok && sig2.ok then
    let kreused := decide (sig1.r = sig2.r)
    [⟨alg, "O6-sign-verify", "honest ECDSA signature failed to verify",
        ecdsaVerify c (d • c.generator) m1 sig1.r sig1.s⟩,
      ⟨alg, kUniqueness, "per-signature nonce reused across distinct messages", !kreused⟩] ++
      if kreused then
        [⟨alg, kUniqueness, "nonce reuse allowed full private-key recovery",
          recoverKey c sig1.r sig1.s sig2.s (digest c m1) (digest c m2) ≠ d⟩]
      else []
  else []

def privateKey (dDrawn : ℤ) : ℤ := if dDrawn = 0 then 1 else dDrawn

/-- The run, by what `BN_rand_range` returned for the key and for the nonces. -/
def checks (c : Curve P) (faultKreuse : Bool) (dDrawn k1Drawn k2Drawn : ℤ) (m1 m2 : Bytes) :
    List Check :=
  let d := privateKey dDrawn
  signatureChecks c d m1 m2 (ecdsaSign c d m1 (nonceK faultKreuse c.order k1Drawn))
    (ecdsaSign c d m2 (nonceK faultKreuse c.order k2Drawn))

def llvmFuzzerTestOneInput (c : Curve P) (faultKreuse : Bool) (dDrawn k1Drawn k2Drawn : ℤ)
    (data : Bytes) : List Check :=
  if data.length < 4 then []
  else
    let (m1, m2) := (messages (cmfPrngSeed data)).1
    checks c faultKreuse dDrawn k1Drawn k2Drawn m1 m2

omit [DecidableEq P] in
theorem nonceK_range (c : Curve P) (faultKreuse : Bool) {drawn : ℤ} (hlow : 0 ≤ drawn)
    (hhigh : drawn < c.order) :
    0 < nonceK faultKreuse c.order drawn ∧ nonceK faultKreuse c.order drawn < c.order := by
  have hone : (1 : ℤ) < c.order := by exact_mod_cast c.prime.one_lt
  have hmod : 0 ≤ bnMod 0x0123456789abcdef c.order ∧
      bnMod 0x0123456789abcdef c.order < c.order :=
    ⟨Int.tmod_nonneg _ (by norm_num), Int.tmod_lt_of_pos _ (by omega)⟩
  rw [nonceK]
  cases faultKreuse with
  | false =>
      simp only [Bool.false_eq_true, if_false]
      split <;> omega
  | true =>
      simp only [if_true]
      split <;> omega

theorem kUniqueness_ne : kUniqueness ≠ "O6-sign-verify" := by decide

theorem signatureChecks_verify {d : ℤ} {m1 m2 : Bytes} {sig1 sig2 : Signing}
    (hverify : sig1.ok = true → ecdsaVerify c (d • c.generator) m1 sig1.r sig1.s = true) :
    ∀ chk ∈ signatureChecks c d m1 m2 sig1 sig2,
      chk.oracle = "O6-sign-verify" → chk.holds = true := by
  intro chk hchk horacle
  rw [signatureChecks] at hchk
  split at hchk
  · rename_i hboth
    rcases List.mem_append.mp hchk with hfirst | hrecovery
    · simp only [List.mem_cons, List.not_mem_nil, or_false] at hfirst
      rcases hfirst with rfl | rfl
      · exact hverify (Bool.and_eq_true_iff.mp hboth).1
      · exact absurd horacle kUniqueness_ne
    · split at hrecovery
      · rw [List.mem_singleton.mp hrecovery] at horacle
        exact absurd horacle kUniqueness_ne
      · cases hrecovery
  · cases hchk

theorem checks_verify (c : Curve P) (faultKreuse : Bool) (dDrawn k2Drawn : ℤ) {k1Drawn : ℤ}
    (hlow : 0 ≤ k1Drawn) (hhigh : k1Drawn < c.order) (m1 m2 : Bytes) :
    ∀ chk ∈ checks c faultKreuse dDrawn k1Drawn k2Drawn m1 m2,
      chk.oracle = "O6-sign-verify" → chk.holds = true := by
  rcases nonceK_range c faultKreuse hlow hhigh with ⟨hk, hk'⟩
  exact signatureChecks_verify (ecdsaVerify_ecdsaSign hk hk')

/-- With a constant nonce source a run that signs twice ends at the uniqueness
of the nonces, before it recovers the key. -/
theorem faultKreuse_fires (c : Curve P) (dDrawn k2Drawn : ℤ) {k1Drawn : ℤ} (hlow : 0 ≤ k1Drawn)
    (hhigh : k1Drawn < c.order) (m1 m2 : Bytes)
    (hchecks : checks c true dDrawn k1Drawn k2Drawn m1 m2 ≠ []) :
    violation (checks c true dDrawn k1Drawn k2Drawn m1 m2) =
      some ⟨alg, kUniqueness, "per-signature nonce reused across distinct messages", false⟩ := by
  have hverify := checks_verify c true dDrawn k2Drawn hlow hhigh m1 m2
  have hr : (ecdsaSign c (privateKey dDrawn) m1 (nonceK true c.order k1Drawn)).r =
      (ecdsaSign c (privateKey dDrawn) m2 (nonceK true c.order k2Drawn)).r := by
    rw [ecdsaSign_r, ecdsaSign_r]
    rfl
  rw [checks, signatureChecks] at hchecks hverify ⊢
  split at hchecks
  · rename_i hboth
    rw [if_pos hboth] at hverify ⊢
    have hfirst := hverify _ (List.mem_append_left _ List.mem_cons_self) rfl
    rw [violation, List.cons_append, List.find?_cons_of_neg (by rw [hfirst]; decide),
      List.cons_append, List.find?_cons_of_pos (by rw [decide_eq_true hr]; rfl),
      decide_eq_true hr]
    rfl
  · exact absurd rfl hchecks

/-- The converse fails: where a point and its negation share their coordinate,
so do the signatures under a nonce and under its negation. -/
theorem ecdsaSign_r_neg (hsymmetric : ∀ p : P, affineX c (-p) 0 = affineX c p 0) (d d' : ℤ)
    (m m' : Bytes) (k : ℤ) :
    (ecdsaSign c d m (c.order - k)).r = (ecdsaSign c d' m' k).r := by
  have hneg : (c.order - k) • c.generator = -(k • c.generator) := by
    have hcast : ((c.order - k : ℤ) : ZMod c.order) = ((-k : ℤ) : ZMod c.order) := by
      push_cast
      rw [ZMod.natCast_self, zero_sub]
    rw [zsmul_eq_of_cast_eq c.addOrderOf_generator hcast, neg_zsmul]
  rw [ecdsaSign_r, ecdsaSign_r, hneg, hsymmetric]

/-- What the signer makes the verifier takes, and the signer gives up exactly at
a zero. -/
theorem signer_and_verifier_agree (c : Curve P) :
    (∀ (d k : ℤ) (msg : Bytes), 0 < d → d < c.order → 0 < k → k < c.order →
      ((ecdsaSign c d msg k).ok = true →
        ecdsaVerify c (d • c.generator) msg (ecdsaSign c d msg k).r
          (ecdsaSign c d msg k).s = true) ∧
      ((ecdsaSign c d msg k).ok = false ↔
        (ecdsaSign c d msg k).r = 0 ∨ (ecdsaSign c d msg k).s = 0) ∧
      ∃ h : k • c.generator ≠ 0,
        (ecdsaSign c d msg k).r = bnMod (c.xCoord ⟨k • c.generator, h⟩) c.order) ∧
    ∀ (faultKreuse : Bool) (dDrawn k1Drawn k2Drawn : ℤ) (data : Bytes),
      0 ≤ dDrawn → dDrawn < c.order → 0 ≤ k1Drawn → k1Drawn < c.order →
      0 ≤ k2Drawn → k2Drawn < c.order →
      ∀ chk ∈ llvmFuzzerTestOneInput c faultKreuse dDrawn k1Drawn k2Drawn data,
        chk.oracle = "O6-sign-verify" → chk.holds = true := by
  constructor
  · intro d k msg _ _ hk hk'
    have hpoint := zsmul_ne_zero c.addOrderOf_generator (cast_ne_zero hk hk')
    refine ⟨ecdsaVerify_ecdsaSign hk hk', ecdsaSign_ok_iff d msg k, hpoint, ?_⟩
    rw [ecdsaSign_r, affineX, dif_pos hpoint]
  · intro faultKreuse dDrawn k1Drawn k2Drawn data _ _ hlow hhigh _ _ chk hchk
    rw [llvmFuzzerTestOneInput] at hchk
    split at hchk
    · cases hchk
    · exact checks_verify c faultKreuse dDrawn k2Drawn hlow hhigh _ _ chk hchk

/-- A nonce that is used twice shows, and gives the private key away. -/
theorem nonce_reuse_recovers {d k : ℤ} (hd : 0 < d) (hd' : d < c.order) (hk : 0 < k)
    (hk' : k < c.order) {m1 m2 : Bytes} (hok1 : (ecdsaSign c d m1 k).ok = true)
    (hok2 : (ecdsaSign c d m2 k).ok = true) :
    (ecdsaSign c d m1 k).r = (ecdsaSign c d m2 k).r ∧
      ((digest c m1 : ZMod c.order) ≠ (digest c m2 : ZMod c.order) →
        IsUnit (((ecdsaSign c d m1 k).s - (ecdsaSign c d m2 k).s : ℤ) : ZMod c.order) ∧
        recoverKey c (ecdsaSign c d m1 k).r (ecdsaSign c d m1 k).s (ecdsaSign c d m2 k).s
          (digest c m1) (digest c m2) = d) := by
  have hprime : Fact c.order.Prime := ⟨c.prime⟩
  have hne := cast_ne_zero hk hk'
  have hr : (ecdsaSign c d m1 k).r = (ecdsaSign c d m2 k).r := by
    rw [ecdsaSign_r, ecdsaSign_r]
  refine ⟨hr, ?_⟩
  intro hz
  have h1 := signature_of_ok hne hok1
  have h2 := signature_of_ok hne hok2
  rw [← hr] at h2
  rcases recoverKey_signatures hd.le hd' hne h1 h2 hz with ⟨hdiff, hkey⟩
  exact ⟨isUnit_iff_ne_zero.mpr hdiff, hkey⟩

end

/-! ## A group of seven points -/

/-- The digests of two messages of one byte. -/
def sevenDigest (msg : Bytes) : Bytes :=
  if msg = [1] then
    [0x4b, 0xf5, 0x12, 0x2f, 0x34, 0x45, 0x54, 0xc5,
      0x3b, 0xde, 0x2e, 0xbb, 0x8c, 0xd2, 0xb7, 0xe3,
      0xd1, 0x60, 0x0a, 0xd6, 0x31, 0xc3, 0x85, 0xa5,
      0xd7, 0xcc, 0xe2, 0x3c, 0x77, 0x85, 0x45, 0x9a]
  else
    [0xdb, 0xc1, 0xb4, 0xc9, 0x00, 0xff, 0xe4, 0x8d,
      0x57, 0x5b, 0x5d, 0xa5, 0xc6, 0x38, 0x04, 0x01,
      0x25, 0xf6, 0x5d, 0xb0, 0xfe, 0x3e, 0x24, 0x49,
      0x4b, 0x76, 0xea, 0x98, 0x64, 0x57, 0xd9, 0x86]

/-- A point and its negation share their coordinate. -/
def sevenCurve : Curve (ZMod 7) where
  order := 7
  prime := by norm_num
  generator := 1
  addOrderOf_generator := ZMod.addOrderOf_one 7
  generates := fun p => ⟨p.val, by simp⟩
  xCoord := fun p => p.1.val * (7 - p.1.val)
  sha256 := sevenDigest

theorem sevenCurve_ok :
    (ecdsaSign sevenCurve 3 [1] 2).ok = true ∧ (ecdsaSign sevenCurve 3 [2] 2).ok = true := by
  decide +kernel

theorem signer_and_verifier_agree_seven :
    ecdsaVerify sevenCurve ((3 : ℤ) • sevenCurve.generator) [1] (ecdsaSign sevenCurve 3 [1] 2).r
      (ecdsaSign sevenCurve 3 [1] 2).s = true :=
  ((signer_and_verifier_agree sevenCurve).1 3 2 [1] (by decide) (by decide) (by decide)
    (by decide)).1 sevenCurve_ok.1

theorem nonce_reuse_recovers_seven :
    recoverKey sevenCurve (ecdsaSign sevenCurve 3 [1] 2).r (ecdsaSign sevenCurve 3 [1] 2).s
      (ecdsaSign sevenCurve 3 [2] 2).s (digest sevenCurve [1]) (digest sevenCurve [2]) = 3 := by
  have hdigests : (digest sevenCurve [1] : ZMod 7) ≠ (digest sevenCurve [2] : ZMod 7) := by
    decide +kernel
  exact ((nonce_reuse_recovers (c := sevenCurve) (by decide) (by decide) (by decide) (by decide)
    sevenCurve_ok.1 sevenCurve_ok.2).2 hdigests).2

end Ecdsa
end CMFuzz
