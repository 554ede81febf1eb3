import CMFuzz.TimingVerdict

/-!
# What the timing verdict does not depend on

The order of the measurements, the names of the two classes and a constant
overhead leave the verdict as it is, and it takes spread inside a class to
report a leak.
-/

namespace CMFuzz
namespace Dudect

open BestScan
open Moments

/-! ## Other measurements of the same run -/

/-- The two classes under each other's name. -/
def swapClasses (ms : List Measurement) : List Measurement :=
  ms.map fun m => { m with cls := !m.cls }

/-- The same measurements with a constant overhead. -/
def delay (d : UInt64) (ms : List Measurement) : List Measurement :=
  ms.map fun m => { m with cyc := m.cyc + d }

def Fits (d : UInt64) (ms : List Measurement) : Prop :=
  ∀ m ∈ ms, m.cyc.toNat + d.toNat < 2 ^ 64

theorem toNat_add_of_fits {x d : UInt64} (hfits : x.toNat + d.toNat < 2 ^ 64) :
    (x + d).toNat = x.toNat + d.toNat := by
  rw [UInt64.toNat_add, Nat.mod_eq_of_lt hfits]

theorem add_le_add_iff_of_fits {x y d : UInt64} (hx : x.toNat + d.toNat < 2 ^ 64)
    (hy : y.toNat + d.toNat < 2 ^ 64) : x + d ≤ y + d ↔ x ≤ y := by
  rw [UInt64.le_iff_toNat_le, UInt64.le_iff_toNat_le, toNat_add_of_fits hx,
    toNat_add_of_fits hy]
  exact Nat.add_le_add_iff_right

theorem samples_swapClasses (K : Type) [NatCast K] (cls : Bool) (cut : UInt64)
    (ms : List Measurement) :
    samples K cls cut (swapClasses ms) = samples K (!cls) cut ms := by
  induction ms with
  | nil => rfl
  | cons m ms ih =>
      have hcls : (!m.cls) = cls ↔ m.cls = !cls := by
        rw [Bool.not_eq_eq_eq_not]
      rw [swapClasses, List.map_cons, ← swapClasses, samples_cons, samples_cons, ih]
      simp only [hcls]

theorem sorted_swapClasses (ms : List Measurement) : sorted (swapClasses ms) = sorted ms := by
  apply sorted_congr
  rw [swapClasses, List.map_map]
  exact List.Perm.refl _

theorem sorted_mem {ms : List Measurement} {x : UInt64} (hx : x ∈ sorted ms) :
    ∃ m ∈ ms, m.cyc = x :=
  List.mem_map.mp ((sorted_perm ms).mem_iff.mp hx)

theorem sorted_delay {d : UInt64} {ms : List Measurement} (hfits : Fits d ms) :
    sorted (delay d ms) = (sorted ms).map (· + d) := by
  have hfit : ∀ x ∈ sorted ms, x.toNat + d.toNat < 2 ^ 64 := by
    intro x hx
    rcases sorted_mem hx with ⟨m, hm, rfl⟩
    exact hfits m hm
  have hpairwise : ((sorted ms).map (· + d)).Pairwise (· ≤ ·) := by
    rw [List.pairwise_map]
    apply (sorted_pairwise ms).imp_of_mem
    intro x y hx hy hle
    exact (add_le_add_iff_of_fits (hfit x hx) (hfit y hy)).mpr hle
  have hperm : (sorted (delay d ms)).Perm ((sorted ms).map (· + d)) := by
    have hdelayed : (delay d ms).map Measurement.cyc =
        (ms.map Measurement.cyc).map (· + d) := by
      rw [delay, List.map_map, List.map_map]
      rfl
    exact (sorted_perm _).trans (hdelayed ▸ ((sorted_perm ms).map (· + d)).symm)
  exact List.Perm.eq_of_pairwise (fun _ _ _ _ => UInt64.le_antisymm) (sorted_pairwise _)
    hpairwise hperm

theorem samples_delay {K : Type} [Field K] {cls : Bool} {cut cut' d : UInt64}
    {ms : List Measurement} (hfits : Fits d ms)
    (hcut : ∀ m ∈ ms, m.cyc + d ≤ cut' ↔ m.cyc ≤ cut) :
    samples K cls cut' (delay d ms) = (samples K cls cut ms).map (· + (d.toNat : K)) := by
  induction ms with
  | nil => rfl
  | cons m ms ih =>
      rw [Fits, List.forall_mem_cons] at hfits
      rw [List.forall_mem_cons] at hcut
      rw [delay, List.map_cons, ← delay, samples_cons, samples_cons, ih hfits.2 hcut.2]
      simp only [hcut.1]
      split
      · rw [List.map_cons, toNat_add_of_fits hfits.1, Nat.cast_add]
      · rfl

/-! ## The analysis -/

section

variable {K : Type} [Field K] [LinearOrder K] [IsStrictOrderedRing K] [FloorSemiring K]
  {sqrt : K → K} {pow : K → K → K} (hsqrt : ∀ x, 0 ≤ x → sqrt x * sqrt x = x)
  (hpow : ∀ x, 0 ≤ x → 0 < pow 0.5 x)

omit [FloorSemiring K] in
theorem croppedT_perm {ms ms' : List Measurement} (hperm : ms.Perm ms') (c : UInt64) :
    croppedT sqrt c ms = croppedT sqrt c ms' := by
  rw [croppedT_eq, croppedT_eq, pushAll_perm (samples_perm false c hperm),
    pushAll_perm (samples_perm true c hperm)]

theorem analysis_perm {ms ms' : List Measurement} (hperm : ms.Perm ms') :
    analysis sqrt pow ms = analysis sqrt pow ms' := by
  have hcut : cut pow ms = cut pow ms' := by
    funext p
    rw [cut, cut, sorted_congr (hperm.map Measurement.cyc), hperm.length_eq]
  rw [analysis, analysis, hcut]
  simp only [croppedT_perm hperm]

include hsqrt

theorem analysis_swapClasses (ms : List Measurement) :
    analysis sqrt pow (swapClasses ms) = analysis sqrt pow ms := by
  have hcut : cut pow (swapClasses ms) = cut pow ms := by
    funext p
    rw [cut, cut, sorted_swapClasses, swapClasses, List.length_map]
  have habs : ∀ c, |croppedT sqrt c (swapClasses ms)| = |croppedT sqrt c ms| := by
    intro c
    rw [croppedT_eq, croppedT_eq, samples_swapClasses, samples_swapClasses]
    exact abs_welchT_swap hsqrt _ _
  rw [analysis, analysis, hcut]
  simp only [habs]

include hpow

theorem abs_croppedT_delay {d : UInt64} {ms : List Measurement} (hfits : Fits d ms) (p : ℕ) :
    |croppedT sqrt (cut pow (delay d ms) p) (delay d ms)| =
      |croppedT sqrt (cut pow ms p) ms| := by
  have hcut : ∀ m ∈ ms, m.cyc + d ≤ cut pow (delay d ms) p ↔ m.cyc ≤ cut pow ms p := by
    intro m hm
    have hms : ms ≠ [] := List.ne_nil_of_mem hm
    by_cases hp : p = nPercentiles
    · rw [hp]
      exact ⟨fun _ => cut_last ms _, fun _ => cut_last _ _⟩
    · rcases cut_eq hpow hms hp with ⟨hindex, hcut⟩
      have hdelayed : cut pow (delay d ms) p = cut pow ms p + d := by
        rw [hcut, cut, if_neg hp, sorted_delay hfits, delay, List.length_map,
          List.getD_eq_getElem?_getD, List.getElem?_map, List.getElem?_eq_getElem hindex]
        rfl
      have hkept : (cut pow ms p).toNat + d.toNat < 2 ^ 64 := by
        rcases sorted_mem (List.getElem_mem hindex) with ⟨m', hm', hcyc⟩
        rw [hcut, ← hcyc]
        exact hfits m' hm'
      rw [hdelayed]
      exact add_le_add_iff_of_fits (hfits m hm) hkept
  rw [croppedT_eq, croppedT_eq, samples_delay hfits hcut, samples_delay hfits hcut]
  exact abs_welchT_shift hsqrt _ _ _

theorem maxT_delay {d : UInt64} {ms : List Measurement} (hfits : Fits d ms) :
    (analysis sqrt pow (delay d ms)).1 = (analysis sqrt pow ms).1 := by
  apply scan_fst_congr
  · apply List.map_congr_left
    intro p _
    exact abs_croppedT_delay hsqrt hpow hfits p
  · rfl

omit [FloorSemiring K] hpow in
/-- The statistic of a cut that keeps no two different times of one class. -/
theorem croppedT_of_constant {ms : List Measurement} {c : UInt64}
    (hconst : ∀ m ∈ ms, ∀ m' ∈ ms, m.cls = m'.cls → m.cyc ≤ c → m'.cyc ≤ c →
      m.cyc = m'.cyc) : croppedT sqrt c ms = 0 := by
  have hclass : ∀ cls, ∃ y : K, ∀ x ∈ samples K cls c ms, x = y := by
    intro cls
    cases hsamples : samples K cls c ms with
    | nil => exact ⟨0, fun x hx => absurd hx List.not_mem_nil⟩
    | cons y ys =>
        rcases mem_samples_iff.mp (hsamples ▸ List.mem_cons_self : y ∈ samples K cls c ms) with
          ⟨m, hm, hcls, hcut, rfl⟩
        refine ⟨m.cyc.toNat, fun x hx => ?_⟩
        rcases mem_samples_iff.mp (hsamples ▸ hx : x ∈ samples K cls c ms) with
          ⟨m', hm', hcls', hcut', rfl⟩
        rw [hconst m' hm' m hm (hcls'.trans hcls.symm) hcut' hcut]
  rcases hclass false with ⟨y, hy⟩
  rcases hclass true with ⟨z, hz⟩
  rw [croppedT_eq]
  exact welchT_of_constant hsqrt hy hz

end

/-! ## Reports -/

theorem half_real (x : ℝ) (_ : 0 ≤ x) : 0 < (0.5 : ℝ) ^ x := half_rpow_pos x

theorem sqrt_real (x : ℝ) (hx : 0 ≤ x) : √x * √x = x := Real.mul_self_sqrt hx

theorem timing_report_symmetric (alg op : String) (ect : Bool) (ms : List Measurement) :
    let r := report Real.sqrt (· ^ ·) alg op ect
    (∀ ms', ms.Perm ms' → r ms' = r ms) ∧
      r (swapClasses ms) = r ms ∧
      ∀ d, Fits d ms →
        (r (delay d ms)).maxT = (r ms).maxT ∧ (r (delay d ms)).verdict = (r ms).verdict := by
  refine ⟨?_, ?_, ?_⟩
  · intro ms' hperm
    simp only [report, leaked, analysis_perm hperm, hperm.length_eq]
  · have hlen : (swapClasses ms).length = ms.length := List.length_map _
    simp only [report, leaked, analysis_swapClasses sqrt_real, hlen]
  · intro d hfits
    have hmax := maxT_delay sqrt_real half_real hfits
    refine ⟨hmax, ?_⟩
    simp only [report, leaked, hmax]

theorem timing_report_symmetric_two :
    let r := report Real.sqrt (· ^ · : ℝ → ℝ → ℝ) "traditional" "aes256_enc" true
    (r (swapClasses apart)).verdict = .finding ∧ (r (delay 5 apart)).verdict = .finding := by
  intro r
  obtain ⟨_, hswap, hdelay⟩ := timing_report_symmetric "traditional" "aes256_enc" true apart
  have hfinding : (r apart).verdict = .finding :=
    (report_finding_iff Real.sqrt (· ^ ·) apart (by norm_num) _ _ _).mpr
      ⟨rfl, nPercentiles, le_rfl, apart_separated⟩
  constructor
  · exact (congrArg Report.verdict hswap).trans hfinding
  · exact (hdelay 5 (by unfold Fits apart; decide)).2.trans hfinding

theorem spread_of_leaked {ms : List Measurement}
    (hleaked : leaked Real.sqrt (· ^ · : ℝ → ℝ → ℝ) ms = true) :
    ∃ p ≤ nPercentiles, ∃ m ∈ ms, ∃ m' ∈ ms, m.cls = m'.cls ∧ m.cyc ≠ m'.cyc ∧
      m.cyc ≤ cut (· ^ · : ℝ → ℝ → ℝ) ms p ∧ m'.cyc ≤ cut (· ^ · : ℝ → ℝ → ℝ) ms p := by
  rcases (leaked_iff _ _ ms (by norm_num)).mp hleaked with ⟨p, hp, hlarge⟩
  refine ⟨p, hp, ?_⟩
  by_contra hnone
  have hzero : croppedT Real.sqrt (cut (· ^ · : ℝ → ℝ → ℝ) ms p) ms = 0 := by
    apply croppedT_of_constant sqrt_real
    intro m hm m' hm' hcls hcut hcut'
    by_contra hne
    exact hnone ⟨m, hm, m', hm', hcls, hne, hcut, hcut'⟩
  rw [hzero, abs_zero] at hlarge
  exact absurd hlarge (by norm_num)

theorem analysis_of_classTime {ms : List Measurement} {time : Bool → UInt64}
    (htime : ∀ m ∈ ms, m.cyc = time m.cls) :
    analysis Real.sqrt (· ^ · : ℝ → ℝ → ℝ) ms = (0, 0) := by
  rcases analysis_first Real.sqrt (· ^ ·) ms with hkept | ⟨p, _, _, hpos, _⟩
  · exact hkept
  · have hzero : croppedT Real.sqrt (cut (· ^ · : ℝ → ℝ → ℝ) ms p) ms = 0 := by
      apply croppedT_of_constant sqrt_real
      intro m hm m' hm' hcls _ _
      rw [htime m hm, htime m' hm', hcls]
    rw [hzero, abs_zero] at hpos
    exact absurd hpos (lt_irrefl 0)

theorem report_of_classTime (alg op : String) (ect : Bool) {ms : List Measurement}
    {time : Bool → UInt64} (htime : ∀ m ∈ ms, m.cyc = time m.cls) :
    let r := report Real.sqrt (· ^ · : ℝ → ℝ → ℝ) alg op ect ms
    r.maxT = 0 ∧ r.cut = 0 ∧ r.verdict = if ect then .ok else .okUnexpectedlyCt := by
  have hanalysis := analysis_of_classTime htime
  have hquiet : leaked Real.sqrt (· ^ · : ℝ → ℝ → ℝ) ms = false := by
    rw [leaked, hanalysis]
    exact decide_eq_false (by norm_num)
  refine ⟨congrArg Prod.fst hanalysis, congrArg Prod.snd hanalysis, ?_⟩
  rw [report, hquiet]
  cases ect
  · rfl
  · rfl

/-- A leak is reported only where some cut keeps two different times of one
class.  So an operation whose time is a function of the class is never
reported, however far the two times are apart. -/
theorem leak_needs_spread (alg op : String) (ect : Bool) (ms : List Measurement) :
    let r := report Real.sqrt (· ^ · : ℝ → ℝ → ℝ) alg op ect
    ((r ms).verdict = .finding ∨ (r ms).verdict = .expectedVartime →
      ∃ p ≤ nPercentiles, ∃ m ∈ ms, ∃ m' ∈ ms, m.cls = m'.cls ∧ m.cyc ≠ m'.cyc ∧
        m.cyc ≤ cut (· ^ · : ℝ → ℝ → ℝ) ms p ∧ m'.cyc ≤ cut (· ^ · : ℝ → ℝ → ℝ) ms p) ∧
      ∀ time : Bool → UInt64, (∀ m ∈ ms, m.cyc = time m.cls) →
        (r ms).maxT = 0 ∧ (r ms).cut = 0 ∧
          (r ms).verdict = if ect then .ok else .okUnexpectedlyCt := by
  constructor
  · intro hverdict
    exact spread_of_leaked ((verdict_leak_iff _ _).mp hverdict)
  · exact fun _ htime => report_of_classTime alg op ect htime

theorem leak_needs_spread_two :
    (report Real.sqrt (· ^ · : ℝ → ℝ → ℝ) "ML-KEM-768" "decaps" true
      [⟨false, 100⟩, ⟨true, 900⟩, ⟨false, 100⟩, ⟨true, 900⟩]).verdict = .ok :=
  ((leak_needs_spread "ML-KEM-768" "decaps" true
    [⟨false, 100⟩, ⟨true, 900⟩, ⟨false, 100⟩, ⟨true, 900⟩]).2
      (fun cls => if cls then 900 else 100) (by decide)).2.2

end Dudect
end CMFuzz
