import CMFuzz.FaultBuilds

/-!
# Fleets of backends

A run votes over all its backends at once.  Still, up to the size of the voter
arrays, it reports exactly the vectors on which some backend alone would be
reported, and succeeds exactly when each alone would.  In a larger fleet a
report may be lost, but none is added.
-/

namespace CMFuzz
namespace Runner

open ByteCodec
open Compute
open LineStream
open Wire

variable {nb : ℕ}

/-! ## One vector -/

/-- Backend `b` gives the reference nothing to report on vector `i`. -/
def Campaign.Concurs (c : Campaign nb) (i : ℕ) (b : Fin nb) : Prop :=
  ∀ reply ∈ c.ballot i b,
    if c.op i = 13 ∨ c.op i = 14 then accepts reply = accepts (c.refhex i)
    else reply = c.refhex i

theorem agree_seatedPoll_iff (c : Campaign nb) (i : ℕ) :
    Agree (c.op i) (c.seatedPoll i) ↔ ∀ b ∈ c.seated i, c.Concurs i b := by
  rw [Campaign.seatedPoll, agree_withReference_iff]
  apply forall_congr'
  intro b
  by_cases hb : b ∈ c.seated i
  · simp only [if_pos hb]
    exact ⟨fun hconcurs _ => hconcurs, fun hconcurs => hconcurs hb⟩
  · simp only [if_neg hb]
    exact ⟨fun _ hseat => absurd hseat hb,
      fun _ reply hreply => absurd hreply (Option.not_mem_none reply)⟩

theorem Campaign.concurs_of_silent {c : Campaign nb} {i : ℕ} {b : Fin nb}
    (hb : ¬ c.Answers i b) : c.Concurs i b := by
  intro reply hreply
  rw [Campaign.ballot, if_neg hb] at hreply
  exact absurd hreply (Option.not_mem_none reply)

theorem Campaign.seated_concur_iff {c : Campaign nb} (hnb : nb ≤ 15) (i : ℕ) :
    (∀ b ∈ c.seated i, c.Concurs i b) ↔ ∀ b, c.Concurs i b := by
  constructor
  · intro hseated b
    by_cases hb : c.Answers i b
    · exact hseated b ((c.mem_seated_iff i (c.answering_card_le i hnb) b).mpr hb)
    · exact Campaign.concurs_of_silent hb
  · exact fun hall b _ => hall b

theorem flags_iff_seated (c : Campaign nb) (i : ℕ) :
    (outcome c).Flags i ↔ i < c.N ∧ ¬ ∀ b ∈ c.seated i, c.Concurs i b := by
  have happ := (stateAt_applied c i).failures
  have hruling := @agree_iff_ruling _ (c.op i) _ (c.none_mem_seatedPoll i)
  have hfalse : ∀ u : Bool, u = false ↔ u.toNat = 0 := by decide
  rw [← Finset.card_eq_zero, hfalse, ← Campaign.rulingAt] at hruling
  rw [flags_iff_failures, ← agree_seatedPoll_iff, hruling]
  apply and_congr_right
  intro _
  omega

theorem status_iff_flags (c : Campaign nb) :
    (outcome c).status = some 0 ↔ ∀ i, ¬ (outcome c).Flags i := by
  rw [outcome_status_eq_zero_iff, final, stateAt_failures_eq_zero_iff]
  constructor
  · intro hclean i hflags
    rcases (flags_iff_seated c i).mp hflags with ⟨hi, hcharged⟩
    apply hcharged
    rw [← agree_seatedPoll_iff, agree_iff_ruling (c.none_mem_seatedPoll i)]
    exact hclean i hi
  · intro hquiet i hi
    have hconcur : ∀ b ∈ c.seated i, c.Concurs i b := by
      by_contra hcharged
      exact hquiet i ((flags_iff_seated c i).mpr ⟨hi, hcharged⟩)
    rw [← agree_seatedPoll_iff, agree_iff_ruling (c.none_mem_seatedPoll i)] at hconcur
    exact hconcur

/-! ## One backend at a time -/

section

variable (vectors : List Emitted) (backends : List Backend)

/-- What a backend is asked and answers does not depend on the others. -/
theorem concurs_alone (i : ℕ) (b : Fin backends.length) :
    (campaignOf vectors backends).Concurs i b ↔
      (campaignOf vectors [backends.get b]).Concurs i 0 := Iff.rfl

theorem flags_alone_iff (backend : Backend) (i : ℕ) :
    (outcome (campaignOf vectors [backend])).Flags i ↔
      i < vectors.length ∧ ¬ (campaignOf vectors [backend]).Concurs i 0 := by
  have hN : (campaignOf vectors [backend]).N = vectors.length := List.length_map _
  have hone : [backend].length ≤ 15 := Nat.le_of_ble_eq_true rfl
  rw [flags_iff_seated, Campaign.seated_concur_iff hone, hN]
  apply and_congr_right
  intro _
  apply not_congr
  constructor
  · exact fun hall => hall 0
  · intro hzero b
    rw [@Subsingleton.elim (Fin 1) _ b 0]
    exact hzero

theorem flags_alone {i : ℕ} (hflags : (outcome (campaignOf vectors backends)).Flags i) :
    ∃ backend ∈ backends, (outcome (campaignOf vectors [backend])).Flags i := by
  have hN : (campaignOf vectors backends).N = vectors.length := List.length_map _
  rcases (flags_iff_seated _ i).mp hflags with ⟨hi, hcharged⟩
  simp only [not_forall] at hcharged
  rcases hcharged with ⟨b, _, hb⟩
  rw [concurs_alone] at hb
  exact ⟨backends.get b, List.get_mem backends b,
    (flags_alone_iff vectors _ i).mpr ⟨hN ▸ hi, hb⟩⟩

theorem flags_of_alone (hsize : backends.length ≤ 15) {i : ℕ} {backend : Backend}
    (hmem : backend ∈ backends)
    (hflags : (outcome (campaignOf vectors [backend])).Flags i) :
    (outcome (campaignOf vectors backends)).Flags i := by
  have hN : (campaignOf vectors backends).N = vectors.length := List.length_map _
  rcases List.get_of_mem hmem with ⟨b, hb⟩
  rcases (flags_alone_iff vectors backend i).mp hflags with ⟨hi, hcharged⟩
  rw [flags_iff_seated, Campaign.seated_concur_iff hsize, hN]
  constructor
  · exact hi
  · intro hall
    have hconcurs := hall b
    rw [concurs_alone, hb] at hconcurs
    exact hcharged hconcurs

end

/-! ## Command lines -/

section

variable {κ : Type} (ssl : OpenSSL κ) (rhsFirst : ℕ → Bool) (exec : CString → Bytes → Bytes)
variable (program : CString) (n : ℕ) (seed : UInt64)

def BackendArg.spawned (arg : BackendArg) (vectors : List Emitted) : Backend :=
  ⟨arg.name, exec arg.path (requestFile vectors)⟩

theorem spawnAll_args (requests : Bytes) (args : List BackendArg) :
    spawnAll exec requests (args.map BackendArg.text) =
      .ok (args.map fun arg => ⟨arg.name, exec arg.path requests⟩) := by
  induction args with
  | nil => rfl
  | cons arg rest ih =>
      have hsplit : splitOnce 61 arg.text = some (arg.name, arg.path) :=
        splitOnce_append arg.name_ok arg.path
      rw [List.map_cons, spawnAll, hsplit, ih]
      rfl

theorem runnerMain_args {args : List BackendArg} (hargs : args ≠ []) :
    runnerMain ssl rhsFirst exec program n seed (args.map BackendArg.text) =
      outcome (campaignOf (genVectors ssl rhsFirst seed n)
        (args.map fun arg => arg.spawned exec (genVectors ssl rhsFirst seed n))) := by
  have hspecs : args.map BackendArg.text ≠ [] := fun h => hargs (List.map_eq_nil_iff.mp h)
  rw [runnerMain, if_neg hspecs]
  simp only [spawnAll_args]
  rfl

theorem runnerMain_status_iff {args : List BackendArg} (hargs : args ≠ []) :
    (runnerMain ssl rhsFirst exec program n seed (args.map BackendArg.text)).status = some 0 ↔
      ∀ i, ¬ (runnerMain ssl rhsFirst exec program n seed
        (args.map BackendArg.text)).Flags i := by
  rw [runnerMain_args ssl rhsFirst exec program n seed hargs]
  exact status_iff_flags _

theorem runnerMain_flags_alone {args : List BackendArg} (hargs : args ≠ []) {i : ℕ}
    (hflags : (runnerMain ssl rhsFirst exec program n seed
      (args.map BackendArg.text)).Flags i) :
    ∃ member ∈ args,
      (runnerMain ssl rhsFirst exec program n seed [member.text]).Flags i := by
  rw [runnerMain_args ssl rhsFirst exec program n seed hargs] at hflags
  rcases flags_alone _ _ hflags with ⟨backend, hmem, hbackend⟩
  rcases List.mem_map.mp hmem with ⟨member, hmember, rfl⟩
  refine ⟨member, hmember, ?_⟩
  rw [runnerMain_single]
  exact hbackend

theorem runnerMain_flags_of_alone {args : List BackendArg} (hsize : args.length ≤ 15)
    {member : BackendArg} (hmember : member ∈ args) {i : ℕ}
    (hflags : (runnerMain ssl rhsFirst exec program n seed [member.text]).Flags i) :
    (runnerMain ssl rhsFirst exec program n seed (args.map BackendArg.text)).Flags i := by
  rw [runnerMain_single] at hflags
  rw [runnerMain_args ssl rhsFirst exec program n seed (List.ne_nil_of_mem hmember)]
  apply flags_of_alone _ _ _ (List.mem_map_of_mem hmember) hflags
  rwa [List.length_map]

/-- A fleet reports the vectors its members report alone: none besides these,
and all of them while the voter arrays hold everyone.  So it succeeds when each
member alone does, and up to fifteen members only then. -/
theorem fleet_decomposes (arg : BackendArg) (more : List BackendArg) :
    let alone := fun member : BackendArg =>
      runnerMain ssl rhsFirst exec program n seed [member.text]
    let fleet := runnerMain ssl rhsFirst exec program n seed
      ((arg :: more).map BackendArg.text)
    ((∀ i, fleet.Flags i → ∃ member ∈ arg :: more, (alone member).Flags i) ∧
      ((∀ member ∈ arg :: more, (alone member).status = some 0) → fleet.status = some 0)) ∧
    ((arg :: more).length ≤ 15 →
      (∀ i, fleet.Flags i ↔ ∃ member ∈ arg :: more, (alone member).Flags i) ∧
      (fleet.status = some 0 ↔ ∀ member ∈ arg :: more, (alone member).status = some 0)) := by
  intro alone fleet
  have hargs := List.cons_ne_nil arg more
  have hsome : ∀ i, fleet.Flags i → ∃ member ∈ arg :: more, (alone member).Flags i :=
    fun i => runnerMain_flags_alone ssl rhsFirst exec program n seed hargs
  have hfleet : fleet.status = some 0 ↔ ∀ i, ¬ fleet.Flags i :=
    runnerMain_status_iff ssl rhsFirst exec program n seed hargs
  have halone : ∀ member, (alone member).status = some 0 ↔ ∀ i, ¬ (alone member).Flags i :=
    fun member => runnerMain_status_iff ssl rhsFirst exec program n seed
      (List.cons_ne_nil member [])
  have hclean : (∀ member ∈ arg :: more, (alone member).status = some 0) →
      fleet.status = some 0 := by
    intro hall
    rw [hfleet]
    intro i hflags
    rcases hsome i hflags with ⟨member, hmember, hmemberFlags⟩
    exact (halone member).mp (hall member hmember) i hmemberFlags
  constructor
  · exact ⟨hsome, hclean⟩
  · intro hsize
    have hflags : ∀ i, fleet.Flags i ↔ ∃ member ∈ arg :: more, (alone member).Flags i := by
      intro i
      constructor
      · exact hsome i
      · rintro ⟨member, hmember, hmemberFlags⟩
        exact runnerMain_flags_of_alone ssl rhsFirst exec program n seed hsize hmember
          hmemberFlags
    constructor
    · exact hflags
    · constructor
      · intro hquiet member hmember
        rw [halone]
        exact fun i hi => hfleet.mp hquiet i ((hflags i).mpr ⟨member, hmember, hi⟩)
      · exact hclean

end

def secondBackend : BackendArg := ⟨ascii "c", ascii "q", by decide⟩

/-- Of two Go bridges only the first one is a fault build. -/
def firstSpoilt (path : CString) : Bytes → Bytes :=
  SpoilBuild.go.main zeroLibrary (decide (path = ascii "p"))

theorem fleet_decomposes_spoiled :
    (runnerMain zeroSSL (fun _ => false) firstSpoilt [] 1 335
      ([soleBackend, secondBackend].map BackendArg.text)).status ≠ some 0 := by
  intro hclean
  have hfleet := fleet_decomposes zeroSSL (fun _ => false) firstSpoilt [] 1 335
    soleBackend [secondBackend]
  have halone := (hfleet.2 (by decide)).2.mp hclean soleBackend List.mem_cons_self
  have hspoilt : (runnerMain zeroSSL (fun _ => false) firstSpoilt [] 1 335
      [soleBackend.text]).status ≠ some 0 := by decide +kernel
  exact hspoilt halone

end Runner
end CMFuzz
