import CMFuzz.BackendOrder

/-!
# Who is checked by a run

The voter arrays hold the reference and fifteen backends.  Every backend that
answered has a voice exactly as long as no vector is answered by more; beyond
that, a diverging backend can go unnoticed.  A backend whose output is short
is no voter on the rest of the vectors; a warning says so, but the exit
status does not.
-/

namespace CMFuzz
namespace Runner

open ByteCodec
open LineStream
open Wire

variable {nb : ℕ}

/-! ## The size of the voter arrays -/

/-- Every backend that answered a vector is a voter there, and is charged when
it stands against a strict majority. -/
structure NobodyDropped (c : Campaign nb) : Prop where
  voter : ∀ i < c.N, ∀ b, c.Answers i b → ∃ v ∈ c.voters i, v.backend = some b
  charged : ∀ i < c.N, ¬ (c.op i = 13 ∨ c.op i = 14) → 3 ≤ (c.poll i).seats.card →
    ∀ x, (c.poll i).Majority x → ∀ b, c.Answers i b → (c.column b).reply i ≠ x →
      (stateAt c (i + 1)).bdiv b = (stateAt c i).bdiv b + 1 ∧
        (outcome c).status ≠ some 0

theorem Campaign.seated_of_voter {c : Campaign nb} {i : ℕ} {b : Fin nb}
    (hb : ∃ v ∈ c.voters i, v.backend = some b) : b ∈ c.seated i := by
  obtain ⟨v, hv, hvb⟩ := hb
  rw [c.voters_eq i] at hv
  obtain ⟨seat, hseat, rfl⟩ := List.mem_map.mp hv
  rw [c.voterOf_backend i seat] at hvb
  subst hvb
  simpa [Campaign.seatOrder] using hseat

theorem Campaign.voter_of_seated {c : Campaign nb} {i : ℕ} {b : Fin nb}
    (hb : b ∈ c.seated i) : ∃ v ∈ c.voters i, v.backend = some b := by
  refine ⟨c.backendVoter i b, ?_, rfl⟩
  rw [c.voters_eq i, Campaign.seatOrder, List.map_cons]
  exact List.mem_cons_of_mem _
    (List.mem_map_of_mem (f := c.voterOf i) (List.mem_map_of_mem (f := some) hb))

theorem Campaign.card_seated_le (c : Campaign nb) (i : ℕ) :
    (c.seated i).toFinset.card ≤ 15 :=
  (List.toFinset_card_le _).trans (List.length_take_le _ _)

theorem outcome_status_of_charged {c : Campaign nb} {i : ℕ} (hi : i < c.N)
    {seat : Option (Fin nb)} (hseat : seat ∈ (c.rulingAt i).charged) :
    (outcome c).status ≠ some 0 := by
  rw [Ne, outcome_status_eq_zero_iff, final, stateAt_failures_eq_zero_iff]
  intro hnone
  rw [(hnone i hi).1] at hseat
  simp at hseat

theorem charged_of_majority {c : Campaign nb} {i : ℕ}
    (hfit : (c.answering i).card ≤ 15) (hop : ¬ (c.op i = 13 ∨ c.op i = 14))
    (hthree : 3 ≤ (c.poll i).seats.card) {x : CString} (hx : (c.poll i).Majority x)
    {b : Fin nb} (hb : c.Answers i b) (hne : (c.column b).reply i ≠ x) :
    some b ∈ (c.rulingAt i).charged := by
  have hballot : c.ballot i b = some ((c.column b).reply i) := if_pos hb
  rw [Campaign.rulingAt, c.seatedPoll_eq i hfit, ruling_majority hop (by omega) hx,
    Poll.mem_opponents, Campaign.poll, Poll.some_mem_withReference]
  exact ⟨by rw [hballot]; rfl, by simpa [Poll.withReference, hballot] using hne⟩

theorem nobodyDropped_iff (c : Campaign nb) :
    NobodyDropped c ↔ ∀ i < c.N, (c.answering i).card ≤ 15 := by
  constructor
  · intro h i hi
    have hsub : c.answering i ⊆ (c.seated i).toFinset := by
      intro b hb
      have hanswers := (c.mem_answering i).mp hb
      exact List.mem_toFinset.mpr (Campaign.seated_of_voter (h.voter i hi b hanswers))
    exact (Finset.card_le_card hsub).trans (c.card_seated_le i)
  · intro hfit
    constructor
    · intro i hi b hb
      exact Campaign.voter_of_seated ((c.mem_seated_iff i (hfit i hi) b).mpr hb)
    · intro i hi hop hthree x hx b hb hne
      have hcharged := charged_of_majority (hfit i hi) hop hthree hx hb hne
      refine ⟨?_, outcome_status_of_charged hi hcharged⟩
      rw [(stateAt_applied c i).bdiv b, if_pos hcharged]

def crowdedCampaign : Campaign 16 where
  rows := [⟨0, ascii "00"⟩]
  backend b := ⟨ascii "b", if b = 15 then ascii "ff\n" else ascii "00\n"⟩

/-- The sixteenth backend has no voice, and the run ends as a clean one. -/
theorem crowdedCampaign_drops :
    ¬ NobodyDropped crowdedCampaign ∧ (outcome crowdedCampaign).status = some 0 := by
  constructor
  · intro h
    obtain ⟨v, hv, hb⟩ := h.voter 0 (by decide) 15 (by decide)
    have hnone : ∀ v ∈ crowdedCampaign.voters 0, v.backend ≠ some 15 := by decide
    exact hnone v hv hb
  · decide

/-! ## Short output -/

structure CoverageReported (c : Campaign nb) : Prop where
  complete_or_warned : ∀ b, c.bprod b = c.N ∨
    c.bprod b < c.N ∧
      Message.producedOnly (c.bname b) (c.bprod b) c.N ∈ (outcome c).log
  complete_of_no_warning : (∀ b, Message.producedOnly (c.bname b) (c.bprod b) c.N ∉
    (outcome c).log) → ∀ b, c.bprod b = c.N
  not_voter : ∀ b i, c.bprod b ≤ i → ∀ v ∈ c.voters i, v.backend ≠ some b

theorem summary_subset_log (c : Campaign nb) {message : Message}
    (hmessage : message ∈ summary c) : message ∈ (outcome c).log := by
  have hlog : message ∈ (final c).log ++ summary c := List.mem_append_right _ hmessage
  unfold outcome
  dsimp only
  split
  · exact hlog
  · split <;> exact List.mem_append_left _ hlog

theorem coverage_reported (c : Campaign nb) : CoverageReported c := by
  have hwarned : ∀ b, c.bprod b = c.N ∨ c.bprod b < c.N ∧
      Message.producedOnly (c.bname b) (c.bprod b) c.N ∈ (outcome c).log := by
    intro b
    rcases Nat.lt_or_eq_of_le (c.bprod_le b) with hlt | heq
    · right
      refine ⟨hlt, summary_subset_log c (List.mem_append_left _ ?_)⟩
      rw [List.mem_flatMap]
      exact ⟨b, List.mem_finRange b, by simp [summaryOf, hlt]⟩
    · exact Or.inl heq
  refine ⟨hwarned, fun hsilent b => ?_, fun b i hshort v hv hb => ?_⟩
  · exact (hwarned b).resolve_right fun h => hsilent b h.2
  · have hanswers := c.answers_of_seated i (Campaign.seated_of_voter ⟨v, hv, hb⟩)
    exact absurd hanswers.1 (by omega)

def deadCampaign : Campaign 1 where
  rows := [⟨0, ascii "00"⟩]
  backend _ := ⟨ascii "b", []⟩

theorem deadCampaign_succeeds :
    (outcome deadCampaign).status = some 0 ∧
      Message.allAgree ∈ (outcome deadCampaign).log ∧
      deadCampaign.bprod 0 = 0 ∧ deadCampaign.N = 1 := by
  decide

end Runner
end CMFuzz
