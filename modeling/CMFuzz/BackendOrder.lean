import CMFuzz.VoteExactness

/-!
# Order of the backends and abstainers

Embedding the backends of a campaign among others that never vote changes
neither the failures nor the exit status, and carries every counter of a
backend along.  Listing the backends in another order and inserting an
abstainer are two such embeddings.
-/

namespace CMFuzz
namespace Runner

open ByteCodec
open LineStream
open Wire

variable {m n : ℕ}

/-! ## Embedded campaigns -/

/-- The backends of `d` are among those of `c`, on the same vectors, and no
other backend of `c` votes. -/
structure Embeds (e : Fin m ↪ Fin n) (d : Campaign m) (c : Campaign n) : Prop where
  rows_eq : d.rows = c.rows
  backend_eq : ∀ b, d.backend b = c.backend (e b)
  abstain : ∀ b, b ∉ Set.range e → ∀ i < c.N, c.ballot i b = none

namespace Embeds

variable {e : Fin m ↪ Fin n} {d : Campaign m} {c : Campaign n} (h : Embeds e d c)

include h

theorem N_eq : d.N = c.N := congrArg List.length h.rows_eq

theorem op_eq (i : ℕ) : d.op i = c.op i := by
  rw [Campaign.op, Campaign.op, h.rows_eq]

theorem column_eq (b : Fin m) : d.column b = c.column (e b) := by
  rw [Campaign.column, Campaign.column, h.rows_eq, h.backend_eq b]

theorem answers_iff (i : ℕ) (b : Fin m) : d.Answers i b ↔ c.Answers i (e b) := by
  simp only [Campaign.Answers, Campaign.bprod, h.column_eq b]

theorem ballot_eq (i : ℕ) : d.ballot i = c.ballot i ∘ e := by
  funext b
  have hiff := h.answers_iff i b
  rw [Function.comp_apply, Campaign.ballot, Campaign.ballot, h.column_eq b]
  by_cases hanswers : c.Answers i (e b)
  · rw [if_pos hanswers, if_pos (hiff.mpr hanswers)]
  · rw [if_neg hanswers, if_neg fun hd => hanswers (hiff.mp hd)]

theorem poll_renames {i : ℕ} (hi : i < c.N) :
    Poll.Renames e.optionMap (d.poll i) (c.poll i) := by
  have hren := Poll.withReference_renames (c.refhex i) (c.ballot i) e
    fun b hb => h.abstain b hb i hi
  rw [← h.ballot_eq i] at hren
  have href : d.refhex i = c.refhex i := by
    rw [Campaign.refhex, Campaign.refhex, h.op_eq i, h.rows_eq]
  rw [Campaign.poll, Campaign.poll, href]
  exact hren

theorem answering_card_le {i : ℕ} (hi : i < c.N) :
    (c.answering i).card ≤ (d.answering i).card := by
  have hsub : c.answering i ⊆ (d.answering i).map e := by
    intro b hb
    have hanswers := (c.mem_answering i).mp hb
    have hrange : b ∈ Set.range e := by
      by_contra hout
      have hnone := h.abstain b hout i hi
      rw [Campaign.ballot, if_pos hanswers] at hnone
      simp at hnone
    obtain ⟨a, rfl⟩ := hrange
    rw [Finset.mem_map' e, d.mem_answering i]
    exact (h.answers_iff i a).mpr hanswers
  exact (Finset.card_le_card hsub).trans (Finset.card_map e).le

theorem rulingAt_eq (hm : m ≤ 15) {i : ℕ} (hi : i < c.N) :
    c.rulingAt i =
      ⟨(d.rulingAt i).charged.map e.optionMap, (d.rulingAt i).unresolved⟩ := by
  have hd := d.answering_card_le i hm
  have hc := (h.answering_card_le hi).trans hd
  rw [Campaign.rulingAt, Campaign.rulingAt, c.seatedPoll_eq i hc, d.seatedPoll_eq i hd,
    h.op_eq i]
  exact ruling_renames (c.op i) (d.none_mem_poll i) (h.poll_renames hi)

theorem mem_charged_iff (hm : m ≤ 15) {i : ℕ} (hi : i < c.N) (seat : Option (Fin m)) :
    e.optionMap seat ∈ (c.rulingAt i).charged ↔ seat ∈ (d.rulingAt i).charged := by
  rw [h.rulingAt_eq hm hi]
  exact Finset.mem_map' e.optionMap

theorem failures_eq (hm : m ≤ 15) : (final c).failures = (final d).failures := by
  rw [final, final, stateAt_failures, stateAt_failures, h.N_eq]
  apply Finset.sum_congr rfl
  intro i hi
  rw [h.rulingAt_eq hm (Finset.mem_range.mp hi), Finset.card_map]

theorem refOutlier_eq (hm : m ≤ 15) : (final c).refOutlier = (final d).refOutlier := by
  rw [final, final, stateAt_refOutlier, stateAt_refOutlier, h.N_eq]
  apply Finset.sum_congr rfl
  intro i hi
  have hmem : none ∈ (c.rulingAt i).charged ↔ none ∈ (d.rulingAt i).charged :=
    h.mem_charged_iff hm (Finset.mem_range.mp hi) none
  simp only [hmem]

theorem bdiv_eq (hm : m ≤ 15) (b : Fin m) :
    (final c).bdiv (e b) = (final d).bdiv b := by
  rw [final, final, stateAt_bdiv, stateAt_bdiv, h.N_eq]
  apply Finset.sum_congr rfl
  intro i hi
  have hmem : some (e b) ∈ (c.rulingAt i).charged ↔ some b ∈ (d.rulingAt i).charged :=
    h.mem_charged_iff hm (Finset.mem_range.mp hi) (some b)
  simp only [hmem]

theorem status_eq (hm : m ≤ 15) : (outcome c).status = (outcome d).status := by
  unfold outcome
  simp only [h.failures_eq hm]
  split
  · rfl
  · split <;> rfl

end Embeds

/-! ## Reordering and inserting -/

variable {nb : ℕ}

def Campaign.reorder (c : Campaign nb) (order : Equiv.Perm (Fin nb)) : Campaign nb :=
  { c with backend := fun b => c.backend (order b) }

def Campaign.insert (c : Campaign nb) (p : Fin (nb + 1)) (extra : Backend) :
    Campaign (nb + 1) where
  rows := c.rows
  backend := @Fin.insertNth nb (fun _ => Backend) p extra c.backend

/-- Whatever the backend answers within the run is `"NA"`. -/
def Campaign.Abstains (c : Campaign nb) (extra : Backend) : Prop :=
  ∀ line ∈ (lines 10 extra.stdout).take c.N, stripReply line = ascii "NA"

theorem Campaign.reorder_embeds (c : Campaign nb) (order : Equiv.Perm (Fin nb)) :
    Embeds order.toEmbedding (c.reorder order) c where
  rows_eq := rfl
  backend_eq _ := rfl
  abstain b hb := absurd (order.surjective b) hb

theorem Campaign.insert_embeds (c : Campaign nb) (p : Fin (nb + 1)) {extra : Backend}
    (hextra : c.Abstains extra) : Embeds p.succAboveEmb c (c.insert p extra) where
  rows_eq := rfl
  backend_eq b := by simp [Campaign.insert]
  abstain b hb i hi := by
    have hp : b = p := by
      by_contra hne
      obtain ⟨a, ha⟩ := Fin.exists_succAbove_eq hne
      exact hb ⟨a, ha⟩
    subst hp
    rw [Campaign.ballot_eq_rawBallot hi, Campaign.rawBallot]
    have hbackend : (c.insert b extra).backend b = extra := by simp [Campaign.insert]
    rw [hbackend]
    cases hline : (lines 10 extra.stdout)[i]? with
    | none => rfl
    | some line =>
        have hmem : line ∈ (lines 10 extra.stdout).take c.N := by
          have hi' : i < c.N := hi
          apply List.mem_of_getElem? (i := i)
          rw [List.getElem?_take_of_lt hi', hline]
        rw [Option.bind_some, if_pos (hextra line hmem)]
        rfl

structure OrderFree (c : Campaign nb) : Prop where
  reorder : ∀ order : Equiv.Perm (Fin nb),
    (final (c.reorder order)).failures = (final c).failures ∧
    (final (c.reorder order)).refOutlier = (final c).refOutlier ∧
    (outcome (c.reorder order)).status = (outcome c).status ∧
    ∀ b, (final (c.reorder order)).bdiv b = (final c).bdiv (order b) ∧
      (c.reorder order).bna b = c.bna (order b) ∧
      (c.reorder order).bprod b = c.bprod (order b)
  insert : ∀ (p : Fin (nb + 1)) (extra : Backend), c.Abstains extra →
    (final (c.insert p extra)).failures = (final c).failures ∧
    (final (c.insert p extra)).refOutlier = (final c).refOutlier ∧
    (outcome (c.insert p extra)).status = (outcome c).status ∧
    ∀ b, (final (c.insert p extra)).bdiv (p.succAbove b) = (final c).bdiv b

theorem verdict_order_free (c : Campaign nb) (hnb : nb ≤ 15) : OrderFree c where
  reorder order := by
    have h := c.reorder_embeds order
    exact ⟨(h.failures_eq hnb).symm, (h.refOutlier_eq hnb).symm, (h.status_eq hnb).symm,
      fun b => ⟨(h.bdiv_eq hnb b).symm, rfl, rfl⟩⟩
  insert p extra hextra := by
    have h := c.insert_embeds p hextra
    exact ⟨h.failures_eq hnb, h.refOutlier_eq hnb, h.status_eq hnb,
      fun b => h.bdiv_eq hnb b⟩

theorem verdict_order_free_outvoted : OrderFree outvotedCampaign :=
  verdict_order_free outvotedCampaign (by decide)

end Runner
end CMFuzz
