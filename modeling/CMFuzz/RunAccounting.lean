import CMFuzz.VoteRuling

/-!
# Accounting of a whole run

The counters at the end of a run are sums over the rulings of its vectors:
every failure is charged to a backend or to the reference, or stands for an
unresolved divergence, and has its message.  A backend is charged only where
it answered.
-/

namespace CMFuzz
namespace Runner

open ByteCodec
open LineStream
open Wire

variable {nb : ℕ}

noncomputable def Campaign.rulingAt (c : Campaign nb) (i : ℕ) : Ruling (Fin nb) :=
  ruling (c.op i) (c.seatedPoll i)

theorem stateAt_applied (c : Campaign nb) (i : ℕ) :
    (c.rulingAt i).Applied (stateAt c i) (stateAt c (i + 1)) :=
  step_applied c i (stateAt c i)

/-! ## Sums over the vectors -/

section

variable (c : Campaign nb) (n : ℕ)

theorem stateAt_sum (counter : Counters nb → ℕ) {gain : ℕ → ℕ}
    (hinitial : counter (Counters.initial nb) = 0)
    (hstep : ∀ i, counter (stateAt c (i + 1)) = counter (stateAt c i) + gain i) :
    counter (stateAt c n) = ∑ i ∈ Finset.range n, gain i := by
  induction n with
  | zero => exact hinitial
  | succ n ih => rw [hstep n, ih, Finset.sum_range_succ]

theorem stateAt_failures :
    (stateAt c n).failures =
      ∑ i ∈ Finset.range n,
        ((c.rulingAt i).charged.card + (c.rulingAt i).unresolved.toNat) := by
  apply stateAt_sum c n Counters.failures rfl
  intro i
  rw [(stateAt_applied c i).failures, Nat.add_assoc]

theorem stateAt_refOutlier :
    (stateAt c n).refOutlier =
      ∑ i ∈ Finset.range n, if none ∈ (c.rulingAt i).charged then 1 else 0 :=
  stateAt_sum c n Counters.refOutlier rfl fun i => (stateAt_applied c i).refOutlier

theorem stateAt_bdiv (b : Fin nb) :
    (stateAt c n).bdiv b =
      ∑ i ∈ Finset.range n, if some b ∈ (c.rulingAt i).charged then 1 else 0 :=
  stateAt_sum c n (fun s => s.bdiv b) rfl fun i => (stateAt_applied c i).bdiv b

theorem stateAt_noConsensus :
    (stateAt c n).log.countP Message.isNoConsensus =
      ∑ i ∈ Finset.range n, (c.rulingAt i).unresolved.toNat :=
  stateAt_sum c n (fun s => s.log.countP Message.isNoConsensus) rfl
    fun i => (stateAt_applied c i).noConsensus

theorem stateAt_messages : (stateAt c n).log.length = (stateAt c n).failures := by
  induction n with
  | zero => rfl
  | succ n ih =>
      rw [(stateAt_applied c n).messages, (stateAt_applied c n).failures, ih]

theorem card_charged (charged : Finset (Option (Fin nb))) :
    charged.card =
      (∑ b : Fin nb, if some b ∈ charged then 1 else 0) +
        if none ∈ charged then 1 else 0 := by
  have hsum : charged.card = ∑ seat : Option (Fin nb), if seat ∈ charged then 1 else 0 := by
    simp
  rw [hsum, Fintype.sum_option, Nat.add_comm]

theorem stateAt_balance :
    (stateAt c n).failures =
      (∑ b, (stateAt c n).bdiv b) + (stateAt c n).refOutlier +
        (stateAt c n).log.countP Message.isNoConsensus := by
  have hbdiv : (∑ b, (stateAt c n).bdiv b) =
      ∑ i ∈ Finset.range n, ∑ b : Fin nb,
        if some b ∈ (c.rulingAt i).charged then 1 else 0 := by
    rw [Finset.sum_comm]
    exact Finset.sum_congr rfl fun b _ => stateAt_bdiv c n b
  rw [stateAt_failures, hbdiv, stateAt_refOutlier, stateAt_noConsensus,
    ← Finset.sum_add_distrib, ← Finset.sum_add_distrib]
  exact Finset.sum_congr rfl fun i _ => by rw [card_charged]

theorem stateAt_failures_eq_zero_iff :
    (stateAt c n).failures = 0 ↔
      ∀ i < n, (c.rulingAt i).charged = ∅ ∧ (c.rulingAt i).unresolved = false := by
  rw [stateAt_failures, Finset.sum_eq_zero_iff]
  simp [Nat.add_eq_zero_iff]

end

/-! ## Bounds for one backend -/

theorem ruling_charged_subset {ι : Type} (op : ℕ) (poll : Poll (Option ι) CString) :
    (ruling op poll).charged ⊆ poll.seats := by
  unfold ruling
  split
  · exact Finset.filter_subset _ _
  · split
    · exact Finset.filter_subset _ _
    · split
      · exact Finset.filter_subset _ _
      · exact Finset.empty_subset _

theorem Campaign.answers_of_charged {c : Campaign nb} {i : ℕ} {b : Fin nb}
    (hb : some b ∈ (c.rulingAt i).charged) : c.Answers i b := by
  have hseat := ruling_charged_subset _ _ hb
  rw [Campaign.seatedPoll, Poll.some_mem_withReference] at hseat
  by_cases hin : b ∈ c.seated i
  · exact c.answers_of_seated i hin
  · simp [hin] at hseat

theorem card_filter_getD {α : Type} (p : α → Prop) [DecidablePred p] (xs : List α)
    (default : α) :
    ({i ∈ Finset.range xs.length | p (xs.getD i default)}).card = xs.countP fun x => p x := by
  have hmap : (List.range xs.length).map (fun i => xs.getD i default) = xs := by
    apply List.ext_getElem
    · simp
    · intro i hi hi'
      rw [List.getElem_map, List.getElem_range, List.getD_eq_getElem?_getD,
        List.getElem?_eq_getElem hi', Option.getD_some]
  conv_rhs => rw [← hmap, List.countP_map, List.countP_eq_length_filter]
  rfl

section

variable (c : Campaign nb) (b : Fin nb)

theorem Campaign.bprod_le : c.bprod b ≤ c.N := by
  rw [Campaign.bprod, Campaign.column, collectReplies_bprod, List.length_map]
  exact min_le_left _ _

theorem Campaign.bna_le : c.bna b ≤ c.bprod b := by
  rw [Campaign.bna, Campaign.column, collectReplies_bna]
  exact List.count_le_length

theorem Campaign.card_answered :
    ({i ∈ Finset.range c.N | c.Answers i b}).card = c.bprod b - c.bna b := by
  have hle := c.bprod_le b
  have hrange : ({i ∈ Finset.range c.N | c.Answers i b} : Finset ℕ) =
      {i ∈ Finset.range (c.column b).bo.length |
        (c.column b).bo.getD i [] ≠ ascii "NA"} := by
    ext i
    rw [Finset.mem_filter, Finset.mem_filter, Finset.mem_range, Finset.mem_range]
    constructor
    · rintro ⟨_, hi, hreply⟩
      exact ⟨hi, hreply⟩
    · rintro ⟨hi, hreply⟩
      exact ⟨lt_of_lt_of_le hi hle, hi, hreply⟩
  have hbna : c.bna b = (c.column b).bo.countP fun x => decide (x = ascii "NA") := by
    rw [Campaign.bna, Campaign.column, collectReplies_bna, List.count_eq_countP]
    exact List.countP_congr fun x _ => by rw [beq_iff_eq, decide_eq_true_eq]
  have hsum := List.length_eq_countP_add_countP (l := (c.column b).bo)
    fun x => decide (x = ascii "NA")
  rw [hrange, card_filter_getD fun x => x ≠ ascii "NA", hbna, Campaign.bprod,
    Column.bprod, hsum]
  simp

theorem bdiv_le : (final c).bdiv b ≤ c.bprod b - c.bna b := by
  rw [← c.card_answered b, final, stateAt_bdiv, ← Finset.card_filter]
  apply Finset.card_le_card
  intro i hi
  rw [Finset.mem_filter] at hi ⊢
  exact ⟨hi.1, Campaign.answers_of_charged hi.2⟩

end

/-! ## The accounts of a run -/

/-- Two SHA-256 requests: both backends outvote the reference on the first,
and one of them abstains on the second. -/
def outvotedCampaign : Campaign 2 where
  rows := [⟨0, ascii "aa"⟩, ⟨0, ascii "cc"⟩]
  backend b := ⟨ascii "b", if b = 0 then ascii "bb\ncc\n" else ascii "bb\nNA\n"⟩

structure Accounts (c : Campaign nb) : Prop where
  balance : (final c).failures =
    (∑ b, (final c).bdiv b) + (final c).refOutlier +
      (final c).log.countP Message.isNoConsensus
  bna_le : ∀ b, c.bna b ≤ c.bprod b
  bprod_le : ∀ b, c.bprod b ≤ c.N
  bdiv_le : ∀ b, (final c).bdiv b ≤ c.bprod b - c.bna b
  status : (outcome c).status = some 0 ↔ ∀ i < c.N, Agree (c.op i) (c.poll i)
  status_of_fits : (final c).failures ≤ intMax →
    (outcome c).status = some (if (final c).failures = 0 then 0 else 1)

theorem outcome_status_iff_agree {c : Campaign nb}
    (hfit : ∀ i < c.N, (c.answering i).card ≤ 15) :
    (outcome c).status = some 0 ↔ ∀ i < c.N, Agree (c.op i) (c.poll i) := by
  rw [outcome_status_eq_zero_iff, final, stateAt_failures_eq_zero_iff]
  refine forall₂_congr fun i hi => ?_
  rw [Campaign.rulingAt, ← agree_iff_ruling (c.none_mem_seatedPoll i),
    c.seatedPoll_eq i (hfit i hi)]

theorem run_accounts (c : Campaign nb) (hnb : nb ≤ 15) : Accounts c where
  balance := stateAt_balance c c.N
  bna_le := c.bna_le
  bprod_le := c.bprod_le
  bdiv_le := bdiv_le c
  status := outcome_status_iff_agree fun i _ => c.answering_card_le i hnb
  status_of_fits := outcome_status_of_le c

theorem run_accounts_outvoted : Accounts outvotedCampaign :=
  run_accounts outvotedCampaign (by decide)

end Runner
end CMFuzz
