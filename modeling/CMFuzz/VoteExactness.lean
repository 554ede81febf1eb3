import CMFuzz.RunAccounting

/-!
# Exactness of the vote on one vector

The effect of one vector on the counters, in terms of the lines the backends
wrote.  With at most fifteen backends and no reply cut at its buffer, the
voters are the reference and everybody who did not answer `"NA"`.
-/

namespace CMFuzz
namespace Runner

open ByteCodec
open LineStream
open Wire

variable {nb : ℕ}

/-! ## Ballots as they were written -/

namespace Campaign

variable (c : Campaign nb) (i : ℕ)

/-- The reply of backend `b` to vector `i`, folded for X25519, unless it wrote
none or abstained. -/
def rawBallot (b : Fin nb) : Option CString :=
  ((lines 10 (c.backend b).stdout)[i]?).bind fun line =>
    if stripReply line = ascii "NA" then none
    else some (foldOp (c.op i) (stripReply line))

def rawPoll : Poll (Option (Fin nb)) CString :=
  .withReference (c.refhex i) (c.rawBallot i)

def ShortReplies : Prop :=
  ∀ b, ∀ line ∈ (lines 10 (c.backend b).stdout).take c.N,
    (stripReply line).length < 8300

variable {c i}

theorem ballot_eq_rawBallot (hi : i < c.N) (b : Fin nb) :
    c.ballot i b = (c.rawBallot i b).map fun reply => reply.take replyCap := by
  have hop : (c.rows.map Row.op)[i]? = some (c.op i) := by
    have hrow : c.rows[i]? = some c.rows[i] := List.getElem?_eq_getElem hi
    rw [List.getElem?_map, hrow, Option.map_some, op, List.getD_eq_getElem?_getD, hrow,
      Option.getD_some]
  have hbprod : c.bprod b = min c.N (lines 10 (c.backend b).stdout).length := by
    rw [bprod, column, collectReplies_bprod, List.length_map]
    rfl
  unfold ballot rawBallot
  by_cases hline : i < (lines 10 (c.backend b).stdout).length
  · have hget := List.getElem?_eq_getElem hline
    have hreply : (c.column b).reply i = _ := collectReplies_reply hop hget
    have hanswers : c.Answers i b ↔
        stripReply (lines 10 (c.backend b).stdout)[i] ≠ ascii "NA" := by
      unfold Answers
      rw [hreply, Ne, storeReply_fst]
      exact and_iff_right (by omega)
    rw [hget, Option.bind_some]
    by_cases hna : stripReply (lines 10 (c.backend b).stdout)[i] = ascii "NA"
    · rw [if_neg fun h => hanswers.mp h hna, if_pos hna]
      rfl
    · rw [if_pos (hanswers.mpr hna), if_neg hna, hreply, storeReply_of_ne _ hna]
      rfl
  · have hanswers : ¬ c.Answers i b := fun h => hline (by have := h.1; omega)
    rw [if_neg hanswers, List.getElem?_eq_none (by omega)]
    rfl

theorem poll_eq_rawPoll (hshort : c.ShortReplies) (hi : i < c.N) :
    c.poll i = c.rawPoll i := by
  unfold poll rawPoll
  congr 1
  funext b
  rw [ballot_eq_rawBallot hi]
  unfold rawBallot
  cases hget : (lines 10 (c.backend b).stdout)[i]? with
  | none => rfl
  | some line =>
      have hread : ((lines 10 (c.backend b).stdout).take c.N)[i]? = some line := by
        rw [List.getElem?_take_of_lt hi, hget]
      have hlen := hshort b line (List.mem_of_getElem? hread)
      have hfold := foldOp_length_le (c.op i) (stripReply line)
      rw [Option.bind_some]
      split
      · rfl
      · rw [Option.map_some, List.take_of_length_le]
        simp only [replyCap]
        omega

end Campaign

/-! ## One vector -/

theorem step_alone {c : Campaign nb} {i : ℕ} (halone : ∀ b, c.ballot i b = none)
    (s : Counters nb) : step c i s = s := by
  have hseated : c.seated i = [] := by
    rw [List.eq_nil_iff_forall_not_mem]
    intro b hb
    have hballot := halone b
    rw [Campaign.ballot, if_pos (c.answers_of_seated i hb)] at hballot
    simp at hballot
  have hvoters : c.voters i = [c.refVoter i] := by
    rw [c.voters_eq i, Campaign.seatOrder, hseated]
    rfl
  rw [step, hvoters]

structure VoteExact (c : Campaign nb) (i : ℕ) (before after : Counters nb) : Prop where
  verify : c.op i = 13 ∨ c.op i = 14 →
    (∀ b, after.bdiv b = before.bdiv b +
      if ∃ reply ∈ c.rawBallot i b, accepts reply ≠ accepts (c.refhex i) then 1 else 0) ∧
    after.failures = before.failures +
      ({b | ∃ reply ∈ c.rawBallot i b, accepts reply ≠ accepts (c.refhex i)} :
        Finset (Fin nb)).card ∧
    after.refOutlier = before.refOutlier
  pair : ¬ (c.op i = 13 ∨ c.op i = 14) → (c.rawPoll i).seats.card = 2 →
    (∀ b, after.bdiv b = before.bdiv b +
      if ∃ reply ∈ c.rawBallot i b, reply ≠ c.refhex i then 1 else 0) ∧
    after.failures = before.failures +
      ({b | ∃ reply ∈ c.rawBallot i b, reply ≠ c.refhex i} : Finset (Fin nb)).card ∧
    after.refOutlier = before.refOutlier
  majority : ¬ (c.op i = 13 ∨ c.op i = 14) → 3 ≤ (c.rawPoll i).seats.card →
    ∀ x, (c.rawPoll i).Majority x →
      (∀ b, after.bdiv b = before.bdiv b +
        if ∃ reply ∈ c.rawBallot i b, reply ≠ x then 1 else 0) ∧
      after.failures = before.failures + ((c.rawPoll i).opponents x).card ∧
      after.refOutlier = before.refOutlier + if c.refhex i ≠ x then 1 else 0
  split : ¬ (c.op i = 13 ∨ c.op i = 14) → 3 ≤ (c.rawPoll i).seats.card →
    (¬ ∃ x, (c.rawPoll i).Majority x) →
      after.failures = before.failures + 1 ∧ after.bdiv = before.bdiv ∧
        after.refOutlier = before.refOutlier
  alone : (∀ b, c.rawBallot i b = none) → after = before
  folded : c.op i = 12 → ∀ x y, foldOp (c.op i) x = foldOp (c.op i) y ↔
    x = y ∨ (x = ascii "ERR" ∨ x = zeroSecret) ∧ (y = ascii "ERR" ∨ y = zeroSecret)

theorem some_mem_filter_rawPoll (c : Campaign nb) (i : ℕ) (guilty : CString → Prop)
    [DecidablePred guilty] (b : Fin nb) :
    some b ∈ ({v ∈ (c.rawPoll i).seats | guilty ((c.rawPoll i).vote v)} :
        Finset (Option (Fin nb))) ↔ ∃ reply ∈ c.rawBallot i b, guilty reply := by
  rw [Finset.mem_filter, Campaign.rawPoll, Poll.some_mem_withReference]
  cases hballot : c.rawBallot i b with
  | none => simp
  | some reply => simp [Poll.withReference, hballot]

theorem card_filter_rawPoll (c : Campaign nb) (i : ℕ) (guilty : CString → Prop)
    [DecidablePred guilty] (href : ¬ guilty (c.refhex i)) :
    ({v ∈ (c.rawPoll i).seats | guilty ((c.rawPoll i).vote v)} :
        Finset (Option (Fin nb))).card =
      ({b | ∃ reply ∈ c.rawBallot i b, guilty reply} : Finset (Fin nb)).card := by
  have hseats : ({v ∈ (c.rawPoll i).seats | guilty ((c.rawPoll i).vote v)} :
      Finset (Option (Fin nb))) =
      ({b | ∃ reply ∈ c.rawBallot i b, guilty reply} : Finset (Fin nb)).map
        Function.Embedding.some := by
    ext seat
    cases seat with
    | none =>
        have hvote : (c.rawPoll i).vote none = c.refhex i := rfl
        simp [hvote, href]
    | some b =>
        rw [some_mem_filter_rawPoll]
        simp
  rw [hseats, Finset.card_map]

theorem applied_filter {c : Campaign nb} {i : ℕ} (guilty : CString → Prop)
    [DecidablePred guilty] {before after : Counters nb}
    (happ : Ruling.Applied
      ⟨{v ∈ (c.rawPoll i).seats | guilty ((c.rawPoll i).vote v)}, false⟩ before after) :
    (∀ b, after.bdiv b = before.bdiv b +
      if ∃ reply ∈ c.rawBallot i b, guilty reply then 1 else 0) ∧
    after.refOutlier = before.refOutlier + if guilty (c.refhex i) then 1 else 0 := by
  have href : none ∈ (c.rawPoll i).seats := by simp [Campaign.rawPoll, Poll.withReference]
  refine ⟨fun b => ?_, ?_⟩
  · rw [happ.bdiv b]
    simp only [some_mem_filter_rawPoll]
  · have hvote : (c.rawPoll i).vote none = c.refhex i := rfl
    rw [happ.refOutlier]
    simp only [Finset.mem_filter, href, hvote, true_and]

/-- A ruling that spares the reference charges backends only. -/
theorem applied_filter_backends {c : Campaign nb} {i : ℕ} (guilty : CString → Prop)
    [DecidablePred guilty] (href : ¬ guilty (c.refhex i)) {before after : Counters nb}
    (happ : Ruling.Applied
      ⟨{v ∈ (c.rawPoll i).seats | guilty ((c.rawPoll i).vote v)}, false⟩ before after) :
    (∀ b, after.bdiv b = before.bdiv b +
      if ∃ reply ∈ c.rawBallot i b, guilty reply then 1 else 0) ∧
    after.failures = before.failures +
      ({b | ∃ reply ∈ c.rawBallot i b, guilty reply} : Finset (Fin nb)).card ∧
    after.refOutlier = before.refOutlier := by
  obtain ⟨hbdiv, houtlier⟩ := applied_filter guilty happ
  rw [if_neg href] at houtlier
  refine ⟨hbdiv, ?_, houtlier⟩
  rw [happ.failures, card_filter_rawPoll c i guilty href]
  rfl

theorem vote_exact (c : Campaign nb) (hnb : nb ≤ 15) (hshort : c.ShortReplies)
    {i : ℕ} (hi : i < c.N) : VoteExact c i (stateAt c i) (stateAt c (i + 1)) := by
  have hpoll : c.seatedPoll i = c.rawPoll i :=
    (c.seatedPoll_eq i (c.answering_card_le i hnb)).trans
      (Campaign.poll_eq_rawPoll hshort hi)
  have happ := stateAt_applied c i
  rw [Campaign.rulingAt, hpoll] at happ
  have hvote : (c.rawPoll i).vote none = c.refhex i := rfl
  constructor
  case verify =>
    intro hop
    rw [ruling_verify hop, hvote] at happ
    exact applied_filter_backends (fun x => accepts x ≠ accepts (c.refhex i)) (by simp) happ
  case pair =>
    intro hop htwo
    rw [ruling_pair hop htwo, hvote] at happ
    exact applied_filter_backends (fun x => x ≠ c.refhex i) (by simp) happ
  case majority =>
    intro hop hthree x hx
    rw [ruling_majority hop (by omega) hx] at happ
    obtain ⟨hbdiv, href⟩ := applied_filter (fun y => y ≠ x) happ
    exact ⟨hbdiv, happ.failures, href⟩
  case split =>
    intro hop hthree hmaj
    rw [ruling_unresolved hop (by omega) hmaj] at happ
    refine ⟨happ.failures, ?_, happ.refOutlier⟩
    funext b
    exact happ.bdiv b
  case alone =>
    intro halone
    refine step_alone (fun b => ?_) _
    rw [Campaign.ballot_eq_rawBallot hi, halone b]
    rfl
  case folded =>
    intro hop x y
    simpa [foldOp, hop] using x25519Normalize_eq_iff x y

theorem vote_exact_outvoted :
    VoteExact outvotedCampaign 0 (stateAt outvotedCampaign 0)
      (stateAt outvotedCampaign 1) := by
  have hshort : outvotedCampaign.ShortReplies := by
    unfold Campaign.ShortReplies
    decide
  exact vote_exact outvotedCampaign (by decide) hshort (by decide)

end Runner
end CMFuzz
