import CMFuzz.RunAccounting

/-!
# Violations in the log

The messages of a round name the vector they are about, and there is one
exactly when the voters do not agree on that vector.
-/

namespace CMFuzz
namespace Runner

open ByteCodec
open LineStream
open Wire

variable {nb : ℕ}

def Message.vector : Message → Option ℕ
  | .verifyMismatch _ i _ _ _ => some i
  | .pairMismatch _ i _ _ _ => some i
  | .noConsensus _ i _ _ => some i
  | .minority _ i _ _ _ => some i
  | _ => none

def Outcome.Flags (o : Outcome) (i : ℕ) : Prop := ∃ m ∈ o.log, m.vector = some i

/-! ## The messages of one round -/

/-- The counters after a round on vector `i`: its messages are behind those
that were there. -/
def Reports (i : ℕ) (s s' : Counters nb) : Prop :=
  ∃ ms, s'.log = s.log ++ ms ∧ ∀ m ∈ ms, m.vector = some i

theorem Reports.refl (i : ℕ) (s : Counters nb) : Reports i s s := ⟨[], by simp, by simp⟩

theorem Reports.trans {i : ℕ} {s s' s'' : Counters nb} (h : Reports i s s')
    (h' : Reports i s' s'') : Reports i s s'' := by
  obtain ⟨ms, hlog, hms⟩ := h
  obtain ⟨ms', hlog', hms'⟩ := h'
  refine ⟨ms ++ ms', by rw [hlog', hlog, List.append_assoc], fun m hm => ?_⟩
  rcases List.mem_append.mp hm with h | h
  · exact hms m h
  · exact hms' m h

theorem reports_charge {i : ℕ} {m : Message} (hm : m.vector = some i) (s : Counters nb)
    (who : Option (Fin nb)) : Reports i s (s.charge who m) := by
  refine ⟨[m], ?_, by simpa using hm⟩
  cases who <;> rfl

theorem reports_chargeAll {i : ℕ} (guilty : Voter nb → Bool) {report : Voter nb → Message}
    (hreport : ∀ v, (report v).vector = some i) (voters : List (Voter nb))
    (s : Counters nb) : Reports i s (s.chargeAll guilty report voters) := by
  induction voters generalizing s with
  | nil => exact Reports.refl i s
  | cons v rest ih =>
      show Reports i s ((if guilty v then s.charge v.backend (report v) else s).chargeAll
        guilty report rest)
      split
      · exact (reports_charge (hreport v) s v.backend).trans (ih _)
      · exact ih s

theorem reports_step (c : Campaign nb) (i : ℕ) (s : Counters nb) :
    Reports i s (step c i s) := by
  unfold step
  split
  · exact Reports.refl i s
  · exact Reports.refl i s
  · split
    · exact reports_chargeAll _ (fun _ => rfl) _ s
    · split
      · unfold pairRound
        split
        · exact reports_charge (by rfl) s _
        · exact Reports.refl i s
      · unfold voteRound
        dsimp only
        split
        · exact Reports.refl i s
        · split
          · exact ⟨_, rfl, by simp [Message.vector]⟩
          · exact reports_chargeAll _ (fun _ => rfl) _ s

/-! ## The log of a run -/

theorem stateAt_log (c : Campaign nb) (i n : ℕ) :
    (∃ m ∈ (stateAt c n).log, m.vector = some i) ↔
      i < n ∧ (stateAt c (i + 1)).failures ≠ (stateAt c i).failures := by
  induction n with
  | zero => simp [stateAt, Counters.initial]
  | succ n ih =>
      obtain ⟨ms, hlog, hms⟩ : Reports n (stateAt c n) (stateAt c (n + 1)) :=
        reports_step c n (stateAt c n)
      have hcount := congrArg List.length hlog
      rw [List.length_append, stateAt_messages, stateAt_messages] at hcount
      have hold : (∃ m ∈ (stateAt c (n + 1)).log, m.vector = some i) ↔
          (∃ m ∈ (stateAt c n).log, m.vector = some i) ∨ i = n ∧ ms ≠ [] := by
        rw [hlog]
        constructor
        · rintro ⟨m, hm, hvector⟩
          rcases List.mem_append.mp hm with h | h
          · exact Or.inl ⟨m, h, hvector⟩
          · have hn := Option.some.inj ((hms m h).symm.trans hvector)
            exact Or.inr ⟨hn.symm, List.ne_nil_of_mem h⟩
        · rintro (⟨m, hm, hvector⟩ | ⟨rfl, hne⟩)
          · exact ⟨m, List.mem_append_left _ hm, hvector⟩
          · obtain ⟨m, hm⟩ := List.exists_mem_of_ne_nil ms hne
            exact ⟨m, List.mem_append_right _ hm, hms m hm⟩
      have hempty : ms ≠ [] ↔
          (stateAt c (n + 1)).failures ≠ (stateAt c n).failures := by
        rw [Ne, ← List.length_eq_zero_iff]
        omega
      rw [hold, ih]
      constructor
      · rintro (⟨hi, hfail⟩ | ⟨rfl, hne⟩)
        · exact ⟨by omega, hfail⟩
        · exact ⟨by omega, hempty.mp hne⟩
      · rintro ⟨hi, hfail⟩
        rcases Nat.lt_succ_iff_lt_or_eq.mp hi with hlt | rfl
        · exact Or.inl ⟨hlt, hfail⟩
        · exact Or.inr ⟨rfl, hempty.mpr hfail⟩

theorem summary_vector (c : Campaign nb) {m : Message} (hm : m ∈ summary c) :
    m.vector = none := by
  have hof : ∀ b, ∀ m ∈ summaryOf c b, m.vector = none := by
    intro b m hm
    simp only [summaryOf, List.mem_append] at hm
    rcases hm with (h | h) | h
    · rw [List.mem_singleton.mp h]
      rfl
    · split at h
      · rw [List.mem_singleton.mp h]
        rfl
      · simp at h
    · split at h
      · rw [List.mem_singleton.mp h]
        rfl
      · simp at h
  rcases List.mem_append.mp hm with h | h
  · obtain ⟨b, _, hb⟩ := List.mem_flatMap.mp h
    exact hof b m hb
  · split at h
    · rw [List.mem_singleton.mp h]
      rfl
    · simp at h

theorem outcome_log (c : Campaign nb) :
    ∃ ms, (outcome c).log = (final c).log ++ ms ∧ ∀ m ∈ ms, m.vector = none := by
  unfold outcome
  dsimp only
  split
  · exact ⟨summary c, rfl, fun m hm => summary_vector c hm⟩
  · split
    · refine ⟨summary c ++ [.diverged (final c).failures], by simp, fun m hm => ?_⟩
      rcases List.mem_append.mp hm with h | h
      · exact summary_vector c h
      · rw [List.mem_singleton.mp h]
        rfl
    · refine ⟨summary c ++ [.allAgree], by simp, fun m hm => ?_⟩
      rcases List.mem_append.mp hm with h | h
      · exact summary_vector c h
      · rw [List.mem_singleton.mp h]
        rfl

theorem flags_iff_failures (c : Campaign nb) (i : ℕ) :
    (outcome c).Flags i ↔
      i < c.N ∧ (stateAt c (i + 1)).failures ≠ (stateAt c i).failures := by
  obtain ⟨ms, hlog, hms⟩ := outcome_log c
  rw [← stateAt_log c i c.N]
  unfold Outcome.Flags
  rw [hlog]
  constructor
  · rintro ⟨m, hm, hvector⟩
    rcases List.mem_append.mp hm with h | h
    · exact ⟨m, h, hvector⟩
    · rw [hms m h] at hvector
      cases hvector
  · rintro ⟨m, hm, hvector⟩
    exact ⟨m, List.mem_append_left _ hm, hvector⟩

theorem flags_iff_not_agree {c : Campaign nb} (hfit : ∀ i, (c.answering i).card ≤ 15)
    (i : ℕ) : (outcome c).Flags i ↔ i < c.N ∧ ¬ Agree (c.op i) (c.poll i) := by
  have happ := (stateAt_applied c i).failures
  have hagree : Agree (c.op i) (c.seatedPoll i) ↔ _ :=
    agree_iff_ruling (c.none_mem_seatedPoll i)
  rw [c.seatedPoll_eq i (hfit i)] at hagree
  have hruling : c.rulingAt i = ruling (c.op i) (c.poll i) := by
    rw [Campaign.rulingAt, c.seatedPoll_eq i (hfit i)]
  rw [hruling] at happ
  have hfalse : ∀ u : Bool, u = false ↔ u.toNat = 0 := by decide
  rw [flags_iff_failures, hagree, ← Finset.card_eq_zero, hfalse]
  refine and_congr_right fun _ => ?_
  omega

end Runner
end CMFuzz
