import CMFuzz.VoteOracle

/-!
# Rulings of the oracle

What the oracle decides on a vector, said without voter arrays and loops: a
ruling charges a set of seats, or leaves a divergence unresolved.  The step
of the oracle applies the ruling on the seated poll, in which at most fifteen
backends find a place; when no more than fifteen answered, this is the poll
of all of them.
-/

namespace CMFuzz
namespace Runner

open ByteCodec
open Wire

/-! ## Rulings -/

structure Ruling (ι : Type) where
  charged : Finset (Option ι)
  unresolved : Bool

variable {ι κ : Type}

open Classical in
/-- Verify ops are ruled by the accept bit of the reference, two voters by the
reference, and more by a strict majority. -/
noncomputable def ruling (op : ℕ) (poll : Poll (Option ι) CString) : Ruling ι :=
  if op = 13 ∨ op = 14 then
    ⟨{v ∈ poll.seats | accepts (poll.vote v) ≠ accepts (poll.vote none)}, false⟩
  else if poll.seats.card = 2 then ⟨poll.opponents (poll.vote none), false⟩
  else if hmaj : ∃ x, poll.Majority x then ⟨poll.opponents hmaj.choose, false⟩
  else ⟨∅, true⟩

theorem ruling_verify {op : ℕ} (hop : op = 13 ∨ op = 14)
    (poll : Poll (Option ι) CString) :
    ruling op poll =
      ⟨{v ∈ poll.seats | accepts (poll.vote v) ≠ accepts (poll.vote none)}, false⟩ :=
  if_pos hop

theorem ruling_pair {op : ℕ} (hop : ¬ (op = 13 ∨ op = 14))
    {poll : Poll (Option ι) CString} (htwo : poll.seats.card = 2) :
    ruling op poll = ⟨poll.opponents (poll.vote none), false⟩ := by
  rw [ruling, if_neg hop, if_pos htwo]

theorem ruling_majority {op : ℕ} (hop : ¬ (op = 13 ∨ op = 14))
    {poll : Poll (Option ι) CString} (htwo : poll.seats.card ≠ 2) {x : CString}
    (hx : poll.Majority x) : ruling op poll = ⟨poll.opponents x, false⟩ := by
  have hmaj : ∃ x, poll.Majority x := ⟨x, hx⟩
  rw [ruling, if_neg hop, if_neg htwo, dif_pos hmaj,
    hmaj.choose_spec.unique hx]

theorem ruling_unresolved {op : ℕ} (hop : ¬ (op = 13 ∨ op = 14))
    {poll : Poll (Option ι) CString} (htwo : poll.seats.card ≠ 2)
    (hmaj : ¬ ∃ x, poll.Majority x) : ruling op poll = ⟨∅, true⟩ := by
  rw [ruling, if_neg hop, if_neg htwo, dif_neg hmaj]

def Agree (op : ℕ) (poll : Poll (Option ι) CString) : Prop :=
  if op = 13 ∨ op = 14 then
    ∀ v ∈ poll.seats, accepts (poll.vote v) = accepts (poll.vote none)
  else poll.Unanimous

theorem agree_iff_ruling {op : ℕ} {poll : Poll (Option ι) CString}
    (href : none ∈ poll.seats) :
    Agree op poll ↔
      (ruling op poll).charged = ∅ ∧ (ruling op poll).unresolved = false := by
  unfold Agree
  by_cases hop : op = 13 ∨ op = 14
  · rw [if_pos hop, ruling_verify hop]
    simp [Finset.filter_eq_empty_iff]
  · rw [if_neg hop]
    by_cases htwo : poll.seats.card = 2
    · rw [ruling_pair hop htwo]
      simp only [and_true]
      constructor
      · intro hall
        exact hall.opponents_eq_empty (hall.majority href)
      · exact Poll.unanimous_of_opponents_eq_empty
    · by_cases hmaj : ∃ x, poll.Majority x
      · obtain ⟨x, hx⟩ := hmaj
        rw [ruling_majority hop htwo hx]
        simp only [and_true]
        exact ⟨fun hall => hall.opponents_eq_empty hx,
          Poll.unanimous_of_opponents_eq_empty⟩
      · rw [ruling_unresolved hop htwo hmaj]
        refine iff_of_false (fun hall => hmaj ⟨_, hall.majority href⟩) ?_
        simp

theorem agree_withReference_iff [Fintype ι] (op : ℕ) (reference : CString)
    (ballots : ι → Option CString) :
    Agree op (.withReference reference ballots) ↔
      ∀ b, ∀ reply ∈ ballots b,
        if op = 13 ∨ op = 14 then accepts reply = accepts reference
        else reply = reference := by
  have hvote : ∀ {b reply}, reply ∈ ballots b →
      (Poll.withReference reference ballots).vote (some b) = reply := by
    intro b reply hreply
    have hsome : ballots b = some reply := hreply
    simp [Poll.withReference, hsome]
  have hseat : ∀ {b reply}, reply ∈ ballots b →
      some b ∈ (Poll.withReference reference ballots).seats := by
    intro b reply hreply
    have hsome : ballots b = some reply := hreply
    simp [Poll.some_mem_withReference, hsome]
  have href : none ∈ (Poll.withReference reference ballots).seats := by
    simp [Poll.withReference]
  unfold Agree
  by_cases hop : op = 13 ∨ op = 14
  · simp only [if_pos hop]
    constructor
    · intro hall b reply hreply
      have hb := hall (some b) (hseat hreply)
      rwa [hvote hreply] at hb
    · intro hall seat hmem
      cases seat with
      | none => rfl
      | some b =>
          obtain ⟨reply, hreply⟩ :=
            Option.isSome_iff_exists.mp (Poll.some_mem_withReference.mp hmem)
          rw [hvote hreply]
          exact hall b reply hreply
  · simp only [if_neg hop]
    constructor
    · intro hall b reply hreply
      have hb := hall (some b) (hseat hreply) none href
      rwa [hvote hreply] at hb
    · intro hall
      have hsame : ∀ seat ∈ (Poll.withReference reference ballots).seats,
          (Poll.withReference reference ballots).vote seat = reference := by
        intro seat hmem
        cases seat with
        | none => rfl
        | some b =>
            obtain ⟨reply, hreply⟩ :=
              Option.isSome_iff_exists.mp (Poll.some_mem_withReference.mp hmem)
            rw [hvote hreply]
            exact hall b reply hreply
      intro v hv w hw
      rw [hsame v hv, hsame w hw]

theorem ruling_alone {op : ℕ} {poll : Poll (Option ι) CString}
    (halone : poll.seats = {none}) : ruling op poll = ⟨∅, false⟩ := by
  have hagree : Agree op poll := by
    unfold Agree
    split
    · intro v hv
      rw [halone, Finset.mem_singleton] at hv
      rw [hv]
    · intro v hv w hw
      rw [halone, Finset.mem_singleton] at hv hw
      rw [hv, hw]
  obtain ⟨hcharged, hresolved⟩ := (agree_iff_ruling (by simp [halone])).mp hagree
  cases hruling : ruling op poll with
  | mk charged unresolved =>
      rw [hruling] at hcharged hresolved
      exact congrArg₂ Ruling.mk hcharged hresolved

theorem ruling_renames (op : ℕ) {e : ι ↪ κ} {p : Poll (Option ι) CString}
    {q : Poll (Option κ) CString} (href : none ∈ p.seats)
    (h : Poll.Renames e.optionMap p q) :
    ruling op q = ⟨(ruling op p).charged.map e.optionMap, (ruling op p).unresolved⟩ := by
  have hnone : q.vote none = p.vote none := h.vote_eq none href
  by_cases hop : op = 13 ∨ op = 14
  · rw [ruling_verify hop, ruling_verify hop, hnone]
    congr 1
    exact h.filter_eq fun y => accepts y ≠ accepts (p.vote none)
  · by_cases htwo : p.seats.card = 2
    · rw [ruling_pair hop htwo, ruling_pair hop (h.card_seats.trans htwo), hnone,
        h.opponents_eq]
    · have htwo' : q.seats.card ≠ 2 := fun hq => htwo (h.card_seats.symm.trans hq)
      by_cases hmaj : ∃ x, p.Majority x
      · obtain ⟨x, hx⟩ := hmaj
        rw [ruling_majority hop htwo hx,
          ruling_majority hop htwo' ((h.majority_iff x).mpr hx), h.opponents_eq]
      · have hmaj' : ¬ ∃ x, q.Majority x :=
          fun ⟨x, hx⟩ => hmaj ⟨x, (h.majority_iff x).mp hx⟩
        rw [ruling_unresolved hop htwo hmaj, ruling_unresolved hop htwo' hmaj',
          Finset.map_empty]

/-! ## The polls of a vector -/

variable {nb : ℕ}

namespace Campaign

variable (c : Campaign nb) (i : ℕ)

def ballot (b : Fin nb) : Option CString :=
  if c.Answers i b then some ((c.column b).reply i) else none

def poll : Poll (Option (Fin nb)) CString := .withReference (c.refhex i) (c.ballot i)

/-- The backends that find a place in the voter arrays. -/
def seated : List (Fin nb) :=
  ((List.finRange nb).filter fun b => c.Answers i b).take (voterCap - 1)

def seatedPoll : Poll (Option (Fin nb)) CString :=
  .withReference (c.refhex i) fun b => if b ∈ c.seated i then c.ballot i b else none

def answering : Finset (Fin nb) := {b | c.Answers i b}

@[simp] theorem mem_answering {b : Fin nb} : b ∈ c.answering i ↔ c.Answers i b := by
  simp [answering]

theorem none_mem_poll : none ∈ (c.poll i).seats := by
  simp [poll, Poll.withReference]

theorem none_mem_seatedPoll : none ∈ (c.seatedPoll i).seats := by
  simp [seatedPoll, Poll.withReference]

theorem answers_of_seated {b : Fin nb} (hb : b ∈ c.seated i) : c.Answers i b := by
  have hmem := List.mem_of_mem_take hb
  simpa using hmem

theorem nodup_seated : (c.seated i).Nodup :=
  ((List.nodup_finRange nb).filter _).sublist (List.take_sublist _ _)

theorem length_filter_answers :
    ((List.finRange nb).filter fun b => c.Answers i b).length =
      (c.answering i).card := by
  rw [← List.toFinset_card_of_nodup ((List.nodup_finRange nb).filter _)]
  congr 1
  ext b
  simp

theorem mem_seated_iff (hfit : (c.answering i).card ≤ 15) (b : Fin nb) :
    b ∈ c.seated i ↔ c.Answers i b := by
  have hlen : ((List.finRange nb).filter fun b => c.Answers i b).length ≤
      voterCap - 1 := by
    rw [c.length_filter_answers i]
    exact hfit
  rw [seated, List.take_of_length_le hlen]
  simp

theorem seatedPoll_eq (hfit : (c.answering i).card ≤ 15) :
    c.seatedPoll i = c.poll i := by
  unfold seatedPoll poll
  congr 1
  funext b
  by_cases hb : c.Answers i b
  · rw [if_pos ((c.mem_seated_iff i hfit b).mpr hb)]
  · rw [if_neg (fun h => hb ((c.mem_seated_iff i hfit b).mp h)), ballot, if_neg hb]

theorem answering_card_le (hnb : nb ≤ 15) : (c.answering i).card ≤ 15 :=
  (Finset.card_le_univ _).trans (by simpa using hnb)

def seatOrder : List (Option (Fin nb)) := none :: (c.seated i).map some

def voterOf : Option (Fin nb) → Voter nb
  | none => c.refVoter i
  | some b => c.backendVoter i b

theorem collectVoters_eq (backends : List (Fin nb)) (voters : List (Voter nb))
    (hroom : voters.length ≤ voterCap) :
    c.collectVoters i backends voters =
      voters ++ ((backends.filter fun b => c.Answers i b).take
        (voterCap - voters.length)).map (c.backendVoter i) := by
  induction backends generalizing voters with
  | nil => simp [collectVoters]
  | cons b rest ih =>
      rw [collectVoters]
      by_cases hlt : voters.length < voterCap
      · rw [if_pos hlt]
        by_cases hb : c.Answers i b
        · have hroom' : (voters ++ [c.backendVoter i b]).length ≤ voterCap := by
            rw [List.length_append]
            exact hlt
          have hcount : voterCap - voters.length =
              voterCap - (voters ++ [c.backendVoter i b]).length + 1 := by
            rw [List.length_append, List.length_singleton]
            omega
          rw [if_pos hb, ih _ hroom', List.filter_cons_of_pos (by simpa using hb),
            hcount, List.take_succ_cons, List.map_cons, List.append_assoc]
          rfl
        · rw [if_neg hb, ih voters hroom, List.filter_cons_of_neg (by simpa using hb)]
      · have hfull : voterCap - voters.length = 0 := by omega
        rw [if_neg hlt, hfull]
        simp

theorem voters_eq : c.voters i = (c.seatOrder i).map (c.voterOf i) := by
  have hroom : [c.refVoter i].length ≤ voterCap := by simp
  rw [voters, c.collectVoters_eq i _ _ hroom, seatOrder, List.map_cons, List.map_map]
  rfl

theorem nodup_seatOrder : (c.seatOrder i).Nodup := by
  rw [seatOrder, List.nodup_cons]
  exact ⟨by simp, (c.nodup_seated i).map (Option.some_injective _)⟩

theorem toFinset_seatOrder : (c.seatOrder i).toFinset = (c.seatedPoll i).seats := by
  ext seat
  cases seat with
  | none => simp [seatOrder, c.none_mem_seatedPoll i]
  | some b =>
      rw [List.mem_toFinset, seatedPoll, Poll.some_mem_withReference]
      by_cases hb : b ∈ c.seated i
      · simp [seatOrder, hb, ballot, c.answers_of_seated i hb]
      · simp [seatOrder, hb]

theorem vote_of_mem {seat : Option (Fin nb)} (hseat : seat ∈ c.seatOrder i) :
    (c.seatedPoll i).vote seat = (c.voterOf i seat).value := by
  cases seat with
  | none => rfl
  | some b =>
      have hb : b ∈ c.seated i := by simpa [seatOrder] using hseat
      simp [seatedPoll, Poll.withReference, hb, ballot, c.answers_of_seated i hb,
        voterOf, backendVoter]

theorem voters_values :
    (c.voters i).map Voter.value = (c.seatOrder i).map (c.seatedPoll i).vote := by
  rw [c.voters_eq i, List.map_map]
  apply List.map_congr_left
  intro seat hseat
  exact (c.vote_of_mem i hseat).symm

theorem voters_length : (c.voters i).length = (c.seatedPoll i).seats.card := by
  rw [c.voters_eq i, List.length_map, ← c.toFinset_seatOrder i,
    List.toFinset_card_of_nodup (c.nodup_seatOrder i)]

end Campaign

/-! ## The step applies the ruling -/

def Message.isNoConsensus : Message → Bool
  | .noConsensus .. => true
  | _ => false

/-- The counters after a ruling: every charged seat counts once, and so does
an unresolved divergence; each failure has its message. -/
structure Ruling.Applied (r : Ruling (Fin nb)) (s s' : Counters nb) : Prop where
  failures : s'.failures = s.failures + r.charged.card + r.unresolved.toNat
  refOutlier : s'.refOutlier = s.refOutlier + if none ∈ r.charged then 1 else 0
  bdiv : ∀ b, s'.bdiv b = s.bdiv b + if some b ∈ r.charged then 1 else 0
  noConsensus : s'.log.countP Message.isNoConsensus =
    s.log.countP Message.isNoConsensus + r.unresolved.toNat
  messages : s'.log.length = s.log.length + r.charged.card + r.unresolved.toNat

theorem Ruling.applied_empty (s : Counters nb) : Ruling.Applied ⟨∅, false⟩ s s where
  failures := by simp
  refOutlier := by simp
  bdiv := by simp
  noConsensus := by simp
  messages := by simp

theorem Ruling.Applied.charge {charged : Finset (Option (Fin nb))} {s s' : Counters nb}
    {seat : Option (Fin nb)} {m : Message} (hm : m.isNoConsensus = false)
    (hnew : seat ∉ charged)
    (h : Ruling.Applied ⟨charged, false⟩ (s.charge seat m) s') :
    Ruling.Applied ⟨insert seat charged, false⟩ s s' := by
  obtain ⟨hfail, href, hdiv, hnc, hlog⟩ := h
  have hcard := Finset.card_insert_of_notMem hnew
  cases seat with
  | none =>
      simp only [Counters.charge] at hfail href hdiv hnc hlog
      refine ⟨?_, ?_, fun b => ?_, ?_, ?_⟩
      · simp only [hfail, hcard]
        omega
      · simp only [href, if_neg hnew]
        simp
      · simp [hdiv b]
      · simpa [hm] using hnc
      · simp only [hlog, hcard, List.length_append, List.length_singleton]
        omega
  | some d =>
      simp only [Counters.charge] at hfail href hdiv hnc hlog
      refine ⟨?_, ?_, fun b => ?_, ?_, ?_⟩
      · simp only [hfail, hcard]
        omega
      · simp [href]
      · rw [hdiv b]
        by_cases hb : b = d
        · subst hb
          simp [if_neg hnew]
        · simp [hb]
      · simpa [hm] using hnc
      · simp only [hlog, hcard, List.length_append, List.length_singleton]
        omega

theorem chargeAll_applied (voterOf : Option (Fin nb) → Voter nb)
    (hbackend : ∀ seat, (voterOf seat).backend = seat) (guilty : Voter nb → Bool)
    (report : Voter nb → Message) (hreport : ∀ v, (report v).isNoConsensus = false)
    {order : List (Option (Fin nb))} (hnodup : order.Nodup) (s : Counters nb) :
    Ruling.Applied ⟨{seat ∈ order.toFinset | guilty (voterOf seat)}, false⟩ s
      (s.chargeAll guilty report (order.map voterOf)) := by
  induction order generalizing s with
  | nil => exact Ruling.applied_empty s
  | cons seat order ih =>
      rw [List.nodup_cons] at hnodup
      obtain ⟨hnew, hnodup⟩ := hnodup
      rw [List.toFinset_cons, Finset.filter_insert]
      by_cases hguilty : guilty (voterOf seat) = true
      · rw [if_pos hguilty]
        have hrest := ih hnodup (s.charge seat (report (voterOf seat)))
        refine Ruling.Applied.charge (hreport (voterOf seat)) ?_ ?_
        · simp [hnew]
        · simpa [Counters.chargeAll, hguilty, hbackend seat] using hrest
      · rw [if_neg hguilty]
        simpa [Counters.chargeAll, hguilty] using ih hnodup s

namespace Campaign

variable (c : Campaign nb) (i : ℕ)

theorem voterOf_backend (seat : Option (Fin nb)) :
    (c.voterOf i seat).backend = seat := by
  cases seat <;> rfl

theorem chargeVoters_applied (guilty : CString → Bool) (report : Voter nb → Message)
    (hreport : ∀ v, (report v).isNoConsensus = false) (s : Counters nb) :
    Ruling.Applied
      ⟨{seat ∈ (c.seatedPoll i).seats | guilty ((c.seatedPoll i).vote seat)}, false⟩ s
      (s.chargeAll (fun v => guilty v.value) report (c.voters i)) := by
  have happ := chargeAll_applied (c.voterOf i) (c.voterOf_backend i)
    (fun v => guilty v.value) report hreport (c.nodup_seatOrder i) s
  have hseats : ({seat ∈ (c.seatOrder i).toFinset | guilty (c.voterOf i seat).value} :
      Finset (Option (Fin nb))) =
      {seat ∈ (c.seatedPoll i).seats | guilty ((c.seatedPoll i).vote seat)} := by
    rw [← c.toFinset_seatOrder i]
    apply Finset.filter_congr
    intro seat hseat
    rw [c.vote_of_mem i (List.mem_toFinset.mp hseat)]
  rw [hseats] at happ
  rwa [c.voters_eq i]

end Campaign

theorem chargeAll_ref {guilty : Voter nb → Bool} (ref : Voter nb)
    (href : guilty ref = false) (report : Voter nb → Message)
    (others : List (Voter nb)) (s : Counters nb) :
    s.chargeAll guilty report others = s.chargeAll guilty report (ref :: others) := by
  simp [Counters.chargeAll, href]

theorem voteRound_applied (c : Campaign nb) (i : ℕ) (s : Counters nb)
    (start : CString) (hop : ¬ (c.op i = 13 ∨ c.op i = 14))
    (htwo : (c.seatedPoll i).seats.card ≠ 2) :
    (ruling (c.op i) (c.seatedPoll i)).Applied s
      (voteRound c i s (c.voters i) start) := by
  have hseats := c.toFinset_seatOrder i
  have hpos : 0 < (c.seatedPoll i).seats.card :=
    Finset.card_pos.mpr ⟨none, c.none_mem_seatedPoll i⟩
  unfold voteRound
  rw [c.voters_values i, c.voters_length i]
  by_cases hmaj : ∃ x, (c.seatedPoll i).Majority x
  · obtain ⟨x, hx⟩ := hmaj
    rw [ruling_majority hop htwo hx,
      Poll.plurality_eq_of_majority (c.nodup_seatOrder i) hseats start hx]
    have hsum := (c.seatedPoll i).card_supporters_add_card_opponents x
    dsimp only
    split
    · have hnone : (c.seatedPoll i).opponents x = ∅ := Finset.card_eq_zero.mp (by omega)
      rw [hnone]
      exact Ruling.applied_empty s
    · have hhalf : ¬ ((c.seatedPoll i).supporters x).card * 2 ≤
          (c.seatedPoll i).seats.card := by
        unfold Poll.Majority at hx
        omega
      rw [if_neg hhalf]
      have happ := c.chargeVoters_applied i (fun y => y ≠ x)
        (fun v => .minority v.name i (c.op i) x v.value) (fun _ => rfl) s
      simpa [Poll.opponents] using happ
  · rw [ruling_unresolved hop htwo hmaj]
    have hhalf := (Poll.plurality_exceeds_half_iff (c.nodup_seatOrder i) hseats
      (Finset.card_pos.mp hpos) start).not.mpr hmaj
    dsimp only
    rw [if_neg (by omega), if_pos (by omega)]
    constructor <;> simp [Message.isNoConsensus]

theorem step_applied (c : Campaign nb) (i : ℕ) (s : Counters nb) :
    (ruling (c.op i) (c.seatedPoll i)).Applied s (step c i s) := by
  have hlen := c.voters_length i
  have hhead : ∀ ref rest, c.voters i = ref :: rest →
      (c.seatedPoll i).vote none = ref.value := by
    intro ref rest hvoters
    rw [c.voters_eq i, Campaign.seatOrder, List.map_cons] at hvoters
    exact congrArg Voter.value (List.cons.inj hvoters).1
  unfold step
  split
  · next hvoters =>
      rw [c.voters_eq i, Campaign.seatOrder, List.map_cons] at hvoters
      exact absurd hvoters (List.cons_ne_nil _ _)
  · next ref hvoters =>
      have halone : (c.seatedPoll i).seats = {none} := by
        rw [hvoters] at hlen
        exact (Finset.eq_of_subset_of_card_le
          (Finset.singleton_subset_iff.mpr (c.none_mem_seatedPoll i)) hlen.symm.le).symm
      rw [ruling_alone halone]
      exact Ruling.applied_empty s
  · next ref other more hvoters =>
      have href := hhead ref (other :: more) hvoters
      split
      · next hop =>
          rw [ruling_verify hop, verifyRound,
            chargeAll_ref ref (by simp), ← hvoters]
          have happ := c.chargeVoters_applied i (fun x => accepts x ≠ accepts ref.value)
            (fun v => .verifyMismatch v.name i (c.op i) ref.value v.value)
            (fun _ => rfl) s
          simpa [href] using happ
      · next hop =>
          split
          · next hmore =>
              subst hmore
              have htwo : (c.seatedPoll i).seats.card = 2 := by
                rw [← hlen, hvoters]
                rfl
              have hpair : pairRound c i s ref other =
                  s.chargeAll (fun v => v.value ≠ ref.value) (fun v => .pairMismatch
                    v.name i (c.op i) ref.value v.value) (c.voters i) := by
                simp [pairRound, Counters.chargeAll, hvoters]
              have happ := c.chargeVoters_applied i (fun x => x ≠ ref.value)
                (fun v => .pairMismatch v.name i (c.op i) ref.value v.value)
                (fun _ => rfl) s
              rw [ruling_pair hop htwo, hpair, href]
              simpa [Poll.opponents] using happ
          · next hmore =>
              have htwo : (c.seatedPoll i).seats.card ≠ 2 := by
                rw [← hlen, hvoters]
                have hpos := List.length_pos_iff.mpr hmore
                simp only [List.length_cons]
                omega
              rw [← hvoters]
              exact voteRound_applied c i s ref.value hop htwo

end Runner
end CMFuzz
