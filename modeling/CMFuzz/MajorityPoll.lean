import Mathlib.Data.Finset.Card
import Mathlib.Data.Finset.Image
import Mathlib.Data.List.Count
import Mathlib.Tactic

/-!
# Polls, strict majorities and plurality scans

A poll is a finite set of seats with one vote for each.  The first half is
about strict majorities: at most one value has one, and neither a renaming of
the seats nor empty seats change it.  The second half is about the list
program which keeps the first value of maximal count; it finds the strict
majority whenever there is one, and its count tells whether there is one.
-/

namespace CMFuzz

structure Poll (ι α : Type*) where
  seats : Finset ι
  vote : ι → α

namespace Poll

variable {ι κ α : Type*} [DecidableEq α]

def supporters (poll : Poll ι α) (x : α) : Finset ι :=
  {v ∈ poll.seats | poll.vote v = x}

def opponents (poll : Poll ι α) (x : α) : Finset ι :=
  {v ∈ poll.seats | poll.vote v ≠ x}

def Majority (poll : Poll ι α) (x : α) : Prop :=
  poll.seats.card < 2 * (poll.supporters x).card

omit [DecidableEq α] in
def Unanimous (poll : Poll ι α) : Prop :=
  ∀ v ∈ poll.seats, ∀ w ∈ poll.seats, poll.vote v = poll.vote w

theorem mem_opponents {poll : Poll ι α} {x : α} {v : ι} :
    v ∈ poll.opponents x ↔ v ∈ poll.seats ∧ poll.vote v ≠ x := by
  simp [opponents]

theorem card_supporters_add_card_opponents (poll : Poll ι α) (x : α) :
    (poll.supporters x).card + (poll.opponents x).card = poll.seats.card :=
  Finset.card_filter_add_card_filter_not fun v => poll.vote v = x

theorem supporters_subset_opponents (poll : Poll ι α) {x y : α} (hne : x ≠ y) :
    poll.supporters x ⊆ poll.opponents y := by
  intro v hv
  simp only [supporters, Finset.mem_filter] at hv
  rw [mem_opponents, hv.2]
  exact ⟨hv.1, hne⟩

theorem Majority.unique {poll : Poll ι α} {x y : α}
    (hx : poll.Majority x) (hy : poll.Majority y) : x = y := by
  by_contra hne
  have hle := Finset.card_le_card (poll.supporters_subset_opponents hne)
  have hsum := poll.card_supporters_add_card_opponents y
  unfold Majority at hx hy
  omega

theorem Majority.exists_supporter {poll : Poll ι α} {x : α}
    (hx : poll.Majority x) : ∃ v ∈ poll.seats, poll.vote v = x := by
  have hpos : 0 < (poll.supporters x).card := by
    unfold Majority at hx
    omega
  obtain ⟨v, hv⟩ := Finset.card_pos.mp hpos
  exact ⟨v, by simpa [supporters] using hv⟩

theorem Unanimous.majority {poll : Poll ι α} (hall : poll.Unanimous)
    {v : ι} (hv : v ∈ poll.seats) : poll.Majority (poll.vote v) := by
  have hfull : poll.supporters (poll.vote v) = poll.seats := by
    apply Finset.filter_true_of_mem
    intro w hw
    exact hall w hw v hv
  have hpos : 0 < poll.seats.card := Finset.card_pos.mpr ⟨v, hv⟩
  unfold Majority
  rw [hfull]
  omega

theorem unanimous_of_opponents_eq_empty {poll : Poll ι α} {x : α}
    (hnone : poll.opponents x = ∅) : poll.Unanimous := by
  have hvote : ∀ v ∈ poll.seats, poll.vote v = x := by
    intro v hv
    by_contra hne
    have hmem : v ∈ poll.opponents x := mem_opponents.mpr ⟨hv, hne⟩
    simp [hnone] at hmem
  intro v hv w hw
  rw [hvote v hv, hvote w hw]

theorem Unanimous.opponents_eq_empty {poll : Poll ι α} (hall : poll.Unanimous)
    {x : α} (hx : poll.Majority x) : poll.opponents x = ∅ := by
  obtain ⟨v, hv, rfl⟩ := hx.exists_supporter
  apply Finset.filter_eq_empty_iff.mpr
  intro w hw
  simpa using hall w hw v hv

/-! ## Renaming seats -/

/-- The seats of `q` are those of `p`, renamed by `e`, with the same votes. -/
structure Renames (e : ι ↪ κ) (p : Poll ι α) (q : Poll κ α) : Prop where
  seats_eq : q.seats = p.seats.map e
  vote_eq : ∀ v ∈ p.seats, q.vote (e v) = p.vote v

omit [DecidableEq α] in
theorem Renames.card_seats {e : ι ↪ κ} {p : Poll ι α} {q : Poll κ α}
    (h : Renames e p q) : q.seats.card = p.seats.card := by
  rw [h.seats_eq, Finset.card_map]

omit [DecidableEq α] in
theorem Renames.filter_eq {e : ι ↪ κ} {p : Poll ι α} {q : Poll κ α}
    (h : Renames e p q) (P : α → Prop) [DecidablePred P] :
    {w ∈ q.seats | P (q.vote w)} = ({v ∈ p.seats | P (p.vote v)} : Finset ι).map e := by
  rw [h.seats_eq, Finset.filter_map]
  congr 1
  apply Finset.filter_congr
  intro v hv
  simp [h.vote_eq v hv]

theorem Renames.supporters_eq {e : ι ↪ κ} {p : Poll ι α} {q : Poll κ α}
    (h : Renames e p q) (x : α) : q.supporters x = (p.supporters x).map e :=
  h.filter_eq fun y => y = x

theorem Renames.opponents_eq {e : ι ↪ κ} {p : Poll ι α} {q : Poll κ α}
    (h : Renames e p q) (x : α) : q.opponents x = (p.opponents x).map e :=
  h.filter_eq fun y => y ≠ x

theorem Renames.majority_iff {e : ι ↪ κ} {p : Poll ι α} {q : Poll κ α}
    (h : Renames e p q) (x : α) : q.Majority x ↔ p.Majority x := by
  unfold Majority
  rw [h.supporters_eq, h.card_seats, Finset.card_map]

/-! ## Polls with a reference seat -/

def withReference [Fintype ι] (reference : α) (ballots : ι → Option α) :
    Poll (Option ι) α where
  seats := Finset.insertNone {v | (ballots v).isSome = true}
  vote := fun seat => match seat with
    | none => reference
    | some v => (ballots v).getD reference

section

variable [Fintype ι] [Fintype κ]

omit [DecidableEq α] in
theorem some_mem_withReference {reference : α} {ballots : ι → Option α} {v : ι} :
    some v ∈ (withReference reference ballots).seats ↔ (ballots v).isSome = true := by
  simp [withReference]

omit [DecidableEq α] in
/-- Renaming the voters, or adding some that abstain, renames the seats and
keeps the reference. -/
theorem withReference_renames (reference : α) (ballots : ι → Option α) (e : κ ↪ ι)
    (habstain : ∀ v, v ∉ Set.range e → ballots v = none) :
    Renames e.optionMap (withReference reference (ballots ∘ e))
      (withReference reference ballots) where
  seats_eq := by
    ext seat
    cases seat with
    | none => simp [withReference]
    | some v =>
        rw [some_mem_withReference, Finset.mem_map]
        constructor
        · intro hv
          have hrange : v ∈ Set.range e := by
            by_contra hout
            simp [habstain v hout] at hv
          obtain ⟨w, rfl⟩ := hrange
          exact ⟨some w, some_mem_withReference.mpr hv, rfl⟩
        · rintro ⟨seat, hseat, heq⟩
          cases seat with
          | none => simp at heq
          | some w =>
              obtain rfl : e w = v := by simpa using heq
              have hsome : ((ballots ∘ e) w).isSome = true :=
                some_mem_withReference.mp hseat
              exact hsome
  vote_eq seat _ := by
    cases seat <;> rfl

end

/-! ## Polls listed seat by seat -/

theorem count_map_eq_card_supporters [DecidableEq ι] (poll : Poll ι α)
    {order : List ι} (hnodup : order.Nodup) (hseats : order.toFinset = poll.seats)
    (x : α) : (order.map poll.vote).count x = (poll.supporters x).card := by
  rw [List.count, List.countP_map, List.countP_eq_length_filter,
    ← List.toFinset_card_of_nodup (hnodup.filter _)]
  congr 1
  ext v
  simp [supporters, ← hseats]

omit [DecidableEq α] in
theorem length_map_eq_card_seats [DecidableEq ι] (poll : Poll ι α)
    {order : List ι} (hnodup : order.Nodup) (hseats : order.toFinset = poll.seats) :
    (order.map poll.vote).length = poll.seats.card := by
  rw [List.length_map, ← hseats, List.toFinset_card_of_nodup hnodup]

/-! ## Plurality scans -/

/-- Scan the candidates, replacing the best one only by a strictly larger
count among all votes `xs`. -/
def scan (xs : List α) : List α → ℕ × α → ℕ × α
  | [], best => best
  | y :: ys, best =>
      scan xs ys (if best.1 < xs.count y then (xs.count y, y) else best)

def plurality (xs : List α) (start : α) : ℕ × α := scan xs xs (0, start)

theorem scan_le (xs : List α) (ys : List α) (best : ℕ × α) :
    best.1 ≤ (scan xs ys best).1 ∧ ∀ y ∈ ys, xs.count y ≤ (scan xs ys best).1 := by
  induction ys generalizing best with
  | nil => simp [scan]
  | cons y ys ih =>
      rw [scan]
      by_cases hlt : best.1 < xs.count y
      · rw [if_pos hlt]
        obtain ⟨hbest, hrest⟩ := ih (xs.count y, y)
        refine ⟨hlt.le.trans hbest, fun z hz => ?_⟩
        rcases List.mem_cons.mp hz with rfl | hz
        · exact hbest
        · exact hrest z hz
      · rw [if_neg hlt]
        obtain ⟨hbest, hrest⟩ := ih best
        refine ⟨hbest, fun z hz => ?_⟩
        rcases List.mem_cons.mp hz with rfl | hz
        · exact (Nat.le_of_not_lt hlt).trans hbest
        · exact hrest z hz

theorem scan_exact (xs : List α) {ys : List α} (hys : ∀ y ∈ ys, y ∈ xs)
    (best : ℕ × α) (hbest : best.1 = 0 ∨ (best.2 ∈ xs ∧ best.1 = xs.count best.2)) :
    (scan xs ys best).1 = 0 ∨
      ((scan xs ys best).2 ∈ xs ∧
        (scan xs ys best).1 = xs.count (scan xs ys best).2) := by
  induction ys generalizing best with
  | nil => exact hbest
  | cons y ys ih =>
      rw [scan]
      apply ih fun z hz => hys z (List.mem_cons_of_mem y hz)
      split
      · exact Or.inr ⟨hys y List.mem_cons_self, rfl⟩
      · exact hbest

theorem plurality_max (xs : List α) (start : α) {x : α} (hx : x ∈ xs) :
    xs.count x ≤ (plurality xs start).1 :=
  (scan_le xs xs (0, start)).2 x hx

theorem plurality_exact {xs : List α} (hxs : xs ≠ []) (start : α) :
    (plurality xs start).2 ∈ xs ∧
      (plurality xs start).1 = xs.count (plurality xs start).2 := by
  rcases scan_exact xs (fun y hy => hy) (0, start) (Or.inl rfl) with
    hzero | hexact
  · obtain ⟨x, hx⟩ := List.exists_mem_of_ne_nil xs hxs
    have hpos := List.count_pos_iff.mpr hx
    have hmax := plurality_max xs start hx
    unfold plurality at hmax
    omega
  · exact hexact

theorem plurality_eq_of_majority [DecidableEq ι] {poll : Poll ι α}
    {order : List ι} (hnodup : order.Nodup) (hseats : order.toFinset = poll.seats)
    (start : α) {x : α} (hx : poll.Majority x) :
    plurality (order.map poll.vote) start = ((poll.supporters x).card, x) := by
  have hcount := poll.count_map_eq_card_supporters hnodup hseats
  have hmem : x ∈ order.map poll.vote := by
    rw [← List.count_pos_iff, hcount]
    unfold Majority at hx
    omega
  obtain ⟨_, hexact⟩ := plurality_exact (List.ne_nil_of_mem hmem) start
  have hmax := plurality_max (order.map poll.vote) start hmem
  rw [hcount] at hmax hexact
  have hbest : poll.Majority (plurality (order.map poll.vote) start).2 := by
    unfold Majority at hx ⊢
    omega
  have hvalue := hbest.unique hx
  rw [hvalue] at hexact
  exact Prod.ext hexact hvalue

/-- The count of the scan exceeds half of a listed poll exactly when some
value has a strict majority. -/
theorem plurality_exceeds_half_iff [DecidableEq ι] {poll : Poll ι α}
    {order : List ι} (hnodup : order.Nodup) (hseats : order.toFinset = poll.seats)
    (hne : poll.seats.Nonempty) (start : α) :
    poll.seats.card < 2 * (plurality (order.map poll.vote) start).1 ↔
      ∃ x, poll.Majority x := by
  have hcount := poll.count_map_eq_card_supporters hnodup hseats
  constructor
  · intro hhalf
    have hlist : order.map poll.vote ≠ [] := by
      intro hnil
      have hlen := poll.length_map_eq_card_seats hnodup hseats
      rw [hnil, List.length_nil] at hlen
      exact absurd (Finset.card_pos.mpr hne) (by omega)
    obtain ⟨_, hexact⟩ := plurality_exact hlist start
    rw [hexact, hcount] at hhalf
    exact ⟨_, hhalf⟩
  · rintro ⟨x, hx⟩
    rw [plurality_eq_of_majority hnodup hseats start hx]
    exact hx

end Poll
end CMFuzz
