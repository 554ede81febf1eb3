import Mathlib.Tactic

/-!
# Streams

A stream takes a text in pieces.  A lawful stream does not see where one piece
ends and the next begins, so however a text is cut, the result is that of the
whole text.  A stream which compresses full blocks and keeps what is left for
the next piece is lawful.
-/

namespace CMFuzz

structure Stream (σ α δ : Type*) where
  init : σ
  update : σ → List α → σ
  final : σ → δ

namespace Stream

variable {σ α δ : Type*}

def digest (s : Stream σ α δ) (m : List α) : δ := s.final (s.update s.init m)

structure Lawful (s : Stream σ α δ) : Prop where
  update_nil : ∀ c, s.update c [] = c
  update_append : ∀ c a b, s.update c (a ++ b) = s.update (s.update c a) b

theorem Lawful.foldl_update {s : Stream σ α δ} (hs : s.Lawful) (c : σ) (pieces : List (List α)) :
    pieces.foldl s.update c = s.update c pieces.flatten := by
  induction pieces generalizing c with
  | nil => exact (hs.update_nil c).symm
  | cons a pieces ih =>
      rw [List.foldl_cons, ih, List.flatten_cons, hs.update_append]

/-- The pieces of `step` elements from `off` on, the last of which may be
shorter, in at most `turns` turns. -/
def piecesFrom (m : List α) (step : ℕ) : ℕ → ℕ → List (List α)
  | 0, _ => []
  | turns + 1, off =>
      if off < m.length then
        let n := if m.length - off < step then m.length - off else step
        (m.drop off).take n :: piecesFrom m step turns (off + n)
      else []

theorem flatten_piecesFrom {m : List α} {step : ℕ} (hstep : 0 < step) {turns off : ℕ}
    (hturns : m.length ≤ off + turns) : (piecesFrom m step turns off).flatten = m.drop off := by
  induction turns generalizing off with
  | zero => exact (List.drop_of_length_le hturns).symm
  | succ turns ih =>
      rw [piecesFrom]
      by_cases hoff : off < m.length
      · rw [if_pos hoff]
        dsimp only
        have hn : 0 < (if m.length - off < step then m.length - off else step) := by
          split
          · omega
          · exact hstep
        rw [List.flatten_cons, ih (by omega), ← List.drop_drop, List.take_append_drop]
      · rw [if_neg hoff]
        exact (List.drop_of_length_le (not_lt.mp hoff)).symm

/-- A loop over pieces of one size ends like a single update. -/
theorem Lawful.foldl_pieces {s : Stream σ α δ} (hs : s.Lawful) (c : σ) (m : List α) {step : ℕ}
    (hstep : 0 < step) : (piecesFrom m step m.length 0).foldl s.update c = s.update c m := by
  rw [hs.foldl_update, flatten_piecesFrom hstep (Nat.zero_add _).ge, List.drop_zero]

end Stream

/-! ## Block streams -/

structure BlockStream (β α δ : Type*) where
  size : ℕ
  size_pos : 0 < size
  start : β
  compress : β → List α → β
  finish : β → List α → δ

namespace BlockStream

variable {β α δ : Type*} (h : BlockStream β α δ)

/-- Compresses the full blocks at the front and returns what is left. -/
def intake (chain : β) (buffer : List α) : β × List α :=
  if h.size ≤ buffer.length then
    intake (h.compress chain (buffer.take h.size)) (buffer.drop h.size)
  else (chain, buffer)
termination_by buffer.length
decreasing_by
  have hpos := h.size_pos
  rw [List.length_drop]
  omega

theorem intake_full {chain : β} {buffer : List α} (hfull : h.size ≤ buffer.length) :
    h.intake chain buffer =
      h.intake (h.compress chain (buffer.take h.size)) (buffer.drop h.size) := by
  rw [BlockStream.intake, if_pos hfull]

theorem intake_short {chain : β} {buffer : List α} (hshort : buffer.length < h.size) :
    h.intake chain buffer = (chain, buffer) := by
  rw [BlockStream.intake, if_neg (not_le.mpr hshort)]

theorem intake_append (chain : β) (a b : List α) :
    h.intake chain (a ++ b) = h.intake (h.intake chain a).1 ((h.intake chain a).2 ++ b) := by
  induction chain, a using BlockStream.intake.induct (h := h) with
  | case1 chain a hfull ih =>
      have hlong : h.size ≤ (a ++ b).length := by
        rw [List.length_append]
        omega
      rw [h.intake_full hlong, List.take_append_of_le_length hfull,
        List.drop_append_of_le_length hfull, ih, h.intake_full hfull]
  | case2 chain a hshort => rw [h.intake_short (not_le.mp hshort)]

theorem intake_rest (chain : β) (a : List α) : (h.intake chain a).2.length < h.size := by
  induction chain, a using BlockStream.intake.induct (h := h) with
  | case1 chain a hfull ih =>
      rw [h.intake_full hfull]
      exact ih
  | case2 chain a hshort =>
      rw [h.intake_short (not_le.mp hshort)]
      exact not_le.mp hshort

/-- A chaining value and less than a block. -/
abbrev State := {p : β × List α // p.2.length < h.size}

def stream : Stream h.State α δ where
  init := ⟨(h.start, []), h.size_pos⟩
  update := fun c data => ⟨h.intake c.1.1 (c.1.2 ++ data), h.intake_rest _ _⟩
  final := fun c => h.finish c.1.1 c.1.2

theorem stream_lawful : h.stream.Lawful where
  update_nil c := by
    apply Subtype.ext
    show h.intake c.1.1 (c.1.2 ++ []) = c.1
    rw [List.append_nil, h.intake_short c.2]
  update_append c a b := by
    apply Subtype.ext
    show h.intake c.1.1 (c.1.2 ++ (a ++ b)) = _
    rw [← List.append_assoc, h.intake_append]
    rfl

end BlockStream

end CMFuzz
