import Mathlib.Tactic

/-!
# Scans for the best candidate

A loop that keeps the best score so far and what it noted about it, and
replaces both only when a candidate scores strictly more.
-/

namespace CMFuzz
namespace BestScan

variable {α β γ : Type} [LinearOrder α] (score : β → α) (note : β → γ)

def step (best : α × γ) (x : β) : α × γ :=
  if best.1 < score x then (score x, note x) else best

def scan (best : α × γ) (xs : List β) : α × γ := xs.foldl (step score note) best

theorem step_fst (best : α × γ) (x : β) : (step score note best x).1 = max best.1 (score x) := by
  rw [step]
  split
  · rename_i hlt
    exact (max_eq_right hlt.le).symm
  · rename_i hle
    exact (max_eq_left (not_lt.mp hle)).symm

theorem scan_cons (best : α × γ) (x : β) (xs : List β) :
    scan score note best (x :: xs) = scan score note (step score note best x) xs := rfl

/-- The score that is kept exceeds a bound exactly when the first one or that of
some candidate does. -/
theorem lt_scan_iff (best : α × γ) (xs : List β) (bound : α) :
    bound < (scan score note best xs).1 ↔ bound < best.1 ∨ ∃ x ∈ xs, bound < score x := by
  induction xs generalizing best with
  | nil => simp [scan]
  | cons x xs ih =>
      rw [scan_cons, ih, step_fst, lt_max_iff, or_assoc, List.exists_mem_cons_iff]

theorem le_scan (best : α × γ) {xs : List β} {x : β} (hx : x ∈ xs) :
    score x ≤ (scan score note best xs).1 := by
  by_contra hlt
  have hself := (lt_scan_iff score note best xs (scan score note best xs).1).mpr
    (Or.inr ⟨x, hx, not_le.mp hlt⟩)
  exact lt_irrefl _ hself

/-- What is kept is the first candidate of the largest score, or what the scan
began with. -/
theorem scan_first (best : α × γ) (xs : List β) :
    scan score note best xs = best ∨
      ∃ before x after, xs = before ++ x :: after ∧
        scan score note best xs = (score x, note x) ∧
        best.1 < score x ∧ ∀ y ∈ before, score y < score x := by
  induction xs generalizing best with
  | nil => exact Or.inl rfl
  | cons x xs ih =>
      rw [scan_cons]
      rcases ih (step score note best x) with hkept | ⟨before, y, after, rfl, hscan, hlt, hfirst⟩
      · by_cases hx : best.1 < score x
        · right
          have hstep : step score note best x = (score x, note x) := if_pos hx
          exact ⟨[], x, xs, rfl, hkept.trans hstep, hx, fun y hy => absurd hy List.not_mem_nil⟩
        · left
          have hstep : step score note best x = best := if_neg hx
          exact hkept.trans hstep
      · right
        rw [step_fst, max_lt_iff] at hlt
        exact ⟨x :: before, y, after, rfl, hscan, hlt.1,
          List.forall_mem_cons.mpr ⟨hlt.2, hfirst⟩⟩

theorem scan_fst_congr {δ : Type} {score' : δ → α} {xs : List β} {ys : List δ} {note' : δ → γ}
    (hscores : xs.map score = ys.map score') {best best' : α × γ} (hbest : best.1 = best'.1) :
    (scan score note best xs).1 = (scan score' note' best' ys).1 := by
  induction xs generalizing ys best best' with
  | nil =>
      rw [List.map_nil, eq_comm, List.map_eq_nil_iff] at hscores
      rw [hscores]
      exact hbest
  | cons x xs ih =>
      cases ys with
      | nil => exact absurd hscores (List.cons_ne_nil _ _)
      | cons y ys =>
          rw [List.map_cons, List.map_cons, List.cons.injEq] at hscores
          rw [scan_cons, scan_cons]
          apply ih hscores.2
          rw [step_fst, step_fst, hbest, hscores.1]

end BestScan
end CMFuzz
