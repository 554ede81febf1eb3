import Mathlib.Data.List.Basic

/-!
# Tables of stages

A program goes through a table of stages.  A stage that is not there is skipped
with a line of its own; one that is there takes the state and either fails,
which ends the program, or prints its line and leaves the next state.
-/

namespace CMFuzz
namespace Stages

variable {ε σ : Type}

structure Stage (ε σ : Type) where
  absent : String
  passed : String
  run : Option (σ → Option ε × σ)

structure Session (ε : Type) where
  stdout : List String
  stderr : List String
  ran : ℕ
  failure : Option ε

namespace Session

def empty : Session ε := ⟨[], [], 0, none⟩

def skip (w : Session ε) (line : String) : Session ε := { w with stderr := w.stderr ++ [line] }

def pass (w : Session ε) (line : String) : Session ε :=
  { w with stdout := w.stdout ++ [line], ran := w.ran + 1 }

def fail (w : Session ε) (e : ε) : Session ε := { w with failure := some e }

end Session

def drive : List (Stage ε σ) → σ → Session ε → Session ε
  | [], _, w => w
  | stage :: rest, s, w =>
      match stage.run with
      | none => drive rest s (w.skip stage.absent)
      | some run =>
          match (run s).1 with
          | some e => w.fail e
          | none => drive rest (run s).2 (w.pass stage.passed)

section

variable {stage : Stage ε σ} {rest : List (Stage ε σ)} {s : σ} {w : Session ε}
  {run : σ → Option ε × σ}

theorem drive_absent (hrun : stage.run = none) :
    drive (stage :: rest) s w = drive rest s (w.skip stage.absent) := by
  rw [drive, hrun]

theorem drive_failed (hrun : stage.run = some run) {e : ε} (he : (run s).1 = some e) :
    drive (stage :: rest) s w = w.fail e := by
  rw [drive, hrun]
  dsimp only
  rw [he]

theorem drive_passed (hrun : stage.run = some run) (hpass : (run s).1 = none) :
    drive (stage :: rest) s w = drive rest (run s).2 (w.pass stage.passed) := by
  rw [drive, hrun]
  dsimp only
  rw [hpass]

end

/-- Stages that fail alike from every state: the first that fails decides. -/
theorem drive_failure {ι : Type} {stage : ι → Stage ε σ} {report : ι → Option ε} {table : List ι}
    (hruns : ∀ entry ∈ table, ∀ run ∈ (stage entry).run, ∀ s, (run s).1 = report entry)
    (hskips : ∀ entry ∈ table, (stage entry).run = none → report entry = none) (s : σ)
    {w : Session ε} (hw : w.failure = none) :
    (drive (table.map stage) s w).failure = table.findSome? report := by
  induction table generalizing s w with
  | nil => exact hw
  | cons entry rest ih =>
      rw [List.forall_mem_cons] at hruns hskips
      rw [List.map_cons, List.findSome?_cons]
      have hrest := fun s w => ih hruns.2 hskips.2 s (w := w)
      cases hrun : (stage entry).run with
      | none =>
          rw [drive_absent hrun, hskips.1 hrun]
          exact hrest s _ hw
      | some run =>
          have hreport := hruns.1 run hrun s
          cases hpass : report entry with
          | none =>
              rw [drive_passed hrun (hreport.trans hpass)]
              exact hrest _ _ hw
          | some e =>
              rw [drive_failed hrun (hreport.trans hpass)]
              rfl

/-- Where every stage can leave any state, a program passes from every state
exactly if each stage that is there does. -/
theorem drive_passes_iff {stages : List (Stage ε σ)}
    (honto : ∀ stage ∈ stages, ∀ run ∈ stage.run, Function.Surjective fun s => (run s).2)
    {w : Session ε} (hw : w.failure = none) :
    (∀ s, (drive stages s w).failure = none) ↔
      ∀ stage ∈ stages, ∀ run ∈ stage.run, ∀ s, (run s).1 = none := by
  induction stages generalizing w with
  | nil => exact iff_of_true (fun _ => hw) fun _ hstage => absurd hstage List.not_mem_nil
  | cons stage rest ih =>
      rw [List.forall_mem_cons] at honto ⊢
      cases hrun : stage.run with
      | none =>
          simp only [drive_absent hrun]
          have hvacuous : ∀ run ∈ (none : Option (σ → Option ε × σ)), ∀ s, (run s).1 = none :=
            fun run hnone => absurd hnone (Option.not_mem_none run)
          rw [and_iff_right hvacuous]
          exact ih honto.2 (w := w.skip stage.absent) hw
      | some run =>
          have hrest := ih honto.2 (w := w.pass stage.passed) hw
          rw [← hrest]
          constructor
          · intro hpasses
            have hfirst : ∀ s, (run s).1 = none := by
              intro s
              have hs := hpasses s
              cases hpass : (run s).1 with
              | none => rfl
              | some e =>
                  rw [drive_failed hrun hpass] at hs
                  exact absurd hs (Option.some_ne_none e)
            constructor
            · intro run' hrun'
              rw [← Option.some.inj hrun']
              exact hfirst
            · intro t
              rcases honto.1 run hrun t with ⟨s, hs⟩
              have hpassed := hpasses s
              rwa [drive_passed hrun (hfirst s), show (run s).2 = t from hs] at hpassed
          · intro hall s
            rw [drive_passed hrun (hall.1 run rfl s)]
            exact hall.2 _

/-- A program that passes counts the stages that are there. -/
theorem drive_ran {stages : List (Stage ε σ)} {s : σ} {w : Session ε}
    (hpasses : (drive stages s w).failure = none) :
    (drive stages s w).ran = w.ran + stages.countP fun stage => stage.run.isSome := by
  induction stages generalizing s w with
  | nil => rfl
  | cons stage rest ih =>
      rw [List.countP_cons]
      cases hrun : stage.run with
      | none =>
          rw [drive_absent hrun] at hpasses ⊢
          exact ih hpasses
      | some run =>
          cases hpass : (run s).1 with
          | none =>
              rw [drive_passed hrun hpass] at hpasses ⊢
              rw [ih hpasses]
              exact Nat.add_right_comm w.ran 1 _
          | some e =>
              rw [drive_failed hrun hpass] at hpasses
              exact absurd hpasses (Option.some_ne_none e)

end Stages
end CMFuzz
