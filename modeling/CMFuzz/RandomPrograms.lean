import Mathlib.Tactic

/-!
# Programs that ask for randomness

Computations that ask a source for random values, programs that make such
calls, show their results and may stop, and what two sources that answer alike
have in common.
-/

namespace CMFuzz
namespace RandomPrograms

/-- A call that asks the source with requests of type `ι` and goes on with
answers of type `β`. -/
inductive Sampling (ι β α : Type) where
  | done (a : α)
  | draw (i : ι) (cont : β → Sampling ι β α)

/-- A program that also shows values of type `ω` and may stop with an `ε`. -/
inductive Program (ι β ω ε α : Type) where
  | done (a : α)
  | draw (i : ι) (cont : β → Program ι β ω ε α)
  | emit (o : ω) (rest : Program ι β ω ε α)
  | stop (e : ε)

/-- All that can be seen of a run. -/
structure Outcome (ω ε α : Type) where
  shown : List ω
  result : Except ε α

variable {ι β ω ε α γ σ τ : Type}

def Sampling.run (source : ι → σ → β × σ) : Sampling ι β α → σ → α × σ
  | .done a, s => (a, s)
  | .draw i cont, s => (cont (source i s).1).run source (source i s).2

namespace Program

def bind : Program ι β ω ε α → (α → Program ι β ω ε γ) → Program ι β ω ε γ
  | .done a, f => f a
  | .draw i cont, f => .draw i fun b => (cont b).bind f
  | .emit o rest, f => .emit o (rest.bind f)
  | .stop e, _ => .stop e

instance : Monad (Program ι β ω ε) where
  pure := .done
  bind := bind

def call (view : α → ω) : Sampling ι β α → Program ι β ω ε α
  | .done a => .emit (view a) (.done a)
  | .draw i cont => .draw i fun b => call view (cont b)

def run (source : ι → σ → β × σ) : Program ι β ω ε α → σ → Outcome ω ε α × σ
  | .done a, s => (⟨[], .ok a⟩, s)
  | .draw i cont, s => (cont (source i s).1).run source (source i s).2
  | .emit o rest, s =>
      (⟨o :: (rest.run source s).1.shown, (rest.run source s).1.result⟩, (rest.run source s).2)
  | .stop e, s => (⟨[], .error e⟩, s)

theorem run_call_bind (source : ι → σ → β × σ) (view : α → ω) (m : Sampling ι β α)
    (f : α → Program ι β ω ε γ) (s : σ) :
    (((call view m).bind f).run source s).1.shown.head? = some (view (m.run source s).1) := by
  induction m generalizing s with
  | done a => rfl
  | draw i cont ih => exact ih _ _

theorem result_call_bind (source : ι → σ → β × σ) (view : α → ω) (m : Sampling ι β α)
    (f : α → Program ι β ω ε γ) (s : σ) :
    (((call view m).bind f).run source s).1.result =
      ((f (m.run source s).1).run source (m.run source s).2).1.result := by
  induction m generalizing s with
  | done a => rfl
  | draw i cont ih => exact ih _ _

theorem result_emit (source : ι → σ → β × σ) (o : ω) (m : Program ι β ω ε α) (s : σ) :
    ((emit o m).run source s).1.result = (m.run source s).1.result := rfl

theorem result_ite (source : ι → σ → β × σ) (c : Prop) [Decidable c]
    (m m' : Program ι β ω ε α) (s : σ) :
    ((if c then m else m').run source s).1.result =
      if c then (m.run source s).1.result else (m'.run source s).1.result := by
  split
  · rfl
  · rfl

end Program

/-- Sources that answer alike from related states, and stay related. -/
def Alike (R : σ → τ → Prop) (source : ι → σ → β × σ) (source' : ι → τ → β × τ) : Prop :=
  ∀ i s t, R s t → (source i s).1 = (source' i t).1 ∧ R (source i s).2 (source' i t).2

section

variable {R : σ → τ → Prop} {source : ι → σ → β × σ} {source' : ι → τ → β × τ}
  (halike : Alike R source source')

include halike

theorem Sampling.run_alike (m : Sampling ι β α) {s : σ} {t : τ} (hst : R s t) :
    (m.run source s).1 = (m.run source' t).1 ∧
      R (m.run source s).2 (m.run source' t).2 := by
  induction m generalizing s t with
  | done a => exact ⟨rfl, hst⟩
  | draw i cont ih =>
      rcases halike i s t hst with ⟨hanswer, hnext⟩
      rw [Sampling.run, Sampling.run, hanswer]
      exact ih _ hnext

theorem Program.run_alike (m : Program ι β ω ε α) {s : σ} {t : τ} (hst : R s t) :
    (m.run source s).1 = (m.run source' t).1 ∧
      R (m.run source s).2 (m.run source' t).2 := by
  induction m generalizing s t with
  | done a => exact ⟨rfl, hst⟩
  | draw i cont ih =>
      rcases halike i s t hst with ⟨hanswer, hnext⟩
      rw [Program.run, Program.run, hanswer]
      exact ih _ hnext
  | emit o rest ih =>
      rcases ih hst with ⟨houtcome, hnext⟩
      rw [Program.run, Program.run, houtcome]
      exact ⟨rfl, hnext⟩
  | stop e => exact ⟨rfl, hst⟩

end

theorem Program.run_preserves {I : σ → Prop} {source : ι → σ → β × σ}
    (hsource : ∀ i s, I s → I (source i s).2) (m : Program ι β ω ε α) {s : σ} (hs : I s) :
    I (m.run source s).2 := by
  have halike : Alike (fun s t => I s ∧ s = t) source source := by
    rintro i s t ⟨hs, rfl⟩
    exact ⟨rfl, hsource i s hs, rfl⟩
  exact (m.run_alike halike ⟨hs, rfl⟩).2.1

end RandomPrograms
end CMFuzz
