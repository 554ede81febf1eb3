import Mathlib.Tactic
import Mathlib.Data.List.DropRight

/-!
# Line streams and line servers

A stream is cut after every separator, as repeated line reads do; only the
last line may lack its separator.  A line server turns a request stream into
a reply stream.  `Serves` says which request lines it answers and that the
replies come in request order, one line each.
-/

namespace CMFuzz
namespace LineStream

variable {α : Type*}

def unlines (sep : α) (texts : List (List α)) : List α :=
  texts.flatMap fun text => text ++ [sep]

@[simp] theorem unlines_nil (sep : α) : unlines sep [] = [] := rfl

@[simp] theorem unlines_cons (sep : α) (text : List α) (texts : List (List α)) :
    unlines sep (text :: texts) = text ++ sep :: unlines sep texts := by
  simp [unlines]

variable [DecidableEq α]

/-- The results of reading a stream line by line, separators included. -/
def lines (sep : α) : List α → List (List α)
  | [] => []
  | c :: rest =>
      if c = sep then [c] :: lines sep rest
      else match lines sep rest with
        | [] => [[c]]
        | line :: more => (c :: line) :: more

@[simp] theorem lines_nil (sep : α) : lines sep [] = [] := rfl

/-- Cut at the first separator; `none` when there is none. -/
def splitOnce (sep : α) (text : List α) : Option (List α × List α) :=
  if sep ∈ text then
    some (text.takeWhile (· ≠ sep), (text.dropWhile (· ≠ sep)).tail)
  else none

theorem splitOnce_append {sep : α} {head : List α} (hhead : sep ∉ head)
    (tail : List α) : splitOnce sep (head ++ sep :: tail) = some (head, tail) := by
  have hne : ∀ c ∈ head, decide (c ≠ sep) = true := by
    intro c hc
    have hc' : c ≠ sep := fun heq => hhead (heq ▸ hc)
    simpa using hc'
  have htake : (head ++ sep :: tail).takeWhile (· ≠ sep) = head := by
    rw [List.takeWhile_append_of_pos hne]
    simp
  have hdrop : (head ++ sep :: tail).dropWhile (· ≠ sep) = sep :: tail := by
    rw [List.dropWhile_append_of_pos hne]
    simp
  unfold splitOnce
  rw [if_pos (by simp), htake, hdrop, List.tail_cons]

theorem lines_append_sep {sep : α} {text : List α} (htext : sep ∉ text)
    (rest : List α) :
    lines sep (text ++ sep :: rest) = (text ++ [sep]) :: lines sep rest := by
  induction text with
  | nil => simp [lines]
  | cons c text ih =>
      have hc : c ≠ sep := fun heq => htext (heq ▸ List.mem_cons_self)
      have htail : sep ∉ text := fun hmem => htext (List.mem_cons_of_mem c hmem)
      simp only [List.cons_append, lines, hc, if_false]
      rw [ih htail]

theorem lines_unlines {sep : α} {texts : List (List α)}
    (htexts : ∀ text ∈ texts, sep ∉ text) :
    lines sep (unlines sep texts) = texts.map (· ++ [sep]) := by
  induction texts with
  | nil => rfl
  | cons text texts ih =>
      rw [unlines_cons, lines_append_sep (htexts text List.mem_cons_self),
        ih fun t ht => htexts t (List.mem_cons_of_mem text ht), List.map_cons]

theorem lines_eq_singleton {sep : α} {text : List α} (hne : text ≠ [])
    (htext : sep ∉ text) : lines sep text = [text] := by
  induction text with
  | nil => exact absurd rfl hne
  | cons c text ih =>
      have hc : c ≠ sep := fun heq => htext (heq ▸ List.mem_cons_self)
      have htail : sep ∉ text := fun hmem => htext (List.mem_cons_of_mem c hmem)
      rw [lines, if_neg hc]
      by_cases hnil : text = []
      · subst hnil
        rfl
      · rw [ih hnil htail]

/-- Induction along the lines of a stream; only the last one can be open. -/
theorem lines_induction (sep : α) {motive : List α → Prop} (nil : motive [])
    (unterminated : ∀ text, text ≠ [] → sep ∉ text → motive text)
    (line : ∀ text rest, sep ∉ text → motive rest → motive (text ++ sep :: rest))
    (stream : List α) : motive stream := by
  induction hlen : stream.length using Nat.strong_induction_on generalizing stream with
  | _ n ih =>
      by_cases hsep : sep ∈ stream
      · obtain ⟨text, rest, rfl, htext⟩ := List.eq_append_cons_of_mem hsep
        refine line text rest htext (ih rest.length ?_ rest rfl)
        simp only [List.length_append, List.length_cons] at hlen
        omega
      · by_cases hnil : stream = []
        · exact hnil ▸ nil
        · exact unterminated stream hnil hsep

/-! ## Line servers -/

/-- On every stream whose lines are all acceptable, the server runs to the end
and writes exactly one reply line for each line it answers, in the order of
the requests: the reply depends on the request line and on the number of
earlier replies only. -/
def Serves (sep : α) (accepts : List α → Prop) (answers : List α → Bool)
    (server : List α → Option (List α)) : Prop :=
  ∃ respond : ℕ → List α → List α,
    (∀ k line, sep ∉ respond k line) ∧
    ∀ stream, (∀ line ∈ lines sep stream, accepts line) →
      server stream =
        some (unlines sep (((lines sep stream).filter answers).mapIdx respond))

def Lockstep (sep : α) (server : List α → Option (List α)) : Prop :=
  Serves sep (fun _ => True) (fun _ => true) server

theorem Serves.reply_count {sep : α} {accepts : List α → Prop}
    {answers : List α → Bool} {server : List α → Option (List α)}
    (hserves : Serves sep accepts answers server) (stream : List α)
    (hstream : ∀ line ∈ lines sep stream, accepts line) :
    ∃ replies, server stream = some replies ∧
      (lines sep replies).length = ((lines sep stream).filter answers).length := by
  obtain ⟨respond, hsep, hrun⟩ := hserves
  have htexts : ∀ text ∈ ((lines sep stream).filter answers).mapIdx respond,
      sep ∉ text := by
    intro text hmem
    obtain ⟨k, hk, rfl⟩ := List.mem_mapIdx.mp hmem
    exact hsep _ _
  refine ⟨_, hrun stream hstream, ?_⟩
  rw [lines_unlines htexts, List.length_map, List.length_mapIdx]

theorem Lockstep.reply_count {sep : α} {server : List α → Option (List α)}
    (hlock : Lockstep sep server) (stream : List α) :
    ∃ replies, server stream = some replies ∧
      (lines sep replies).length = (lines sep stream).length := by
  obtain ⟨replies, hserver, hcount⟩ :=
    Serves.reply_count hlock stream fun _ _ => trivial
  exact ⟨replies, hserver, by simpa using hcount⟩

end LineStream
end CMFuzz
