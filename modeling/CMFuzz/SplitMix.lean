import CMFuzz.ByteCodec
import CMFuzz.WordMixing

/-!
# The SplitMix64 stream

One step adds an odd constant to a 64-bit state and returns a mixed copy of
the new state.  Programs that draw from the stream are state transformers.
-/

namespace CMFuzz
namespace SplitMix

open ByteCodec
open WordMixing

abbrev Draw := StateM UInt64

def gamma : UInt64 := 0x9E3779B97F4A7C15

def mix (s : UInt64) : UInt64 :=
  let z := (s ^^^ (s >>> 30)) * 0xBF58476D1CE4E5B9
  let z := (z ^^^ (z >>> 27)) * 0x94D049BB133111EB
  z ^^^ (z >>> 31)

def next : Draw UInt64 := fun s => (mix (s + gamma), s + gamma)

def lowBytes : ℕ → Draw Bytes
  | 0 => pure []
  | n + 1 => do
      let r ← next
      let rest ← lowBytes n
      pure (r.toUInt8 :: rest)

/-- Everything a drawing program can return satisfies `P`. -/
def Always {α : Type} (P : α → Prop) (draw : Draw α) : Prop :=
  ∀ s, P (draw s).1

theorem Always.pure {α : Type} {P : α → Prop} {a : α} (ha : P a) :
    Always P (Pure.pure a) := fun _ => ha

theorem Always.bind {α β : Type} {P : α → Prop} {Q : β → Prop} {draw : Draw α}
    {cont : α → Draw β} (hdraw : Always P draw)
    (hcont : ∀ a, P a → Always Q (cont a)) : Always Q (draw >>= cont) :=
  fun s => hcont (draw s).1 (hdraw s) (draw s).2

theorem Always.bind_bind {α β γ : Type} {R : α → β → Prop} {P : γ → Prop} {draw : Draw α}
    {draw' : Draw β} {cont : α → β → Draw γ}
    (hpair : ∀ s, R (draw s).1 (draw' (draw s).2).1)
    (hcont : ∀ a b, R a b → Always P (cont a b)) :
    Always P (draw >>= fun a => draw' >>= fun b => cont a b) :=
  fun s => hcont _ _ (hpair s) (draw' (draw s).2).2

theorem always_true {α : Type} (draw : Draw α) : Always (fun _ => True) draw :=
  fun _ => trivial

theorem lowBytes_length (n : ℕ) : Always (fun data => data.length = n) (lowBytes n) := by
  induction n with
  | zero => exact Always.pure rfl
  | succ n ih =>
      refine Always.bind (always_true next) fun r _ => ?_
      refine Always.bind ih fun rest hrest => ?_
      exact Always.pure (by rw [List.length_cons, hrest])

def attach {α : Type} {P : α → Prop} (draw : Draw α) (hdraw : Always P draw) :
    Draw {a // P a} :=
  fun s => (⟨(draw s).1, hdraw s⟩, (draw s).2)

theorem Always.attach {α : Type} {P Q : α → Prop} {draw : Draw α} (hdraw : Always P draw)
    (hQ : Always Q draw) : Always (fun a : {a // P a} => Q a.1) (SplitMix.attach draw hdraw) :=
  fun s => hQ s

/-! ## Two runs of the stream -/

/-- Two drawing programs that take the same number of words from any stream,
with related results. -/
def Aligned {α β : Type} (R : α → β → Prop) (draw : Draw α) (draw' : Draw β) : Prop :=
  ∀ s, R (draw s).1 (draw' s).1 ∧ (draw s).2 = (draw' s).2

theorem Aligned.pure {α β : Type} {R : α → β → Prop} {a : α} {b : β} (hab : R a b) :
    Aligned R (Pure.pure a) (Pure.pure b) := fun _ => ⟨hab, rfl⟩

theorem Aligned.bind {α β γ δ : Type} {R : α → β → Prop} {S : γ → δ → Prop}
    {draw : Draw α} {draw' : Draw β} {cont : α → Draw γ} {cont' : β → Draw δ}
    (hdraw : Aligned R draw draw') (hcont : ∀ a b, R a b → Aligned S (cont a) (cont' b)) :
    Aligned S (draw >>= cont) (draw' >>= cont') := by
  intro s
  obtain ⟨hresult, hstate⟩ := hdraw s
  have hrest := hcont _ _ hresult (draw s).2
  show S (cont (draw s).1 (draw s).2).1 (cont' (draw' s).1 (draw' s).2).1 ∧
    (cont (draw s).1 (draw s).2).2 = (cont' (draw' s).1 (draw' s).2).2
  rw [← hstate]
  exact hrest

theorem Aligned.refl {α : Type} (draw : Draw α) : Aligned Eq draw draw :=
  fun _ => ⟨rfl, rfl⟩

theorem Aligned.refl_of {α : Type} {P : α → Prop} {draw : Draw α} (hdraw : Always P draw) :
    Aligned (fun a b => a = b ∧ P a) draw draw :=
  fun s => ⟨⟨rfl, hdraw s⟩, rfl⟩

theorem Aligned.attach {α β : Type} {P : α → Prop} {Q : β → Prop} {R : α → β → Prop}
    {draw : Draw α} {draw' : Draw β} {hP : Always P draw} {hQ : Always Q draw'}
    (hdraw : Aligned R draw draw') :
    Aligned (fun a b => R a.1 b.1) (SplitMix.attach draw hP) (SplitMix.attach draw' hQ) :=
  hdraw

/-- What a program would draw here, without taking it from the stream. -/
def peek {α : Type} (draw : Draw α) : Draw α := fun s => ((draw s).1, s)

theorem Always.peek {α : Type} {P : α → Prop} {draw : Draw α} (hdraw : Always P draw) :
    Always P (SplitMix.peek draw) := hdraw

theorem Aligned.peek {α β γ : Type} {S : β → γ → Prop} {draw : Draw α} {cont : α → Draw β}
    {draw' : Draw γ} (hcont : ∀ a, Aligned S (cont a) draw') :
    Aligned S (SplitMix.peek draw >>= cont) draw' :=
  fun s => hcont (draw s).1 s

/-- Two programs run from the same place of the stream have related results;
how much they take may differ. -/
def Beside {α β : Type} (R : α → β → Prop) (draw : Draw α) (draw' : Draw β) : Prop :=
  ∀ s, R (draw s).1 (draw' s).1

theorem Beside.pure {α β : Type} {R : α → β → Prop} {a : α} {draw' : Draw β}
    (hdraw : Always (R a) draw') : Beside R (Pure.pure a) draw' := hdraw

theorem Beside.map {α β γ δ : Type} {R : α → β → Prop} {S : γ → δ → Prop} {draw : Draw α}
    {draw' : Draw β} {f : α → γ} {g : β → δ} (hdraw : Beside R draw draw')
    (hfg : ∀ a b, R a b → S (f a) (g b)) :
    Beside S (draw >>= fun a => Pure.pure (f a)) (draw' >>= fun b => Pure.pure (g b)) :=
  fun s => hfg _ _ (hdraw s)

theorem Beside.map_right {α β γ : Type} {R : α → β → Prop} {S : α → γ → Prop}
    {draw : Draw α} {draw' : Draw β} {g : β → γ} (hdraw : Beside R draw draw')
    (hg : ∀ a b, R a b → S a (g b)) :
    Beside S draw (draw' >>= fun b => Pure.pure (g b)) :=
  fun s => hg _ _ (hdraw s)

theorem Beside.attach {α β : Type} {P : β → Prop} {R : α → β → Prop} {draw : Draw α}
    {draw' : Draw β} {hP : Always P draw'} (hdraw : Beside R draw draw') :
    Beside (fun a b => R a b.1) draw (SplitMix.attach draw' hP) := hdraw

theorem Aligned.bind_beside {α β γ δ : Type} {R : α → β → Prop} {S : γ → δ → Prop}
    {draw : Draw α} {draw' : Draw β} {cont : α → Draw γ} {cont' : β → Draw δ}
    (hdraw : Aligned R draw draw') (hcont : ∀ a b, R a b → Beside S (cont a) (cont' b)) :
    Beside S (draw >>= cont) (draw' >>= cont') := by
  intro s
  obtain ⟨hresult, hstate⟩ := hdraw s
  have hrest := hcont _ _ hresult (draw s).2
  show S (cont (draw s).1 (draw s).2).1 (cont' (draw' s).1 (draw' s).2).1
  rw [← hstate]
  exact hrest

theorem Beside.always {α β γ : Type} {R : α → β → Prop} {P : γ → Prop} {draw : Draw α}
    {draw' : Draw β} {cont : α → β → Draw γ} (hdraw : Beside R draw draw')
    (hcont : ∀ a b, R a b → Always P (cont a b)) :
    Always P (SplitMix.peek draw >>= fun a => draw' >>= fun b => cont a b) :=
  fun s => hcont _ _ (hdraw s) (draw' s).2

/-! ## The words of a stream -/

theorem xorShift_injective {k : UInt64} (hk : 0 < (k.toBitVec % 64).toNat) :
    Function.Injective fun z : UInt64 => z ^^^ (z >>> k) := by
  intro x y heq
  have hbits := congrArg UInt64.toBitVec heq
  simp only [UInt64.toBitVec_xor, UInt64.toBitVec_shiftRight] at hbits
  exact UInt64.toBitVec_inj.mp (WordMixing.xorShift_injective hk hbits)

theorem mul_injective {c : UInt64} (hc : c.toNat % 2 = 1) :
    Function.Injective fun z : UInt64 => z * c := by
  intro x y heq
  have hbits := congrArg UInt64.toBitVec heq
  rw [UInt64.toBitVec_mul, UInt64.toBitVec_mul] at hbits
  exact UInt64.toBitVec_inj.mp (WordMixing.mul_injective (coprime_of_odd hc) hbits)

theorem mix_injective : Function.Injective mix := by
  intro x y heq
  have hlast := xorShift_injective (k := 31) (by decide) heq
  have hsecond := mul_injective (c := 0x94D049BB133111EB) (by decide) hlast
  have hmiddle := xorShift_injective (k := 27) (by decide) hsecond
  have hfirst := mul_injective (c := 0xBF58476D1CE4E5B9) (by decide) hmiddle
  exact xorShift_injective (k := 30) (by decide) hfirst

def advance (s : UInt64) (n : ℕ) : UInt64 := s + UInt64.ofNat n * gamma

theorem advance_zero (s : UInt64) : advance s 0 = s := by
  simp [advance]

theorem advance_advance (s : UInt64) (m n : ℕ) :
    advance (advance s m) n = advance s (m + n) := by
  rw [advance, advance, advance, UInt64.ofNat_add, UInt64.add_mul, UInt64.add_assoc]

theorem advance_injective (s : UInt64) {i j : ℕ} (hi : i < 2 ^ 64) (hj : j < 2 ^ 64)
    (heq : advance s i = advance s j) : i = j := by
  have hbits := congrArg UInt64.toBitVec heq
  have hodd : gamma.toBitVec.toNat % 2 = 1 := by decide
  exact weyl_injective (coprime_of_odd hodd) s.toBitVec hi hj hbits

/-- Word `i` of the stream from state `s`. -/
def word (s : UInt64) (i : ℕ) : UInt64 := mix (advance s (i + 1))

theorem next_run (s : UInt64) : next s = (word s 0, advance s 1) := by
  have hone : advance s 1 = s + gamma := by
    simp [advance]
  rw [word, Nat.zero_add, hone, next]

theorem word_advance (s : UInt64) (n i : ℕ) : word (advance s n) i = word s (n + i) := by
  rw [word, word, advance_advance, Nat.add_assoc]

theorem word_injective (s : UInt64) {i j : ℕ} (hi : i + 1 < 2 ^ 64) (hj : j + 1 < 2 ^ 64)
    (heq : word s i = word s j) : i = j :=
  Nat.succ_injective (advance_injective s hi hj (mix_injective heq))

theorem bind_run {α β : Type} (draw : Draw α) (cont : α → Draw β) (s : UInt64) :
    (draw >>= cont) s = cont (draw s).1 (draw s).2 := rfl

end SplitMix
end CMFuzz
