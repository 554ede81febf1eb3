import CMFuzz.ByteCodec

/-!
# Accesses to byte buffers

What a routine touches of the two buffers it is handed, said without memory:
the spans of the input it reads and the spans of the output it writes.  A call
that is told how much room its output has never writes more, and fills the
room when it succeeds.
-/

namespace CMFuzz
namespace Buffer

open ByteCodec

structure Span where
  off : ℕ
  len : ℕ
  deriving DecidableEq, Repr

def Span.stop (s : Span) : ℕ := s.off + s.len

structure Footprint where
  reads : List Span
  writes : List Span
  deriving DecidableEq, Repr

structure Footprint.Within (f : Footprint) (input output : ℕ) : Prop where
  reads : ∀ s ∈ f.reads, s.stop ≤ input
  writes : ∀ s ∈ f.writes, s.stop ≤ output

theorem Footprint.Within.mono {f : Footprint} {input input' output output' : ℕ}
    (h : f.Within input output) (hinput : input ≤ input') (houtput : output ≤ output') :
    f.Within input' output' where
  reads s hs := (h.reads s hs).trans hinput
  writes s hs := (h.writes s hs).trans houtput

theorem Footprint.within_empty (input output : ℕ) :
    Footprint.Within ⟨[], []⟩ input output where
  reads := by simp
  writes := by simp

theorem Footprint.within_single {r w input output : ℕ} (hread : r ≤ input)
    (hwrite : w ≤ output) : Footprint.Within ⟨[⟨0, r⟩], [⟨0, w⟩]⟩ input output where
  reads s hs := by
    rw [List.mem_singleton.mp hs, Span.stop, Nat.zero_add]
    exact hread
  writes s hs := by
    rw [List.mem_singleton.mp hs, Span.stop, Nat.zero_add]
    exact hwrite

/-- The outcome of a call that was given room for so many bytes; when it
fails, some of them may be written all the same. -/
structure Filled (room : ℕ) where
  bytes : Bytes
  ok : Bool
  bytes_length_le : bytes.length ≤ room
  full : ok = true → bytes.length = room

end Buffer
end CMFuzz
