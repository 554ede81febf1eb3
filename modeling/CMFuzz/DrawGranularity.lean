import CMFuzz.RandomCalls
import Mathlib.Data.List.GetD

/-!
# Draws of different sizes

`cmf_randombytes` as the loop that fills a buffer word by word, and the bytes of
the stream that one call and a run of calls hand out.  A call takes whole words,
so sizes can be joined where they are multiples of eight; elsewhere the rest of
the last word is lost.
-/

namespace CMFuzz
namespace Engine

open ByteCodec
open SplitMix

/-! ## The loop -/

/-- `memcpy(out + off, src, |src|)`. -/
def memcpy (out : ℕ → UInt8) (off : ℕ) (src : Bytes) : ℕ → UInt8 :=
  fun k => if off ≤ k ∧ k < off + src.length then src.getD (k - off) 0 else out k

theorem memcpy_nil (out : ℕ → UInt8) (off : ℕ) : memcpy out off [] = out := by
  funext k
  exact if_neg fun h => absurd h.2 (not_lt.mpr h.1)

theorem memcpy_memcpy (out : ℕ → UInt8) (off : ℕ) (src src' : Bytes) :
    memcpy (memcpy out off src) (off + src.length) src' = memcpy out off (src ++ src') := by
  funext k
  rw [memcpy, memcpy, memcpy, List.length_append]
  by_cases hsecond : off + src.length ≤ k
  · rw [if_neg (by omega : ¬ (off ≤ k ∧ k < off + src.length)),
      List.getD_append_right _ _ _ _ (by omega), Nat.sub_sub]
    congr 1
    rw [eq_iff_iff]
    omega
  · rw [if_neg (by omega : ¬ (off + src.length ≤ k ∧ k < off + src.length + src'.length))]
    by_cases hfirst : off ≤ k
    · rw [if_pos (by omega), if_pos (by omega), List.getD_append _ _ _ _ (by omega)]
    · rw [if_neg (by omega), if_neg (by omega)]

/-- `i`, the memory from `out` on and `g_cmf_prng.state`. -/
structure Filling where
  i : UInt64
  out : ℕ → UInt8
  state : UInt64

def chunk (n i : UInt64) : UInt64 := if n - i < 8 then n - i else 8

/-- The body of the loop. -/
def Filling.turn (n : UInt64) (f : Filling) : Filling :=
  let (r, state) := next f.state
  let chunk := chunk n f.i
  ⟨f.i + chunk, memcpy f.out f.i.toNat ((wordBytes r).take chunk.toNat), state⟩

theorem chunk_toNat {n i : UInt64} (hi : i < n) :
    (chunk n i).toNat = min 8 (n.toNat - i.toNat) := by
  have hlt := UInt64.lt_iff_toNat_lt.mp hi
  have hsub : (n - i).toNat = n.toNat - i.toNat :=
    UInt64.toNat_sub_of_le n i (UInt64.le_iff_toNat_le.mpr hlt.le)
  have height : UInt64.toNat 8 = 8 := rfl
  rw [chunk]
  split
  · rename_i hshort
    have hrest := UInt64.lt_iff_toNat_lt.mp hshort
    omega
  · rename_i hlong
    have hrest := mt UInt64.lt_iff_toNat_lt.mpr hlong
    omega

theorem Filling.turn_i {n : UInt64} {f : Filling} (hi : f.i < n) :
    (f.turn n).i.toNat = f.i.toNat + min 8 (n.toNat - f.i.toNat) := by
  have hlt := UInt64.lt_iff_toNat_lt.mp hi
  have hn := n.toNat_lt
  show (f.i + chunk n f.i).toNat = _
  rw [UInt64.toNat_add, chunk_toNat hi, Nat.mod_eq_of_lt (by omega)]

/-- `cmf_randombytes`, from any turn of the loop on. -/
def Filling.loop (n : UInt64) (f : Filling) : Filling :=
  if f.i < n then (f.turn n).loop n else f
termination_by n.toNat - f.i.toNat
decreasing_by
  rename_i hi
  have hlt := UInt64.lt_iff_toNat_lt.mp hi
  rw [Filling.turn_i hi]
  omega

theorem cmfRandombytes_turn {n : ℕ} (hn : n ≠ 0) (s : UInt64) :
    cmfRandombytes n s =
      ((wordBytes (word s 0)).take n ++ (cmfRandombytes (n - 8) (advance s 1)).1,
        (cmfRandombytes (n - 8) (advance s 1)).2) := by
  by_cases hlarge : 8 ≤ n
  · obtain ⟨m, rfl⟩ : ∃ m, n = m + 8 := ⟨n - 8, by omega⟩
    have hwhole : (wordBytes (word s 0)).take (m + 8) = wordBytes (word s 0) :=
      List.take_of_length_le (by rw [wordBytes_length]; omega)
    rw [cmfRandombytes.eq_2, bind_run, next_run, hwhole, Nat.add_sub_cancel]
    rfl
  · have hlast : n - 8 = 0 := by omega
    rw [cmfRandombytes.eq_3 n hn (fun m hm => hlarge (by omega)), bind_run, next_run, hlast,
      cmfRandombytes.eq_1]
    show (_, _) = ((wordBytes (word s 0)).take n ++ [], advance s 1)
    rw [List.append_nil]

/-- What is left of the loop fills the buffer with the bytes of one call. -/
theorem Filling.loop_eq (n : UInt64) (f : Filling) (hi : f.i ≤ n) :
    f.loop n = ⟨n,
      memcpy f.out f.i.toNat (cmfRandombytes (n.toNat - f.i.toNat) f.state).1,
      (cmfRandombytes (n.toNat - f.i.toNat) f.state).2⟩ := by
  induction f using Filling.loop.induct n with
  | case1 f hlt ih =>
      have hle := UInt64.lt_iff_toNat_lt.mp hlt
      have hturn := Filling.turn_i hlt
      have hnext : (f.turn n).state = advance f.state 1 := by
        show (next f.state).2 = _
        rw [next_run]
      have hcopied : (wordBytes (word f.state 0)).take (chunk n f.i).toNat =
          (wordBytes (word f.state 0)).take (n.toNat - f.i.toNat) := by
        rw [chunk_toNat hlt, ← List.take_take]
        apply List.take_of_length_le
        rw [List.length_take, wordBytes_length]
        exact min_le_right _ _
      have hout : (f.turn n).out = memcpy f.out f.i.toNat
          ((wordBytes (word f.state 0)).take (n.toNat - f.i.toNat)) := by
        show memcpy f.out f.i.toNat ((wordBytes (next f.state).1).take _) = _
        rw [next_run, hcopied]
      have hindex : (f.turn n).i.toNat = f.i.toNat +
          ((wordBytes (word f.state 0)).take (n.toNat - f.i.toNat)).length := by
        rw [hturn, List.length_take, wordBytes_length, min_comm]
      have hrest : n.toNat - (f.turn n).i.toNat = n.toNat - f.i.toNat - 8 := by omega
      have hle' : (f.turn n).i ≤ n := UInt64.le_iff_toNat_le.mpr (by omega)
      rw [Filling.loop, if_pos hlt, ih hle', hrest, hnext, hout, hindex, memcpy_memcpy,
        cmfRandombytes_turn (n := n.toNat - f.i.toNat) (by omega)]
  | case2 f hge =>
      have hend : f.i = n := UInt64.le_antisymm hi (UInt64.not_lt.mp hge)
      rw [Filling.loop, if_neg hge, hend, Nat.sub_self, cmfRandombytes.eq_1]
      show f = ⟨n, memcpy f.out n.toNat [], f.state⟩
      rw [memcpy_nil, ← hend]

theorem Filling.loop_turns (n : UInt64) (f : Filling) :
    f.loop n = (Filling.turn n)^[(n.toNat - f.i.toNat + 7) / 8] f := by
  induction f using Filling.loop.induct n with
  | case1 f hlt ih =>
      have hle := UInt64.lt_iff_toNat_lt.mp hlt
      have hturn := Filling.turn_i hlt
      have hturns : (n.toNat - f.i.toNat + 7) / 8 =
          (n.toNat - (f.turn n).i.toNat + 7) / 8 + 1 := by omega
      rw [Filling.loop, if_pos hlt, ih, hturns, Function.iterate_succ_apply]
  | case2 f hge =>
      have hle := UInt64.le_iff_toNat_le.mp (UInt64.not_lt.mp hge)
      have hnone : (n.toNat - f.i.toNat + 7) / 8 = 0 := by omega
      rw [Filling.loop, if_neg hge, hnone, Function.iterate_zero_apply]

/-! ## The bytes of a call -/

/-- Byte `k` of the words of the stream, one behind the other. -/
def streamByte (s : UInt64) (k : ℕ) : UInt8 := (wordBytes (word s (k / 8))).getD (k % 8) 0

theorem streamByte_advance (s : UInt64) (w k : ℕ) :
    streamByte (advance s w) k = streamByte s (8 * w + k) := by
  have hword : w + k / 8 = (8 * w + k) / 8 := by omega
  have hbyte : k % 8 = (8 * w + k) % 8 := by omega
  rw [streamByte, streamByte, word_advance, hword, hbyte]

theorem take_wordBytes (s : UInt64) {n : ℕ} (hn : n ≤ 8) :
    (wordBytes (word s 0)).take n = (List.range n).map (streamByte s) := by
  apply List.ext_getElem
  · rw [List.length_take, wordBytes_length, List.length_map, List.length_range, min_eq_left hn]
  · intro k hk hk'
    rw [List.length_map, List.length_range] at hk'
    have hword : k / 8 = 0 := by omega
    have hbyte : k % 8 = k := by omega
    rw [List.getElem_take, List.getElem_map, List.getElem_range, streamByte, hword, hbyte,
      List.getD_eq_getElem _ _ (by rw [wordBytes_length]; omega)]

theorem cmfRandombytes_bytes (n : ℕ) (s : UInt64) :
    (cmfRandombytes n s).1 = (List.range n).map (streamByte s) := by
  induction n using Nat.strong_induction_on generalizing s with
  | h n ih =>
      by_cases hzero : n = 0
      · rw [hzero, cmfRandombytes.eq_1]
        rfl
      · have hsplit : List.range n = List.range (min n 8) ++
            (List.range (n - 8)).map (min n 8 + ·) := by
          rw [← List.range_add]
          congr 1
          omega
        have hfirst : (wordBytes (word s 0)).take n =
            (List.range (min n 8)).map (streamByte s) := by
          rw [← take_wordBytes s (min_le_right n 8), ← List.take_take,
            List.take_of_length_le (wordBytes_length _).le]
        have hrest : (List.range (n - 8)).map (streamByte (advance s 1)) =
            ((List.range (n - 8)).map (min n 8 + ·)).map (streamByte s) := by
          rw [List.map_map]
          apply List.map_congr_left
          intro k hk
          have hwhole : min n 8 = 8 * 1 := by
            have hlt := List.mem_range.mp hk
            omega
          rw [streamByte_advance, Function.comp_apply, hwhole]
        rw [cmfRandombytes_turn hzero, ih (n - 8) (by omega), hsplit, List.map_append, hfirst,
          hrest]

theorem cmfRandombytes_state (n : ℕ) (s : UInt64) :
    (cmfRandombytes n s).2 = advance s ((n + 7) / 8) := by
  rw [cmfRandombytes_run]

theorem cmfRandombytes_then (n m : ℕ) (s : UInt64) :
    (cmfRandombytes m (cmfRandombytes n s).2).1 =
      (List.range m).map fun k => streamByte s (8 * ((n + 7) / 8) + k) := by
  rw [cmfRandombytes_state, cmfRandombytes_bytes]
  apply List.map_congr_left
  intro k _
  exact streamByte_advance s _ k

theorem cmfRandombytes_add {n : ℕ} (hn : 8 ∣ n) (m : ℕ) (s : UInt64) :
    (cmfRandombytes n s).1 ++ (cmfRandombytes m (cmfRandombytes n s).2).1 =
        (cmfRandombytes (n + m) s).1 ∧
      (cmfRandombytes m (cmfRandombytes n s).2).2 = (cmfRandombytes (n + m) s).2 := by
  have hwords : 8 * ((n + 7) / 8) = n := by omega
  have hsum : (n + 7) / 8 + (m + 7) / 8 = (n + m + 7) / 8 := by omega
  constructor
  · rw [cmfRandombytes_then, hwords, cmfRandombytes_bytes, cmfRandombytes_bytes, List.range_add,
      List.map_append, List.map_map]
    rfl
  · rw [cmfRandombytes_state, cmfRandombytes_state, cmfRandombytes_state, advance_advance, hsum]

/-! ## The bytes of a run -/

theorem Call.words_eq (c : Call) : c.words = (c.size + 7) / 8 := by
  cases c with
  | splitmix64 => rfl
  | randombytes n => rfl

def start (calls : List Call) (i : ℕ) : ℕ := 8 * wordsTaken (calls.take i)

theorem results_bytes (calls : List Call) (s : UInt64) (i : ℕ) :
    (results calls s).1[i]? = calls[i]?.map fun c =>
      (List.range c.size).map fun k => streamByte s (start calls i + k) := by
  rw [results_getElem?]
  congr 1
  funext c
  rw [Call.draw_eq, cmfRandombytes_bytes]
  apply List.map_congr_left
  intro k _
  exact streamByte_advance s _ k

/-- Position `pos` of the stream is handed out by call number `i`. -/
def Delivers (calls : List Call) (i pos : ℕ) : Prop :=
  ∃ c, calls[i]? = some c ∧ start calls i ≤ pos ∧ pos < start calls i + c.size

/-- Position `pos` lies in a word that call number `i` draws, behind the bytes it
hands out. -/
def Discards (calls : List Call) (i pos : ℕ) : Prop :=
  ∃ c, calls[i]? = some c ∧ start calls i + c.size ≤ pos ∧ pos < start calls (i + 1)

theorem start_succ {calls : List Call} {i : ℕ} {c : Call} (hc : calls[i]? = some c) :
    start calls (i + 1) = start calls i + 8 * c.words := by
  rw [start, start, List.take_add_one, hc, wordsTaken, wordsTaken, List.map_append,
    List.sum_append, Nat.mul_add]
  rfl

theorem start_mono (calls : List Call) {i j : ℕ} (hij : i ≤ j) :
    start calls i ≤ start calls j := by
  induction j, hij using Nat.le_induction with
  | base => exact le_rfl
  | succ j _ ih =>
      cases hc : calls[j]? with
      | none =>
          have hlen := List.getElem?_eq_none_iff.mp hc
          have hsame : start calls (j + 1) = start calls j := by
            rw [start, start, List.take_of_length_le hlen, List.take_of_length_le (by omega)]
          rwa [hsame]
      | some c =>
          rw [start_succ hc]
          omega

def Takes (calls : List Call) (i pos : ℕ) : Prop :=
  start calls i ≤ pos ∧ pos < start calls (i + 1)

theorem Takes.unique {calls : List Call} {i j pos : ℕ} (hi : Takes calls i pos)
    (hj : Takes calls j pos) : i = j := by
  rcases hi with ⟨hlow, hhigh⟩
  rcases hj with ⟨hlow', hhigh'⟩
  rcases Nat.lt_trichotomy i j with hlt | heq | hgt
  · have hbefore : start calls (i + 1) ≤ start calls j := start_mono calls hlt
    omega
  · exact heq
  · have hbefore : start calls (j + 1) ≤ start calls i := start_mono calls hgt
    omega

theorem Delivers.takes {calls : List Call} {i pos : ℕ} (hi : Delivers calls i pos) :
    Takes calls i pos := by
  rcases hi with ⟨c, hc, hlow, hhigh⟩
  have hwords := c.words_eq
  refine ⟨hlow, ?_⟩
  rw [start_succ hc]
  omega

theorem Discards.takes {calls : List Call} {i pos : ℕ} (hi : Discards calls i pos) :
    Takes calls i pos := by
  rcases hi with ⟨c, _, hlow, hhigh⟩
  exact ⟨by omega, hhigh⟩

theorem Delivers.unique {calls : List Call} {i j pos : ℕ} (hi : Delivers calls i pos)
    (hj : Delivers calls j pos) : i = j := hi.takes.unique hj.takes

theorem Discards.not_delivered {calls : List Call} {i pos : ℕ} (hi : Discards calls i pos)
    (j : ℕ) : ¬ Delivers calls j pos := by
  intro hj
  have hsame := hi.takes.unique hj.takes
  subst hsame
  rcases hi with ⟨c, hc, hbehind, _⟩
  rcases hj with ⟨c', hc', _, hbefore⟩
  rw [hc, Option.some.injEq] at hc'
  rw [← hc'] at hbefore
  omega

theorem discards_iff {calls : List Call} {i : ℕ} {c : Call} (hc : calls[i]? = some c) :
    (∃ pos, Discards calls i pos) ↔ ¬ 8 ∣ c.size := by
  have hwords := c.words_eq
  have hnext := start_succ hc
  constructor
  · rintro ⟨pos, c', hc', hlow, hhigh⟩ hwhole
    rw [hc, Option.some.injEq] at hc'
    rw [← hc'] at hlow
    omega
  · intro hcut
    exact ⟨start calls i + c.size, c, hc, le_rfl, by omega⟩

/-- Calls for whole words hand out what one call for all of them does. -/
theorem results_flatten (calls : List Call) (hcalls : ∀ c ∈ calls, 8 ∣ c.size) (s : UInt64) :
    (results calls s).1.flatten = (cmfRandombytes (calls.map Call.size).sum s).1 ∧
      (results calls s).2 = (cmfRandombytes (calls.map Call.size).sum s).2 := by
  induction calls generalizing s with
  | nil =>
      rw [List.map_nil, List.sum_nil, cmfRandombytes.eq_1]
      exact ⟨rfl, rfl⟩
  | cons c calls ih =>
      rcases List.forall_mem_cons.mp hcalls with ⟨hc, hrest⟩
      rcases cmfRandombytes_add hc (calls.map Call.size).sum s with ⟨hbytes, hstate⟩
      rcases ih hrest (cmfRandombytes c.size s).2 with ⟨houts, hlast⟩
      have hrun : results (c :: calls) s = ((cmfRandombytes c.size s).1 ::
          (results calls (cmfRandombytes c.size s).2).1,
          (results calls (cmfRandombytes c.size s).2).2) := by
        rw [results, bind_run, bind_run, c.draw_eq]
        rfl
      rw [hrun, List.map_cons, List.sum_cons, ← hbytes, ← hstate, List.flatten_cons, houts, hlast]
      exact ⟨rfl, rfl⟩

/-- A call writes its bytes and advances the stream by whole words; sizes add up
behind whole words, and the rest of a cut word is handed out by no call. -/
theorem granularity_law :
    (∀ (s n : UInt64) (out : ℕ → UInt8),
      Filling.loop n ⟨0, out, s⟩ = (Filling.turn n)^[(n.toNat + 7) / 8] ⟨0, out, s⟩ ∧
      (Filling.loop n ⟨0, out, s⟩).i = n ∧
      (Filling.loop n ⟨0, out, s⟩).state = s + UInt64.ofNat ((n.toNat + 7) / 8) * gamma ∧
      (∀ k < n.toNat, (Filling.loop n ⟨0, out, s⟩).out k =
        (cmfRandombytes n.toNat s).1.getD k 0) ∧
      ∀ k, n.toNat ≤ k → (Filling.loop n ⟨0, out, s⟩).out k = out k) ∧
    (∀ (s : UInt64) (n : ℕ),
      (cmfRandombytes n s).1.length = n ∧
      (cmfRandombytes n s).1 =
        ((List.range ((n + 7) / 8)).flatMap fun i => wordBytes (nthOutput s i)).take n ∧
      (cmfRandombytes n s).2 = s + UInt64.ofNat ((n + 7) / 8) * gamma) ∧
    (∀ (s : UInt64) (n m : ℕ),
      (cmfRandombytes m (cmfRandombytes n s).2).1 =
        ((List.range m).map fun k => streamByte s (8 * ((n + 7) / 8) + k)) ∧
      (8 ∣ n →
        (cmfRandombytes n s).1 ++ (cmfRandombytes m (cmfRandombytes n s).2).1 =
          (cmfRandombytes (n + m) s).1 ∧
        (cmfRandombytes m (cmfRandombytes n s).2).2 = (cmfRandombytes (n + m) s).2)) ∧
    ∀ (s : UInt64) (calls : List Call) (i : ℕ) (c : Call), calls[i]? = some c →
      (results calls s).1[i]? =
        some ((List.range c.size).map fun k => streamByte s (start calls i + k)) ∧
      ((∃ pos, Discards calls i pos) ↔ ¬ 8 ∣ c.size) ∧
      ∀ pos, Discards calls i pos → ∀ j, ¬ Delivers calls j pos := by
  refine ⟨?_, ?_, ?_, ?_⟩
  · intro s n out
    have hloop : Filling.loop n ⟨0, out, s⟩ =
        ⟨n, memcpy out 0 (cmfRandombytes n.toNat s).1, (cmfRandombytes n.toNat s).2⟩ :=
      Filling.loop_eq n ⟨0, out, s⟩ (UInt64.le_iff_toNat_le.mpr (Nat.zero_le _))
    have hlen : (cmfRandombytes n.toNat s).1.length = n.toNat := cmfRandombytes_length _ s
    refine ⟨Filling.loop_turns n ⟨0, out, s⟩, congrArg Filling.i hloop, ?_, ?_, ?_⟩
    · rw [hloop]
      exact cmfRandombytes_state n.toNat s
    · intro k hk
      rw [hloop]
      show memcpy out 0 _ k = _
      rw [memcpy, hlen, if_pos (by omega), Nat.sub_zero]
    · intro k hk
      rw [hloop]
      show memcpy out 0 _ k = _
      rw [memcpy, hlen, if_neg (by omega)]
  · intro s n
    refine ⟨cmfRandombytes_length n s, ?_, cmfRandombytes_state n s⟩
    simp only [nthOutput_eq]
    rw [cmfRandombytes_run]
  · intro s n m
    exact ⟨cmfRandombytes_then n m s, fun hn => cmfRandombytes_add hn m s⟩
  · intro s calls i c hc
    refine ⟨?_, discards_iff hc, fun pos hpos j => hpos.not_delivered j⟩
    rw [results_bytes, hc]
    rfl

theorem granularity_law_twelve :
    (cmfRandombytes 16 7).1 ++ (cmfRandombytes 5 (cmfRandombytes 16 7).2).1 =
      (cmfRandombytes 21 7).1 ∧
    ¬ Delivers [.randombytes 12, .randombytes 8] 1 13 := by
  have hjoined := (granularity_law.2.2.1 7 16 5).2 (by decide)
  have hlost := (granularity_law.2.2.2 7 [.randombytes 12, .randombytes 8] 0 _ rfl).2.2 13
    ⟨_, rfl, by decide, by decide⟩
  exact ⟨hjoined.1, hlost 1⟩

end Engine
end CMFuzz
