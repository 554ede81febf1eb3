import CMFuzz.BufferAccess
import CMFuzz.FuzzEngine
import CMFuzz.HpkeHarness

/-!
# Runs of the byte reader

A reader is at a place of its input that zeros follow without end: whatever the
calls, together they return an initial part of that stream, and the reader does
not go past the input.  Three harnesses cut what is left of the input into
additional data and a message.
-/

namespace CMFuzz
namespace Engine

open ByteCodec
open Buffer

/-! ## Zeros after the input -/

/-- The first `n` bytes of `data` followed by zeros. -/
def padded (data : Bytes) (n : ℕ) : Bytes := data.take n ++ List.replicate (n - data.length) 0

theorem padded_length (data : Bytes) (n : ℕ) : (padded data n).length = n := by
  rw [padded, List.length_append, List.length_take, List.length_replicate]
  omega

theorem padded_zero (data : Bytes) : padded data 0 = [] := by
  rw [padded, List.take_zero, Nat.zero_sub, List.replicate_zero, List.append_nil]

theorem padded_of_le {data : Bytes} {n : ℕ} (hn : n ≤ data.length) :
    padded data n = data.take n := by
  rw [padded, Nat.sub_eq_zero_of_le hn, List.replicate_zero, List.append_nil]

theorem padded_nil (n : ℕ) : padded [] n = List.replicate n 0 := by
  rw [padded, List.take_nil, List.nil_append, List.length_nil, Nat.sub_zero]

theorem padded_add (data : Bytes) (m n : ℕ) :
    padded data (m + n) = padded data m ++ padded (data.drop m) n := by
  rcases le_total data.length m with hall | hsome
  · have hdrop : data.drop m = [] := List.drop_of_length_le hall
    have hzeros : m + n - data.length = (m - data.length) + n := by omega
    rw [hdrop, padded_nil, padded, padded, List.take_of_length_le hall,
      List.take_of_length_le (by omega), hzeros, ← List.replicate_append_replicate,
      List.append_assoc]
  · have hzeros : m + n - data.length = n - (data.drop m).length := by
      rw [List.length_drop]
      omega
    rw [padded_of_le hsome, padded, padded, List.take_add, hzeros, List.append_assoc]

/-! ## Calls -/

inductive Read where
  | u8
  | u32
  | rest
  deriving DecidableEq, Repr

def be32 (v : UInt32) : Bytes :=
  [(v >>> 24).toUInt8, (v >>> 16).toUInt8, (v >>> 8).toUInt8, v.toUInt8]

def Read.call : Read → Reader → Bytes × Reader
  | .u8, r => ([(cmfU8 r).1], (cmfU8 r).2)
  | .u32, r => (be32 (cmfU32 r).1, (cmfU32 r).2)
  | .rest, r => cmfRest r

def Read.size (r : Reader) : Read → ℕ
  | .u8 => 1
  | .u32 => 4
  | .rest => r.data.length - r.pos

def Read.run : List Read → Reader → Bytes × Reader
  | [], r => ([], r)
  | c :: calls, r =>
      let (out, r) := c.call r
      let (outs, r) := Read.run calls r
      (out ++ outs, r)

/-- What `cmf_rest` hands out, with the subtraction of a `size_t`. -/
def restSpan (r : Reader) : Span :=
  ⟨r.pos, (UInt64.ofNat r.data.length - UInt64.ofNat r.pos).toNat⟩

def Reader.Inside (r : Reader) : Prop := r.pos ≤ r.data.length

def Reader.skip (r : Reader) (n : ℕ) : Reader := { r with pos := min (r.pos + n) r.data.length }

/-! ## One call -/

theorem Reader.Inside.skip (r : Reader) (n : ℕ) : (r.skip n).Inside := min_le_right _ _

theorem Reader.skip_skip {r : Reader} (m n : ℕ) : (r.skip m).skip n = r.skip (m + n) := by
  rw [Reader.skip, Reader.skip, Reader.skip]
  congr 1
  show min (min (r.pos + m) r.data.length + n) r.data.length = _
  omega

theorem drop_skip (r : Reader) (n : ℕ) :
    (r.skip n).data.drop (r.skip n).pos = (r.data.drop r.pos).drop n := by
  rw [List.drop_drop]
  show r.data.drop (min (r.pos + n) r.data.length) = _
  rcases le_total (r.pos + n) r.data.length with hle | hge
  · rw [min_eq_left hle]
  · rw [min_eq_right hge, List.drop_length, List.drop_of_length_le hge]

theorem cmfU8_spec {r : Reader} (hr : r.Inside) :
    [(cmfU8 r).1] = padded (r.data.drop r.pos) 1 ∧ (cmfU8 r).2 = r.skip 1 := by
  rw [Reader.Inside] at hr
  rw [cmfU8]
  split
  · rename_i hlt
    have hpos : min (r.pos + 1) r.data.length = r.pos + 1 := min_eq_left hlt
    rw [Reader.skip, hpos, padded_of_le (by rw [List.length_drop]; omega),
      List.drop_eq_getElem_cons hlt, List.getD_eq_getElem?_getD,
      List.getElem?_eq_getElem hlt]
    exact ⟨rfl, rfl⟩
  · rename_i hge
    have hpos : min (r.pos + 1) r.data.length = r.pos := by omega
    rw [Reader.skip, hpos, List.drop_of_length_le (by omega)]
    exact ⟨rfl, rfl⟩

theorem shift_toNat (v : UInt32) (b : UInt8) :
    ((v <<< 8) ||| b.toUInt32).toNat = v.toNat % 2 ^ 24 * 256 + b.toNat := by
  have height : UInt32.toNat 8 % 32 = 8 := rfl
  have hshift : (v <<< 8).toNat = v.toNat % 2 ^ 24 * 256 := by
    rw [UInt32.toNat_shiftLeft, Nat.shiftLeft_eq, height]
    omega
  have hor := Nat.shiftLeft_add_eq_or_of_lt (i := 8) b.toNat_lt (v.toNat % 2 ^ 24)
  rw [Nat.shiftLeft_eq] at hor
  rw [UInt32.toNat_or, hshift, UInt8.toNat_toUInt32]
  exact hor.symm

theorem toUInt8_shiftRight {k : UInt32} {n : ℕ} (hk : k.toNat = n) (hn : n < 32)
    (v : UInt32) : (v >>> k).toUInt8 = UInt8.ofNat (v.toNat / 2 ^ n) := by
  apply UInt8.toNat_inj.mp
  rw [UInt32.toNat_toUInt8, UInt32.toNat_shiftRight, UInt8.toNat_ofNat',
    Nat.shiftRight_eq_div_pow, hk, Nat.mod_eq_of_lt hn]

def word32 (b0 b1 b2 b3 : UInt8) : UInt32 :=
  let shift := fun (v : UInt32) (b : UInt8) => (v <<< 8) ||| b.toUInt32
  shift (shift (shift (shift 0 b0) b1) b2) b3

theorem word32_toNat (b0 b1 b2 b3 : UInt8) :
    (word32 b0 b1 b2 b3).toNat =
      ((b0.toNat * 256 + b1.toNat) * 256 + b2.toNat) * 256 + b3.toNat := by
  have h0 := b0.toNat_lt
  have h1 := b1.toNat_lt
  have h2 := b2.toNat_lt
  rw [word32, shift_toNat, shift_toNat, shift_toNat, shift_toNat, UInt32.toNat_zero]
  omega

theorem be32_word32 (b0 b1 b2 b3 : UInt8) : be32 (word32 b0 b1 b2 b3) = [b0, b1, b2, b3] := by
  have h0 := b0.toNat_lt
  have h1 := b1.toNat_lt
  have h2 := b2.toNat_lt
  have h3 := b3.toNat_lt
  have hbyte : ∀ {m : ℕ} {b : UInt8}, m % 256 = b.toNat → UInt8.ofNat m = b := by
    intro m b hm
    apply UInt8.toNat_inj.mp
    rw [UInt8.toNat_ofNat', hm]
  have hlast : ∀ v : UInt32, v.toUInt8 = UInt8.ofNat v.toNat := by
    intro v
    apply UInt8.toNat_inj.mp
    rw [UInt32.toNat_toUInt8, UInt8.toNat_ofNat']
  rw [be32, toUInt8_shiftRight (n := 24) rfl (by decide),
    toUInt8_shiftRight (n := 16) rfl (by decide), toUInt8_shiftRight (n := 8) rfl (by decide),
    hlast, word32_toNat]
  rw [hbyte (b := b0) (by omega), hbyte (b := b1) (by omega), hbyte (b := b2) (by omega),
    hbyte (b := b3) (by omega)]

theorem word32_be32 (v : UInt32) :
    word32 (v >>> 24).toUInt8 (v >>> 16).toUInt8 (v >>> 8).toUInt8 v.toUInt8 = v := by
  have hv := v.toNat_lt
  apply UInt32.toNat_inj.mp
  rw [word32_toNat, toUInt8_shiftRight (n := 24) rfl (by decide),
    toUInt8_shiftRight (n := 16) rfl (by decide), toUInt8_shiftRight (n := 8) rfl (by decide),
    UInt32.toNat_toUInt8]
  simp only [UInt8.toNat_ofNat']
  omega

theorem cmfU32_spec {r : Reader} (hr : r.Inside) :
    be32 (cmfU32 r).1 = padded (r.data.drop r.pos) 4 ∧ (cmfU32 r).2 = r.skip 4 := by
  rcases cmfU8_spec hr with ⟨hb0, hr0⟩
  rcases cmfU8_spec (Reader.Inside.skip r 1) with ⟨hb1, hr1⟩
  rcases cmfU8_spec (Reader.Inside.skip r 2) with ⟨hb2, hr2⟩
  rcases cmfU8_spec (Reader.Inside.skip r 3) with ⟨hb3, hr3⟩
  rw [drop_skip] at hb1 hb2 hb3
  rw [Reader.skip_skip] at hr1 hr2 hr3
  have hread : cmfU32 r = (word32 (cmfU8 r).1 (cmfU8 (r.skip 1)).1 (cmfU8 (r.skip 2)).1
      (cmfU8 (r.skip 3)).1, r.skip 4) := by
    simp only [cmfU32, hr0, hr1, hr2, hr3, word32]
  have hbytes : ∀ d : Bytes, padded d 4 = padded d 1 ++ padded (d.drop 1) 1 ++
      padded (d.drop 2) 1 ++ padded (d.drop 3) 1 := by
    intro d
    rw [← padded_add, ← padded_add, ← padded_add]
  constructor
  · rw [hread, be32_word32, hbytes, ← hb0, ← hb1, ← hb2, ← hb3]
    rfl
  · rw [hread]

theorem cmfRest_spec {r : Reader} (hr : r.Inside) :
    (cmfRest r).1 = padded (r.data.drop r.pos) (r.data.length - r.pos) ∧
      (cmfRest r).2 = r.skip (r.data.length - r.pos) := by
  rw [Reader.Inside] at hr
  have hpos : min (r.pos + (r.data.length - r.pos)) r.data.length = r.data.length := by omega
  have hlen : r.data.length - r.pos = (r.data.drop r.pos).length := List.length_drop.symm
  rw [Reader.skip, hpos, hlen, padded_of_le le_rfl, List.take_length]
  exact ⟨rfl, rfl⟩

/-- A call returns the next bytes of the input, and zeros where there are none. -/
theorem Read.call_spec (c : Read) {r : Reader} (hr : r.Inside) :
    (c.call r).1 = padded (r.data.drop r.pos) (c.size r) ∧ (c.call r).2 = r.skip (c.size r) := by
  cases c with
  | u8 => exact cmfU8_spec hr
  | u32 =>
      dsimp only [Read.call, Read.size]
      exact cmfU32_spec hr
  | rest => exact cmfRest_spec hr

/-- `len - pos` does not wrap around. -/
theorem restSpan_len {r : Reader} (hr : r.Inside) (hsize : r.data.length < 2 ^ 64) :
    restSpan r = ⟨r.pos, r.data.length - r.pos⟩ := by
  rw [Reader.Inside] at hr
  rw [restSpan, UInt64.toNat_sub_of_le, UInt64.toNat_ofNat', UInt64.toNat_ofNat',
    Nat.mod_eq_of_lt hsize, Nat.mod_eq_of_lt (by omega)]
  rw [UInt64.le_iff_toNat_le, UInt64.toNat_ofNat', UInt64.toNat_ofNat', Nat.mod_eq_of_lt hsize,
    Nat.mod_eq_of_lt (by omega)]
  exact hr

/-! ## Runs -/

theorem Read.run_skip (calls : List Read) {r : Reader} (hr : r.Inside) :
    (Read.run calls r).1 = padded (r.data.drop r.pos) (Read.run calls r).1.length ∧
      (Read.run calls r).2 = r.skip (Read.run calls r).1.length := by
  induction calls generalizing r with
  | nil =>
      rw [Reader.Inside] at hr
      show [] = padded _ 0 ∧ r = r.skip 0
      rw [padded_zero, Reader.skip, Nat.add_zero, min_eq_left hr]
      exact ⟨rfl, rfl⟩
  | cons c calls ih =>
      rcases c.call_spec hr with ⟨hout, hnext⟩
      have hlen : (c.call r).1.length = c.size r := by rw [hout, padded_length]
      have hrun : Read.run (c :: calls) r = ((c.call r).1 ++ (Read.run calls (c.call r).2).1,
          (Read.run calls (c.call r).2).2) := rfl
      rw [hrun, List.length_append, hlen, hnext]
      rcases ih (Reader.Inside.skip r (c.size r)) with ⟨hrest, hlast⟩
      rw [drop_skip] at hrest
      rw [Reader.skip_skip] at hlast
      constructor
      · rw [padded_add, ← hout, ← hrest]
      · exact hlast

theorem cmfReaderInit_inside (data : Bytes) : (cmfReaderInit data).Inside := Nat.zero_le _

/-- A run returns an initial part of the input and zeros, and stops where that
part ends. -/
theorem Read.run_init (data : Bytes) (calls : List Read) :
    (Read.run calls (cmfReaderInit data)).1 =
        padded data (Read.run calls (cmfReaderInit data)).1.length ∧
      (Read.run calls (cmfReaderInit data)).2 =
        ⟨data, min (Read.run calls (cmfReaderInit data)).1.length data.length⟩ := by
  rcases Read.run_skip calls (cmfReaderInit_inside data) with ⟨hout, hlast⟩
  refine ⟨hout, ?_⟩
  rw [hlast, Reader.skip, cmfReaderInit, Nat.zero_add]

/-! ## Slices -/

def Span.bytes (data : Bytes) (s : Span) : Bytes := (data.drop s.off).take s.len

/-- Where a harness takes its additional data and its message from. -/
structure Slices where
  aad : Span
  msg : Span
  deriving DecidableEq, Repr

/-- `split % (rem + 1)` bytes of what is left, and the bytes after them. -/
def splitRest (split : UInt8) (p : ℕ) (rem : ℕ) : Slices :=
  let adn := if rem ≠ 0 then split.toNat % (rem + 1) else 0
  ⟨⟨p, adn⟩, ⟨p + adn, rem - adn⟩⟩

/-- `LLVMFuzzerTestOneInput` of `diff_multilib_harness`, up to the tests. -/
def diffMultilibSlices (data : Bytes) : Option (ℕ × Slices) :=
  if data.length < 8 then none
  else
    let (op, r) := cmfU8 (cmfReaderInit data)
    let (split, r) := cmfU8 r
    let rem := (restSpan r).len
    let adn := if rem ≠ 0 then split.toNat % (rem + 1) else 0
    let adn := if rem < adn then rem else adn
    let p := (restSpan r).off
    some (op.toNat % 10, ⟨⟨p, adn⟩, ⟨p + adn, rem - adn⟩⟩)

/-- `LLVMFuzzerTestOneInput` of `trad_metamorphic_harness`, up to the tests. -/
def tradMetamorphicSlices (data : Bytes) : Option (ℕ × Slices) :=
  if data.length < 4 then none
  else
    let (op, r) := cmfU8 (cmfReaderInit data)
    let (split, r) := cmfU8 r
    some (op.toNat % 4, splitRest split (restSpan r).off (restSpan r).len)

/-- `LLVMFuzzerTestOneInput` of `comp_hpke_harness`, up to the key exchange: the
tamper flag and the slices of `info` and the message. -/
def compHpkeSlices (data : Bytes) : Option (UInt8 × Slices) :=
  if data.length < 6 then none
  else
    let (split, r) := cmfU8 (cmfReaderInit data)
    let (tflag, r) := cmfU8 r
    let rem := (restSpan r).len
    let rem := if 2048 < rem then 2048 else rem
    some (tflag, splitRest split (restSpan r).off rem)

/-- Two slices that lie inside the input, one behind the other, and are
together the first `cap` bytes of what the two reads left. -/
structure Slices.Tile (s : Slices) (data : Bytes) (split : UInt8) (cap : ℕ) : Prop where
  start : s.aad.off = 2
  share : s.aad.len = split.toNat % (min cap (data.length - 2) + 1)
  meet : s.aad.stop = s.msg.off
  inside : s.msg.stop ≤ data.length
  whole : Span.bytes data s.aad ++ Span.bytes data s.msg = (data.drop 2).take cap

theorem two_reads {data : Bytes} (hdata : 2 ≤ data.length) :
    cmfU8 (cmfReaderInit data) = (data.getD 0 0, ⟨data, 1⟩) ∧
      cmfU8 ⟨data, 1⟩ = (data.getD 1 0, ⟨data, 2⟩) := by
  have hfirst : (cmfReaderInit data).pos < (cmfReaderInit data).data.length := by
    show 0 < data.length
    omega
  have hsecond : (Reader.mk data 1).pos < (Reader.mk data 1).data.length := hdata
  rw [cmfU8, cmfU8, if_pos hfirst, if_pos hsecond]
  exact ⟨rfl, rfl⟩

theorem restSpan_two {data : Bytes} (hdata : 2 ≤ data.length) (hsize : data.length < 2 ^ 64) :
    restSpan ⟨data, 2⟩ = ⟨2, data.length - 2⟩ :=
  restSpan_len (r := ⟨data, 2⟩) hdata hsize

theorem adn_eq (split : UInt8) (rem : ℕ) :
    (if rem ≠ 0 then split.toNat % (rem + 1) else 0) = split.toNat % (rem + 1) := by
  split
  · rfl
  · rename_i hzero
    rw [not_not.mp hzero, Nat.zero_add, Nat.mod_one]

theorem splitRest_eq (split : UInt8) (p rem : ℕ) :
    splitRest split p rem = ⟨⟨p, split.toNat % (rem + 1)⟩,
      ⟨p + split.toNat % (rem + 1), rem - split.toNat % (rem + 1)⟩⟩ := by
  rw [splitRest, adn_eq]

theorem splitRest_tile (split : UInt8) {data : Bytes} (cap : ℕ) (hdata : 2 ≤ data.length) :
    (splitRest split 2 (min cap (data.length - 2))).Tile data split cap := by
  have hle := Nat.lt_succ_iff.mp (Nat.mod_lt split.toNat
    (Nat.succ_pos (min cap (data.length - 2))))
  rw [splitRest_eq]
  refine ⟨rfl, rfl, rfl, ?_, ?_⟩
  · show 2 + _ + (_ - _) ≤ data.length
    rw [Nat.add_assoc, Nat.add_sub_cancel' hle]
    omega
  · show (data.drop 2).take _ ++ (data.drop (2 + _)).take _ = _
    rw [← List.drop_drop, ← List.take_add, Nat.add_sub_cancel' hle, ← List.length_drop]
    exact List.take_eq_take_min.symm

theorem diffMultilibSlices_tile {data : Bytes} {op : ℕ} {s : Slices}
    (hsize : data.length < 2 ^ 64) (hs : diffMultilibSlices data = some (op, s)) :
    s.Tile data (data.getD 1 0) data.length := by
  rw [diffMultilibSlices] at hs
  split at hs
  · cases hs
  · have hdata : 2 ≤ data.length := by omega
    have hrem : data.length - 2 = min data.length (data.length - 2) := by omega
    have hclamp : ∀ split : UInt8, ¬ data.length - 2 < split.toNat % (data.length - 2 + 1) :=
      fun split => not_lt.mpr (Nat.lt_succ_iff.mp (Nat.mod_lt _ (Nat.succ_pos _)))
    have htile := splitRest_tile (data.getD 1 0) data.length hdata
    rw [← hrem, splitRest_eq] at htile
    simp only [two_reads hdata, restSpan_two hdata hsize, adn_eq, if_neg (hclamp _),
      Option.some.injEq, Prod.mk.injEq] at hs
    rw [← hs.2]
    exact htile

theorem tradMetamorphicSlices_tile {data : Bytes} {op : ℕ} {s : Slices}
    (hsize : data.length < 2 ^ 64) (hs : tradMetamorphicSlices data = some (op, s)) :
    s.Tile data (data.getD 1 0) data.length := by
  rw [tradMetamorphicSlices] at hs
  split at hs
  · cases hs
  · have hdata : 2 ≤ data.length := by omega
    have hrem : data.length - 2 = min data.length (data.length - 2) := by omega
    have htile := splitRest_tile (data.getD 1 0) data.length hdata
    rw [← hrem] at htile
    simp only [two_reads hdata, restSpan_two hdata hsize, Option.some.injEq,
      Prod.mk.injEq] at hs
    rw [← hs.2]
    exact htile

theorem compHpkeSlices_tile {data : Bytes} {tflag : UInt8} {s : Slices}
    (hsize : data.length < 2 ^ 64) (hs : compHpkeSlices data = some (tflag, s)) :
    s.Tile data (data.getD 0 0) 2048 := by
  rw [compHpkeSlices] at hs
  split at hs
  · cases hs
  · have hdata : 2 ≤ data.length := by omega
    have hcap : (if 2048 < data.length - 2 then 2048 else data.length - 2) =
        min 2048 (data.length - 2) := by
      split <;> omega
    have htile := splitRest_tile (data.getD 0 0) 2048 hdata
    simp only [two_reads hdata, restSpan_two hdata hsize, hcap, Option.some.injEq,
      Prod.mk.injEq] at hs
    rw [← hs.2]
    exact htile

theorem diffMultilibSlices_isSome (data : Bytes) :
    (diffMultilibSlices data).isSome = true ↔ 8 ≤ data.length :=
  Option.isSome_ite'.trans not_lt

theorem tradMetamorphicSlices_isSome (data : Bytes) :
    (tradMetamorphicSlices data).isSome = true ↔ 4 ≤ data.length :=
  Option.isSome_ite'.trans not_lt

theorem compHpkeSlices_isSome (data : Bytes) :
    (compHpkeSlices data).isSome = true ↔ 6 ≤ data.length :=
  Option.isSome_ite'.trans not_lt

/-- The harness for HPKE works on the bytes of its slices. -/
theorem compHpkeSlices_parse {data : Bytes} {tflag : UInt8} {s : Slices}
    (hsize : data.length < 2 ^ 64) (hs : compHpkeSlices data = some (tflag, s)) :
    Hpke.parse data = ⟨tflag, Span.bytes data s.aad, Span.bytes data s.msg⟩ := by
  have htile := compHpkeSlices_tile hsize hs
  rw [compHpkeSlices] at hs
  split at hs
  · cases hs
  · have hdata : 2 ≤ data.length := by omega
    simp only [two_reads hdata, restSpan_two hdata hsize, Option.some.injEq,
      Prod.mk.injEq] at hs
    have hrem : ((data.drop 2).take 2048).length = min 2048 (data.length - 2) := by
      rw [List.length_take, List.length_drop]
    have hinfo : s.aad.len ≤ ((data.drop 2).take 2048).length := by
      rw [hrem, htile.share]
      exact Nat.lt_succ_iff.mp (Nat.mod_lt _ (Nat.succ_pos _))
    have haad : Span.bytes data s.aad = ((data.drop 2).take 2048).take s.aad.len := by
      rw [List.length_take] at hinfo
      rw [Span.bytes, htile.start, List.take_take, min_eq_left (by omega)]
    have hmsg : Span.bytes data s.msg = ((data.drop 2).take 2048).drop s.aad.len := by
      have hwhole := htile.whole
      rw [haad] at hwhole
      exact List.append_cancel_left (hwhole.trans (List.take_append_drop s.aad.len _).symm)
    have hparse : Hpke.parse data = ⟨tflag, ((data.drop 2).take 2048).take s.aad.len,
        ((data.drop 2).take 2048).drop s.aad.len⟩ := by
      rw [htile.share, ← hrem]
      simp only [Hpke.parse, two_reads hdata, adn_eq, cmfRest, hs.1]
    rw [hparse, haad, hmsg]

/-- The reader never leaves the input and loses nothing of it: the harnesses cut
every input that is long enough for them, and their slices tile what is left. -/
theorem reader_stays_inside {data : Bytes} (hsize : data.length < 2 ^ 64) :
    (∀ (calls : List Read) (out : Bytes) (r : Reader),
      Read.run calls (cmfReaderInit data) = (out, r) →
        r.data = data ∧ r.pos ≤ data.length ∧ r.pos = min out.length data.length ∧
        out = data.take out.length ++ List.replicate (out.length - data.length) 0 ∧
        restSpan r = ⟨r.pos, data.length - r.pos⟩ ∧
        ∀ c : Read,
          (c.call r).1 = (data.drop r.pos).take (c.size r) ++
            List.replicate (c.size r - (data.length - r.pos)) 0 ∧
          (c.call r).2 = ⟨data, min (r.pos + c.size r) data.length⟩) ∧
    (((diffMultilibSlices data).isSome = true ↔ 8 ≤ data.length) ∧
      ((tradMetamorphicSlices data).isSome = true ↔ 4 ≤ data.length) ∧
      ((compHpkeSlices data).isSome = true ↔ 6 ≤ data.length)) ∧
    (∀ op s, diffMultilibSlices data = some (op, s) →
      s.Tile data (data.getD 1 0) data.length) ∧
    (∀ op s, tradMetamorphicSlices data = some (op, s) →
      s.Tile data (data.getD 1 0) data.length) ∧
    ∀ tflag s, compHpkeSlices data = some (tflag, s) → s.Tile data (data.getD 0 0) 2048 := by
  refine ⟨?_, ⟨diffMultilibSlices_isSome data, tradMetamorphicSlices_isSome data,
      compHpkeSlices_isSome data⟩, fun op s => diffMultilibSlices_tile hsize,
    fun op s => tradMetamorphicSlices_tile hsize, fun tflag s => compHpkeSlices_tile hsize⟩
  intro calls out r hrun
  rcases Read.run_init data calls with ⟨hout, hlast⟩
  rw [hrun] at hout hlast
  have hdata : r.data = data := congrArg Reader.data hlast
  have hpos : r.pos = min out.length data.length := congrArg Reader.pos hlast
  have hinside : r.Inside := by
    rw [Reader.Inside, hdata, hpos]
    exact min_le_right _ _
  have hle : r.pos ≤ data.length := by rwa [Reader.Inside, hdata] at hinside
  refine ⟨hdata, hle, hpos, hout, ?_, ?_⟩
  · have hspan := restSpan_len hinside (by rwa [hdata])
    rwa [hdata] at hspan
  · intro c
    rcases c.call_spec hinside with ⟨hbytes, hnext⟩
    rw [padded, hdata, List.length_drop] at hbytes
    rw [Reader.skip, hdata] at hnext
    exact ⟨hbytes, hnext⟩

theorem reader_stays_inside_eight :
    let data : Bytes := [1, 2, 3, 4, 5, 6, 7, 8]
    (Read.run [.u8, .u32, .u32] (cmfReaderInit data)).2.pos ≤ 8 ∧
    (∃ op s, diffMultilibSlices data = some (op, s) ∧ s.Tile data 2 8) ∧
    (∃ op s, tradMetamorphicSlices data = some (op, s) ∧ s.Tile data 2 8) ∧
    ∃ tflag s, compHpkeSlices data = some (tflag, s) ∧ s.Tile data 1 2048 := by
  intro data
  have hsize : data.length < 2 ^ 64 := by decide
  obtain ⟨hreads, ⟨hmultilib, htrad, hhpke⟩, hmultilibTile, htradTile, hhpkeTile⟩ :=
    reader_stays_inside hsize
  refine ⟨(hreads [.u8, .u32, .u32] _ _ Prod.mk.eta.symm).2.1, ?_, ?_, ?_⟩
  · obtain ⟨⟨op, s⟩, hs⟩ := Option.isSome_iff_exists.mp (hmultilib.mpr (by decide))
    exact ⟨op, s, hs, hmultilibTile op s hs⟩
  · obtain ⟨⟨op, s⟩, hs⟩ := Option.isSome_iff_exists.mp (htrad.mpr (by decide))
    exact ⟨op, s, hs, htradTile op s hs⟩
  · obtain ⟨⟨tflag, s⟩, hs⟩ := Option.isSome_iff_exists.mp (hhpke.mpr (by decide))
    exact ⟨tflag, s, hs, hhpkeTile tflag s hs⟩

end Engine
end CMFuzz
