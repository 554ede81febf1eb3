import Mathlib.Tactic
import Mathlib.Data.List.DropRight

/-!
# Byte strings, big-endian lengths and hexadecimal text

The codecs of this file are independent of any wire format.  Hexadecimal text
is decoded through an arbitrary reading of symbols as digits, so that one
round-trip theorem serves every decoder whose digit table contains the
lower-case digits.
-/

namespace CMFuzz
namespace ByteCodec

abbrev Bytes := List UInt8

def ascii (text : String) : Bytes :=
  text.toList.map fun c => UInt8.ofNat c.toNat

def decimal (n : ℕ) : Bytes :=
  (Nat.toDigits 10 n).map fun c => UInt8.ofNat c.toNat

theorem getD_drop (p : Bytes) (off i : ℕ) (default : UInt8) :
    (p.drop off).getD i default = p.getD (off + i) default := by
  rw [List.getD_eq_getElem?_getD, List.getD_eq_getElem?_getD, List.getElem?_drop]

/-! ## Sixteen-bit big-endian lengths -/

def be16 (hi lo : UInt8) : ℕ := hi.toNat <<< 8 ||| lo.toNat

def putBe16 (n : ℕ) : Bytes :=
  [UInt8.ofNat (n >>> 8), UInt8.ofNat (n &&& 0xFF)]

@[simp] theorem putBe16_length (n : ℕ) : (putBe16 n).length = 2 := rfl

theorem be16_eq (hi lo : UInt8) : be16 hi lo = 256 * hi.toNat + lo.toNat := by
  unfold be16
  rw [← Nat.shiftLeft_add_eq_or_of_lt (b := lo.toNat) (i := 8) lo.toNat_lt,
    Nat.shiftLeft_eq]
  omega

theorem be16_putBe16 {n : ℕ} (hn : n < 65536) :
    be16 (UInt8.ofNat (n >>> 8)) (UInt8.ofNat (n &&& 0xFF)) = n := by
  have hlow : n &&& 0xFF = n % 256 := by
    simpa using Nat.and_two_pow_sub_one_eq_mod n 8
  rw [be16_eq, hlow, Nat.shiftRight_eq_div_pow, UInt8.toNat_ofNat',
    UInt8.toNat_ofNat']
  omega

/-! ## Hexadecimal text -/

def HEX : Bytes := ascii "0123456789abcdef"

def hexDigit (n : ℕ) : UInt8 := HEX.getD n 0

def hexPair (b : UInt8) : Bytes :=
  [hexDigit (b.toNat >>> 4), hexDigit (b.toNat &&& 15)]

def hexEncode (data : Bytes) : Bytes := data.flatMap hexPair

@[simp] theorem hexEncode_nil : hexEncode [] = [] := rfl

@[simp] theorem hexEncode_cons (b : UInt8) (data : Bytes) :
    hexEncode (b :: data) =
      hexDigit (b.toNat >>> 4) :: hexDigit (b.toNat &&& 15) :: hexEncode data := rfl

@[simp] theorem hexEncode_length (data : Bytes) :
    (hexEncode data).length = 2 * data.length := by
  induction data with
  | nil => rfl
  | cons b data ih =>
      simp only [hexEncode_cons, List.length_cons, ih]
      omega

theorem shiftRight_four_lt (b : UInt8) : b.toNat >>> 4 < 16 := by
  have hb := b.toNat_lt
  rw [Nat.shiftRight_eq_div_pow]
  omega

theorem and_fifteen_lt (b : UInt8) : b.toNat &&& 15 < 16 := by
  have hmod : b.toNat &&& 15 = b.toNat % 16 := by
    simpa using Nat.and_two_pow_sub_one_eq_mod b.toNat 4
  omega

theorem join_halves (b : UInt8) :
    UInt8.ofNat ((b.toNat >>> 4) <<< 4 ||| (b.toNat &&& 15)) = b := by
  have hlow : b.toNat &&& 15 = b.toNat % 2 ^ 4 :=
    Nat.and_two_pow_sub_one_eq_mod b.toNat 4
  have hlt : b.toNat % 2 ^ 4 < 2 ^ 4 := Nat.mod_lt _ (by norm_num)
  have hjoin : (b.toNat >>> 4) <<< 4 ||| (b.toNat &&& 15) = b.toNat := by
    rw [hlow, ← Nat.shiftLeft_add_eq_or_of_lt hlt, Nat.shiftLeft_eq,
      Nat.shiftRight_eq_div_pow]
    omega
  rw [hjoin, UInt8.ofNat_toNat]

theorem mem_hexEncode {data : Bytes} {c : UInt8} (hc : c ∈ hexEncode data) :
    ∃ n < 16, c = hexDigit n := by
  obtain ⟨b, _, hpair⟩ := List.mem_flatMap.mp hc
  simp only [hexPair, List.mem_cons, List.not_mem_nil, or_false] at hpair
  rcases hpair with rfl | rfl
  · exact ⟨_, shiftRight_four_lt b, rfl⟩
  · exact ⟨_, and_fifteen_lt b, rfl⟩

theorem not_mem_hexEncode {data : Bytes} {c : UInt8}
    (hc : ∀ n < 16, hexDigit n ≠ c) : c ∉ hexEncode data := by
  intro hmem
  obtain ⟨n, hn, heq⟩ := mem_hexEncode hmem
  exact hc n hn heq.symm

/-- Decode symbols two at a time; a last unpaired symbol is ignored. -/
def decodePairs {α : Type*} (value : α → Option ℕ) : List α → Option Bytes
  | hi :: lo :: rest => do
      let h ← value hi
      let l ← value lo
      let data ← decodePairs value rest
      some (UInt8.ofNat (h <<< 4 ||| l) :: data)
  | _ => some []

/-- Any reading of symbols that knows the sixteen lower-case digits decodes
hexadecimal text to the bytes it was written from. -/
theorem decodePairs_hexEncode {α : Type*} {value : α → Option ℕ}
    {symbol : UInt8 → α}
    (hvalue : ∀ n < 16, value (symbol (hexDigit n)) = some n) (data : Bytes) :
    decodePairs value ((hexEncode data).map symbol) = some data := by
  induction data with
  | nil => rfl
  | cons b data ih =>
      have hhi := hvalue _ (shiftRight_four_lt b)
      have hlo := hvalue _ (and_fifteen_lt b)
      simp only [hexEncode_cons, List.map_cons, decodePairs, hhi, hlo, ih,
        Option.bind_eq_bind, Option.bind_some, join_halves]

theorem hexEncode_injective : Function.Injective hexEncode := by
  let value : UInt8 → Option ℕ := fun c => some (HEX.idxOf c)
  have hvalue : ∀ n < 16, value (id (hexDigit n)) = some n := by decide
  intro left right heq
  have hleft := decodePairs_hexEncode hvalue left
  have hright := decodePairs_hexEncode hvalue right
  rw [heq, hright] at hleft
  exact (Option.some.inj hleft).symm

end ByteCodec
end CMFuzz
