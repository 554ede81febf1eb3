import CMFuzz.RuntimeText
import CMFuzz.WireProtocol

/-!
# What the hexadecimal decoder takes

`cmf_hexdecode` cuts blanks and line ends off and decodes half as many pairs as
there are symbols.  A symbol without a partner is never looked at, so a line cut
in the middle of a byte is decoded as the shorter line; the decoders of the
bridges turn it down.
-/

namespace CMFuzz
namespace Wire

open ByteCodec
open RuntimeText (hexDecode)

/-- The string without the characters the decoder cuts off. -/
def trimmed (s : CString) : Bytes := s.rdropWhile fun c => c = 10 || c = 13 || c = 32

def IsHexDigit (c : UInt8) : Prop := (cmfHexval c).isSome = true

instance (c : UInt8) : Decidable (IsHexDigit c) := inferInstanceAs (Decidable (_ = true))

def toLower (c : UInt8) : UInt8 := if 65 ≤ c ∧ c ≤ 90 then c + 32 else c

/-! ## Pairs of symbols -/

/-- The symbols that have a partner. -/
def paired {α : Type} (t : List α) : List α := t.take (2 * (t.length / 2))

theorem paired_cons {α : Type} (hi lo : α) (rest : List α) :
    paired (hi :: lo :: rest) = hi :: lo :: paired rest := by
  have hhalf : 2 * ((hi :: lo :: rest).length / 2) = 2 * (rest.length / 2) + 2 := by
    rw [List.length_cons, List.length_cons]
    omega
  rw [paired, hhalf, List.take_succ_cons, List.take_succ_cons, paired]

theorem decodePairs_paired {α : Type} (value : α → Option ℕ) (t : List α) :
    decodePairs value (paired t) = decodePairs value t := by
  induction t using decodePairs.induct with
  | case1 hi lo rest ih => rw [paired_cons, decodePairs, decodePairs, ih]
  | case2 t hshort =>
      rcases t with _ | ⟨hi, _ | ⟨lo, rest⟩⟩
      · simp [paired, decodePairs]
      · simp [paired, decodePairs]
      · exact absurd rfl (hshort hi lo rest)

theorem decodePairs_isSome_iff {α : Type} (value : α → Option ℕ) (t : List α) :
    (decodePairs value t).isSome = true ↔ ∀ c ∈ paired t, (value c).isSome = true := by
  induction t using decodePairs.induct with
  | case1 hi lo rest ih =>
      rw [paired_cons, decodePairs, List.forall_mem_cons, List.forall_mem_cons, ← ih]
      cases value hi with
      | none => simp
      | some h =>
          cases value lo with
          | none => simp
          | some l => cases decodePairs value rest <;> simp
  | case2 t hshort =>
      rcases t with _ | ⟨hi, _ | ⟨lo, rest⟩⟩
      · simp [paired, decodePairs]
      · simp [paired, decodePairs]
      · exact absurd rfl (hshort hi lo rest)

theorem hexDigit_of_value {c : UInt8} {h : ℕ} (hvalue : cmfHexval c = some h) :
    h < 16 ∧ hexDigit h = toLower c := by
  have hall : ∀ n < 256, ∀ h ∈ cmfHexval (UInt8.ofNat n),
      h < 16 ∧ hexDigit h = toLower (UInt8.ofNat n) := by decide +kernel
  have hc := hall c.toNat c.toNat_lt h
  rw [UInt8.ofNat_toNat] at hc
  exact hc hvalue

theorem halves_join : ∀ h < 16, ∀ l < 16, (UInt8.ofNat (h <<< 4 ||| l)).toNat >>> 4 = h ∧
    (UInt8.ofNat (h <<< 4 ||| l)).toNat &&& 15 = l := by decide

theorem hexEncode_of_decodePairs {t data : Bytes} (heven : t.length % 2 = 0)
    (hdecode : decodePairs cmfHexval t = some data) : hexEncode data = t.map toLower := by
  induction t using decodePairs.induct generalizing data with
  | case1 hi lo rest ih =>
      rw [List.length_cons, List.length_cons] at heven
      simp only [decodePairs, Option.bind_eq_bind, Option.bind_eq_some_iff,
        Option.some.injEq] at hdecode
      rcases hdecode with ⟨h, hhi, l, hlo, tail, htail, rfl⟩
      rcases hexDigit_of_value hhi with ⟨hlt, hdigit⟩
      rcases hexDigit_of_value hlo with ⟨llt, ldigit⟩
      rcases halves_join h hlt l llt with ⟨hhigh, hlow⟩
      rw [hexEncode_cons, hhigh, hlow, hdigit, ldigit, ih (by omega) htail, List.map_cons,
        List.map_cons]
  | case2 t hshort =>
      rcases t with _ | ⟨hi, _ | ⟨lo, rest⟩⟩
      · rw [← Option.some.inj hdecode]
        rfl
      · exact absurd heven one_ne_zero
      · exact absurd rfl (hshort hi lo rest)

/-! ## Accepted strings -/

/-- The decoder takes exactly an even number of digits, and what it decodes
prints as the string it was given. -/
def ExactOn (s : CString) : Prop :=
  ((cmfHexdecode s).isSome = true ↔
    (trimmed s).length % 2 = 0 ∧ ∀ c ∈ trimmed s, IsHexDigit c) ∧
  ∀ data, cmfHexdecode s = some data → hexEncode data = (trimmed s).map toLower

/-- An odd number of symbols, of which only the last may be no digit. -/
def CutInByte (s : CString) : Prop :=
  (trimmed s).length % 2 = 1 ∧ ∀ c ∈ (trimmed s).dropLast, IsHexDigit c

theorem paired_of_even {α : Type} {t : List α} (heven : t.length % 2 = 0) : paired t = t :=
  List.take_of_length_le (by omega)

theorem paired_of_odd {α : Type} {t : List α} (hodd : t.length % 2 = 1) :
    paired t = t.dropLast := by
  rw [paired, List.dropLast_eq_take]
  congr 1
  omega

theorem cmfHexdecode_isSome_iff (s : CString) :
    (cmfHexdecode s).isSome = true ↔ ∀ c ∈ paired (trimmed s), IsHexDigit c :=
  decodePairs_isSome_iff cmfHexval (trimmed s)

/-- The decoder is exact on a string unless it ends in the middle of a byte. -/
theorem cmfHexdecode_exact_iff (s : CString) : ExactOn s ↔ ¬ CutInByte s := by
  constructor
  · rintro ⟨haccepts, _⟩ ⟨hodd, hdigits⟩
    have hsome : (cmfHexdecode s).isSome = true := by
      rw [cmfHexdecode_isSome_iff, paired_of_odd hodd]
      exact hdigits
    have heven := (haccepts.mp hsome).1
    omega
  · intro hwhole
    rcases Nat.mod_two_eq_zero_or_one (trimmed s).length with heven | hodd
    · constructor
      · rw [cmfHexdecode_isSome_iff, paired_of_even heven]
        exact ⟨fun hdigits => ⟨heven, hdigits⟩, fun h => h.2⟩
      · intro data hdata
        exact hexEncode_of_decodePairs heven hdata
    · have hnone : ¬ (cmfHexdecode s).isSome = true := by
        rw [cmfHexdecode_isSome_iff, paired_of_odd hodd]
        exact fun hdigits => hwhole ⟨hodd, hdigits⟩
      constructor
      · constructor
        · exact fun hsome => absurd hsome hnone
        · intro h
          omega
      · intro data hdata
        exact absurd (Option.isSome_of_mem hdata) hnone

theorem cmfHexdecode_odd : ¬ ∀ s : CString, ExactOn s := by
  intro hexact
  have hsome : (cmfHexdecode (ascii "abc")).isSome = true := by decide
  have heven := ((hexact (ascii "abc")).1.mp hsome).1
  exact absurd heven (by decide)

/-! ## Cut requests -/

theorem hexEncode_take (data : Bytes) (k : ℕ) :
    (hexEncode data).take (2 * k) = hexEncode (data.take k) := by
  induction data generalizing k with
  | nil => simp
  | cons b data ih =>
      cases k with
      | zero => rfl
      | succ k =>
          rw [Nat.mul_succ, hexEncode_cons, List.take_succ_cons, List.take_succ_cons, ih,
            List.take_succ_cons, hexEncode_cons]

theorem trimmed_of_digits {t : Bytes} (hdigits : ∀ c ∈ t, IsHexDigit c) : trimmed t = t := by
  rw [trimmed, List.rdropWhile_eq_self_iff]
  intro hne hlast
  have hhex := hdigits _ (List.getLast_mem hne)
  generalize t.getLast hne = c at hlast hhex
  simp only [Bool.or_eq_true, decide_eq_true_eq] at hlast
  rcases hlast with (rfl | rfl) | rfl
  · exact absurd hhex (by decide)
  · exact absurd hhex (by decide)
  · exact absurd hhex (by decide)

/-- The hexadecimal field of a request, cut in the middle of byte `k`, is decoded
as the request of the bytes before it; the decoder of the Go and Rust bridges
turns it down. -/
theorem cut_request_decodes {data : Bytes} {k : ℕ} (hk : k < data.length) :
    cmfHexdecode ((hexEncode data).take (2 * k + 1)) = some (data.take k) ∧
      hexDecode (((hexEncode data).take (2 * k + 1)).map UInt8.toNat) = none := by
  have hlen : ((hexEncode data).take (2 * k + 1)).length = 2 * k + 1 := by
    rw [List.length_take, hexEncode_length]
    omega
  have hdigits : ∀ c ∈ (hexEncode data).take (2 * k + 1), IsHexDigit c := by
    intro c hc
    obtain ⟨n, hn, rfl⟩ := mem_hexEncode (List.mem_of_mem_take hc)
    rw [IsHexDigit, cmfHexval_hexDigit n hn]
    rfl
  constructor
  · have hpaired : paired ((hexEncode data).take (2 * k + 1)) = hexEncode (data.take k) := by
      rw [paired_of_odd (by omega), List.dropLast_eq_take, hlen, Nat.add_sub_cancel,
        List.take_take, min_eq_left (by omega), hexEncode_take]
    have hwhole : decodePairs cmfHexval ((hexEncode (data.take k)).map id) =
        some (data.take k) := decodePairs_hexEncode cmfHexval_hexDigit (data.take k)
    rw [List.map_id, ← hpaired, decodePairs_paired] at hwhole
    show decodePairs cmfHexval (trimmed _) = some (data.take k)
    rw [trimmed_of_digits hdigits, hwhole]
  · rw [hexDecode, List.length_map, hlen, if_pos (by omega)]

end Wire
end CMFuzz
