import CMFuzz.ByteCodec
import CMFuzz.LineStream

/-!
# Text functions of the bridge runtimes

The Go, Rust, Java and Python bridges lean on their standard libraries for
decoding standard input, cutting it into lines, trimming, and reading decimal
and hexadecimal numbers.  Text is a list of character codes: bytes for Go,
code points for Rust and Python, UTF-16 code units for Java.  The character
set of the platform and the Unicode digit table are parameters.
-/

namespace CMFuzz
namespace RuntimeText

open ByteCodec
open LineStream

abbrev Text := List ℕ

/-- An ASCII byte stands for its own character wherever it occurs, and ASCII
characters come from ASCII bytes only. -/
structure AsciiTransparent (dec : Bytes → Option Text) : Prop where
  nil : dec [] = some []
  append : ∀ (l r : Bytes) (b : UInt8), b < 128 →
    dec (l ++ b :: r) =
      (dec l).bind fun t => (dec r).map fun u => t ++ b.toNat :: u
  not_mem : ∀ (l : Bytes) (t : Text) (b : UInt8),
    dec l = some t → b < 128 → b ∉ l → b.toNat ∉ t

theorem AsciiTransparent.concat {dec : Bytes → Option Text}
    (hdec : AsciiTransparent dec) (l : Bytes) {b : UInt8} (hb : b < 128) :
    dec (l ++ [b]) = (dec l).map (· ++ [b.toNat]) := by
  rw [hdec.append l [] b hb, hdec.nil]
  cases dec l <;> rfl

theorem AsciiTransparent.ascii {dec : Bytes → Option Text}
    (hdec : AsciiTransparent dec) {l : Bytes} (hl : ∀ b ∈ l, b < 128) :
    dec l = some (l.map UInt8.toNat) := by
  induction l using List.reverseRecOn with
  | nil => exact hdec.nil
  | append_singleton l b ih =>
      have hb := hl b (by simp)
      have hrest : ∀ c ∈ l, c < 128 := fun c hc => hl c (by simp [hc])
      rw [hdec.concat l hb, ih hrest]
      simp

/-- The character set of a platform: strict decoding, which may fail, and
decoding with replacement of malformed bytes. -/
structure Charset where
  decode : Bytes → Option Text
  replace : Bytes → Text
  decode_transparent : AsciiTransparent decode
  replace_transparent : AsciiTransparent fun l => some (replace l)

theorem Charset.replace_ascii (charset : Charset) {l : Bytes}
    (hl : ∀ b ∈ l, b < 128) : charset.replace l = l.map UInt8.toNat :=
  Option.some.inj (charset.replace_transparent.ascii hl)

def Charset.usAscii : Charset where
  decode l := if l.all fun b => b < 128 then some (l.map UInt8.toNat) else none
  replace l := l.map fun b => if b < 128 then b.toNat else 0xFFFD
  decode_transparent := {
    nil := by simp
    append := fun l r b hb => by
      have hall : (l ++ b :: r).all (fun c => c < 128) =
          (l.all (fun c => c < 128) && r.all fun c => c < 128) := by
        simp [hb]
      rw [hall]
      cases l.all (fun c => c < 128) with
      | false => simp
      | true =>
          cases r.all (fun c => c < 128) with
          | false => simp
          | true => simp
    not_mem := fun l t b ht hb hmem => by
      split at ht
      · obtain rfl := Option.some.inj ht
        intro hin
        obtain ⟨c, hc, heq⟩ := List.mem_map.mp hin
        exact hmem (UInt8.toNat_inj.mp heq ▸ hc)
      · exact absurd ht (by simp) }
  replace_transparent := {
    nil := rfl
    append := fun l r b hb => by simp [hb]
    not_mem := fun l t b ht hb hmem => by
      obtain rfl := Option.some.inj ht
      intro hin
      obtain ⟨c, hc, heq⟩ := List.mem_map.mp hin
      by_cases hlow : c < 128
      · rw [if_pos hlow] at heq
        exact hmem (UInt8.toNat_inj.mp heq ▸ hc)
      · rw [if_neg hlow] at heq
        have hlt := b.toNat_lt
        omega }

/-! ## Universal newlines -/

/-- Lines ended by LF, CR or CR LF, without their ends, as
`BufferedReader.readLine` of Java cuts them. -/
def universalLines : Text → List Text
  | [] => []
  | 13 :: 10 :: rest => [] :: universalLines rest
  | 13 :: rest => [] :: universalLines rest
  | 10 :: rest => [] :: universalLines rest
  | c :: rest =>
      match universalLines rest with
      | [] => [[c]]
      | line :: more => (c :: line) :: more

theorem universalLines_cons {c : ℕ} (hcr : c ≠ 13) (hlf : c ≠ 10) (rest : Text) :
    universalLines (c :: rest) =
      match universalLines rest with
      | [] => [[c]]
      | line :: more => (c :: line) :: more := by
  rw [universalLines]
  · exact fun _ h _ => hcr h
  · exact fun h => hcr h
  · exact fun h => hlf h

theorem universalLines_cr {c : ℕ} (hlf : c ≠ 10) (rest : Text) :
    universalLines (13 :: c :: rest) = [] :: universalLines (c :: rest) := by
  rw [universalLines]
  exact fun tail heq => hlf (List.cons.inj heq).1

theorem universalLines_ne_nil {text : Text} (htext : text ≠ []) :
    universalLines text ≠ [] := by
  unfold universalLines
  split
  · exact absurd rfl htext
  · simp
  · simp
  · simp
  · split <;> simp

theorem universalLines_append_lf (text rest : Text) :
    universalLines (text ++ 10 :: rest) =
      universalLines (text ++ [10]) ++ universalLines rest := by
  have hextend : ∀ {c : ℕ} {text : Text}, c ≠ 13 → c ≠ 10 →
      universalLines (text ++ 10 :: rest) =
        universalLines (text ++ [10]) ++ universalLines rest →
      universalLines (c :: (text ++ 10 :: rest)) =
        universalLines (c :: (text ++ [10])) ++ universalLines rest := by
    intro c text hcr hlf htext
    have hne : universalLines (text ++ [10]) ≠ [] := universalLines_ne_nil (by simp)
    rw [universalLines_cons hcr hlf, universalLines_cons hcr hlf, htext]
    cases hlines : universalLines (text ++ [10]) with
    | nil => exact absurd hlines hne
    | cons line more => rfl
  fun_induction universalLines text with
  | case1 => rfl
  | case2 text ih => simp [universalLines, ih]
  | case3 text hlf ih =>
      cases text with
      | nil => rfl
      | cons c text =>
          have hc : c ≠ 10 := fun heq => hlf text (by rw [heq])
          rw [List.cons_append, List.cons_append, universalLines_cr hc,
            List.cons_append, List.cons_append, universalLines_cr hc,
            List.cons_append]
          exact congrArg _ ih
  | case4 text ih => simp [universalLines, ih]
  | case5 c text _ hcr hlf _ ih => exact hextend hcr hlf ih
  | case6 c text _ hcr hlf _ _ _ ih => exact hextend hcr hlf ih

def LineEnd (tail : Text) : Prop := tail = [10] ∨ tail = [13, 10] ∨ tail = [13]

theorem universalLines_append_end {text tail : Text} (hcr : 13 ∉ text)
    (hlf : 10 ∉ text) (htail : LineEnd tail) :
    universalLines (text ++ tail) = [text] := by
  induction text with
  | nil => rcases htail with rfl | rfl | rfl <;> rfl
  | cons c text ih =>
      simp only [List.mem_cons, not_or] at hcr hlf
      rw [List.cons_append, universalLines_cons (Ne.symm hcr.1) (Ne.symm hlf.1),
        ih hcr.2 hlf.2]

theorem universalLines_unterminated {text : Text} (hne : text ≠ [])
    (hcr : 13 ∉ text) (hlf : 10 ∉ text) : universalLines text = [text] := by
  induction text with
  | nil => exact absurd rfl hne
  | cons c text ih =>
      simp only [List.mem_cons, not_or] at hcr hlf
      rw [universalLines_cons (Ne.symm hcr.1) (Ne.symm hlf.1)]
      by_cases hrest : text = []
      · subst hrest
        rfl
      · rw [ih hrest hcr.2 hlf.2]

/-! ## Trimming -/

def trim (space : ℕ → Bool) (text : Text) : Text :=
  (text.dropWhile space).rdropWhile space

theorem trim_concat {space : ℕ → Bool} {c : ℕ} (hc : space c = true) (text : Text) :
    trim space (text ++ [c]) = trim space text := by
  unfold trim
  rw [List.dropWhile_append]
  split
  · next hnil =>
      rw [List.isEmpty_iff.mp hnil]
      simp [hc]
  · exact List.rdropWhile_concat_pos _ _ _ hc

theorem trim_eq_self {space : ℕ → Bool} {text : Text}
    (hspace : ∀ c ∈ text, space c = true → c = 32)
    (hhead : text.head? ≠ some 32) (hlast : text.getLast? ≠ some 32) :
    trim space text = text := by
  cases text with
  | nil => rfl
  | cons c rest =>
      have hc : space c = false := by
        by_contra hsp
        have h32 := hspace c List.mem_cons_self (by simpa using hsp)
        exact hhead (by simp [h32])
      unfold trim
      rw [List.dropWhile_cons_of_neg (by simp [hc]), List.rdropWhile_eq_self_iff]
      intro hne hsp
      have h32 := hspace _ (List.getLast_mem hne) hsp
      exact hlast (by rw [List.getLast?_eq_some_getLast hne, h32])

/-- The Unicode property `White_Space`, which `str::trim` of Rust removes. -/
def whiteSpace (c : ℕ) : Bool :=
  (9 ≤ c && c ≤ 13) || c = 32 || c = 0x85 || c = 0xA0 || c = 0x1680 ||
    (0x2000 ≤ c && c ≤ 0x200A) || c = 0x2028 || c = 0x2029 || c = 0x202F ||
    c = 0x205F || c = 0x3000

/-- `str.isspace` of Python, which `str.strip` removes. -/
def pySpace (c : ℕ) : Bool := whiteSpace c || (0x1C ≤ c && c ≤ 0x1F)

/-- `String.trim` of Java removes every symbol up to the blank. -/
def javaSpace (c : ℕ) : Bool := c ≤ 32

/-! ## Numbers

`strconv.Atoi` of Go, `str::parse::<i32>` of Rust, `Integer.parseInt` of Java
and `int` of Python. -/

def symbolValue (c : ℕ) : Option ℕ :=
  if 48 ≤ c ∧ c ≤ 57 then some (c - 48)
  else if 97 ≤ c ∧ c ≤ 102 then some (c - 97 + 10)
  else if 65 ≤ c ∧ c ≤ 70 then some (c - 65 + 10)
  else none

def asciiDigit (radix c : ℕ) : Option ℕ := (symbolValue c).filter (· < radix)

/-- Digits of a runtime that also knows the digits outside ASCII. -/
def digitOf (unicodeDigit : ℕ → ℕ → Option ℕ) (radix c : ℕ) : Option ℕ :=
  if c < 128 then asciiDigit radix c else unicodeDigit radix c

def parseDigits (digit : ℕ → Option ℕ) (radix : ℕ) (text : Text) : Option ℕ :=
  if text = [] then none
  else text.foldlM (fun n c => (digit c).map (radix * n + ·)) 0

def parseSigned (digit : ℕ → Option ℕ) (radix : ℕ) : Text → Option ℤ
  | 43 :: digits => (parseDigits digit radix digits).map fun n : ℕ => (n : ℤ)
  | 45 :: digits => (parseDigits digit radix digits).map fun n : ℕ => -(n : ℤ)
  | digits => (parseDigits digit radix digits).map fun n : ℕ => (n : ℤ)

def inInt32 (v : ℤ) : Bool := -2 ^ 31 ≤ v && v < 2 ^ 31

/-- The loop of `strconv.ParseUint`; `none` is a syntax error.  A number out of
range ends the loop with the greatest value, whatever comes behind. -/
def goParseUint : ℕ → Text → Option ℕ
  | n, [] => some n
  | n, c :: rest =>
      match asciiDigit 10 c with
      | none => none
      | some d =>
          if 2 ^ 64 ≤ 10 * n + d then some (2 ^ 64 - 1) else goParseUint (10 * n + d) rest

/-- The magnitude that `strconv.ParseInt` keeps: `0` on a syntax error, the
bound on a range error. -/
def goMagnitude (bound : ℕ) (digits : Text) : ℕ :=
  if digits = [] then 0 else min ((goParseUint 0 digits).getD 0) bound

/-- `strconv.Atoi` of Go with its error ignored. -/
def goAtoi : Text → ℤ
  | 43 :: digits => goMagnitude (2 ^ 63 - 1) digits
  | 45 :: digits => -goMagnitude (2 ^ 63) digits
  | digits => goMagnitude (2 ^ 63 - 1) digits

theorem le_of_parse {digit : ℕ → Option ℕ} {text : Text} {n m : ℕ}
    (hparse : text.foldlM (fun n c => (digit c).map (10 * n + ·)) n = some m) : n ≤ m := by
  induction text generalizing n with
  | nil => exact (Option.some.inj hparse).le
  | cons c text ih =>
      rw [List.foldlM_cons, Option.bind_eq_bind, Option.bind_eq_some_iff] at hparse
      obtain ⟨next, hnext, hrest⟩ := hparse
      obtain ⟨d, _, rfl⟩ := Option.map_eq_some_iff.mp hnext
      have hle := ih hrest
      omega

theorem goParseUint_of_parse {text : Text} {n m : ℕ}
    (hparse : text.foldlM (fun n c => (asciiDigit 10 c).map (10 * n + ·)) n = some m)
    (hn : n < 2 ^ 64) : goParseUint n text = some (min m (2 ^ 64 - 1)) := by
  induction text generalizing n with
  | nil =>
      obtain rfl := Option.some.inj hparse
      rw [goParseUint, min_eq_left (Nat.le_sub_one_of_lt hn)]
  | cons c text ih =>
      rw [List.foldlM_cons, Option.bind_eq_bind, Option.bind_eq_some_iff] at hparse
      obtain ⟨next, hnext, hrest⟩ := hparse
      obtain ⟨d, hd, rfl⟩ := Option.map_eq_some_iff.mp hnext
      rw [goParseUint, hd]
      dsimp only
      split
      · next hrange =>
          have hle := le_of_parse hrest
          rw [min_eq_right (by omega)]
      · next hrange => exact ih hrest (not_le.mp hrange)

theorem goMagnitude_of_parse {bound m : ℕ} (hbound : bound < 2 ^ 64) {digits : Text}
    (hparse : parseDigits (asciiDigit 10) 10 digits = some m) :
    goMagnitude bound digits = min m bound := by
  unfold parseDigits at hparse
  unfold goMagnitude
  split at hparse
  · exact absurd hparse (by simp)
  · next hne =>
      rw [if_neg hne, goParseUint_of_parse hparse (by decide), Option.getD_some]
      omega

/-- A number is the nearest 64-bit integer. -/
theorem goAtoi_of_parse {text : Text} {v : ℤ}
    (hparse : parseSigned (asciiDigit 10) 10 text = some v) :
    goAtoi text = max (-2 ^ 63) (min v (2 ^ 63 - 1)) := by
  unfold parseSigned at hparse
  split at hparse
  · obtain ⟨m, hm, rfl⟩ := Option.map_eq_some_iff.mp hparse
    rw [goAtoi, goMagnitude_of_parse (by decide) hm]
    omega
  · obtain ⟨m, hm, rfl⟩ := Option.map_eq_some_iff.mp hparse
    rw [goAtoi, goMagnitude_of_parse (by decide) hm]
    omega
  · next hplus hminus =>
      obtain ⟨m, hm, rfl⟩ := Option.map_eq_some_iff.mp hparse
      rw [goAtoi, goMagnitude_of_parse (by decide) hm]
      · omega
      · exact hplus
      · exact hminus

def parseI32 (text : Text) : Option ℤ :=
  (parseSigned (asciiDigit 10) 10 text).filter fun v => inInt32 v

def javaParseInt (unicodeDigit : ℕ → ℕ → Option ℕ) (radix : ℕ) (text : Text) :
    Option ℤ :=
  (parseSigned (digitOf unicodeDigit radix) radix text).filter fun v => inInt32 v

/-- Drop the single underscores Python allows between two digits. -/
def dropUnderscores (digit : ℕ → Option ℕ) : Text → Text
  | c :: 95 :: d :: rest =>
      if (digit c).isSome && (digit d).isSome
        then c :: dropUnderscores digit (d :: rest)
        else c :: 95 :: d :: rest
  | c :: rest => c :: dropUnderscores digit rest
  | [] => []

/-- The default of `sys.get_int_max_str_digits`. -/
def maxStrDigits : ℕ := 4300

/-- `int` of Python; unlike `str.strip` it keeps the ASCII separators. -/
def pyInt (unicodeDigit : ℕ → ℕ → Option ℕ) (text : Text) : Option ℤ :=
  let digit := digitOf unicodeDigit 10
  let digits := dropUnderscores digit (trim whiteSpace text)
  if digits.countP (fun c => (digit c).isSome) > maxStrDigits then none
  else parseSigned digit 10 digits

/-! ## Hexadecimal decoding -/

/-- `hex.DecodeString` of Go and `hex::decode` of Rust: an odd number of
symbols or a symbol that is no digit is an error. -/
def hexDecode (text : Text) : Option Bytes :=
  if text.length % 2 = 1 then none else decodePairs symbolValue text

/-- `bytes.fromhex` of Python: blanks are skipped between bytes. -/
def fromhex : Text → Option Bytes
  | [] => some []
  | [c] => if (9 ≤ c ∧ c ≤ 13) ∨ c = 32 then some [] else none
  | c :: d :: rest =>
      if (9 ≤ c ∧ c ≤ 13) ∨ c = 32 then fromhex (d :: rest)
      else do
        let hi ← symbolValue c
        let lo ← symbolValue d
        let data ← fromhex rest
        some (UInt8.ofNat (hi <<< 4 ||| lo) :: data)

theorem symbolValue_hexDigit :
    ∀ n < 16, symbolValue (hexDigit n).toNat = some n := by decide

theorem hexDecode_hexEncode (data : Bytes) :
    hexDecode ((hexEncode data).map UInt8.toNat) = some data := by
  have heven : ¬ (2 * data.length) % 2 = 1 := by omega
  unfold hexDecode
  rw [List.length_map, hexEncode_length, if_neg heven]
  exact decodePairs_hexEncode symbolValue_hexDigit data

theorem fromhex_hexEncode (data : Bytes) :
    fromhex ((hexEncode data).map UInt8.toNat) = some data := by
  have hblank : ∀ n < 16, ¬ ((9 ≤ (hexDigit n).toNat ∧ (hexDigit n).toNat ≤ 13) ∨
      (hexDigit n).toNat = 32) := by decide
  induction data with
  | nil => rfl
  | cons b data ih =>
      have hhi := symbolValue_hexDigit _ (shiftRight_four_lt b)
      have hlo := symbolValue_hexDigit _ (and_fifteen_lt b)
      simp only [hexEncode_cons, List.map_cons, fromhex,
        if_neg (hblank _ (shiftRight_four_lt b)), hhi, hlo, ih,
        Option.bind_eq_bind, Option.bind_some, join_halves]

end RuntimeText
end CMFuzz
