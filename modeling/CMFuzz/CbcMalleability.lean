import CMFuzz.BlockModes
import Mathlib.Data.Fintype.Vector

/-!
# Chained blocks with a changed byte

A chain is taken back from its vector and its blocks.  A byte that is changed
in them changes the byte under it one block later and scrambles its own block;
whether the result still carries a filling is told by the last block alone.
-/

namespace CMFuzz
namespace BlockModes

variable {n : ℕ}

/-! ## The filling -/

/-- A filling is told by the bytes at the end. -/
theorem unpad_isSome {m : List UInt8} (h : (unpad n m).isSome = true) :
    ∃ p : ℕ, 1 ≤ p ∧ p ≤ n ∧ p < 256 ∧ ∀ q < p, m.reverse[q]? = some (UInt8.ofNat p) := by
  rw [unpad] at h
  split at h
  case isFalse => exact absurd h Bool.false_ne_true
  case isTrue hfill =>
    rcases hfill with ⟨hpos, hle, hbytes⟩
    refine ⟨(m.getLastD 0).toNat, hpos, hle, UInt8.toNat_lt _, ?_⟩
    intro q hq
    have htake : m.reverse.take (m.getLastD 0).toNat =
        List.replicate (m.getLastD 0).toNat (UInt8.ofNat (m.getLastD 0).toNat) := by
      rw [List.take_reverse, hbytes, List.reverse_replicate]
    have hbyte := congrArg (fun l : List UInt8 => l[q]?) htake
    rw [List.getElem?_take_of_lt hq, List.getElem?_replicate_of_lt hq] at hbyte
    exact hbyte

/-- Only the last `n` bytes matter. -/
theorem unpad_append_isSome {a b : List UInt8} (hb : b.length = n) (hn : 0 < n) :
    (unpad n (a ++ b)).isSome = (unpad n b).isSome := by
  have hlast : (a ++ b).getLastD 0 = b.getLastD 0 := by
    have hne : b ≠ [] := List.ne_nil_of_length_pos (by omega)
    rw [List.getLastD_eq_getLast?, List.getLastD_eq_getLast?, List.getLast?_append_of_ne_nil _ hne]
  rw [unpad, unpad, hlast]
  by_cases hp : (b.getLastD 0).toNat ≤ n
  · have hdrop : (a ++ b).drop ((a ++ b).length - (b.getLastD 0).toNat) =
        b.drop (b.length - (b.getLastD 0).toNat) := by
      rw [List.length_append, Nat.add_sub_assoc (by omega), List.drop_append,
        List.drop_of_length_le (by omega), Nat.add_sub_cancel_left, List.nil_append]
    rw [hdrop]
    split
    · rfl
    · rfl
  · rw [if_neg (fun h => hp h.2.1), if_neg (fun h => hp h.2.1)]

/-- The end of a filled text. -/
theorem pkcs7_drop (m : List UInt8) :
    (pkcs7 n m).drop (n * (m.length / n)) = pkcs7 n (m.drop (n * (m.length / n))) := by
  have hdiv := Nat.div_add_mod m.length n
  have hmod : (m.drop (n * (m.length / n))).length % n = m.length % n := by
    rw [List.length_drop]
    have hrest : m.length - n * (m.length / n) = m.length % n := by omega
    rw [hrest, Nat.mod_mod]
  rw [pkcs7, pkcs7, hmod, List.drop_append_of_le_length (by omega)]

theorem pkcs7_short_length {r : List UInt8} (hr : r.length < n) : (pkcs7 n r).length = n := by
  rw [pkcs7, List.length_append, List.length_replicate, Nat.mod_eq_of_lt hr]
  omega

section

variable (hn' : n < 256) {r : List UInt8} (hr : r.length < n) {j : ℕ}

include hn'

/-- A byte of the text may change under its filling. -/
theorem unpad_modify_text (hn : 0 < n) (hj : j < r.length) (f : UInt8 → UInt8) :
    (unpad n ((pkcs7 n r).modify j f)).isSome = true := by
  have hfill : (pkcs7 n r).modify j f = pkcs7 n (r.modify j f) := by
    rw [pkcs7, modify_append_left _ hj, pkcs7, List.length_modify]
  rw [hfill, unpad_pkcs7 hn hn']
  rfl

include hr

/-- The lowest bit of a filling byte may not. -/
theorem unpad_modify_filling (hj : r.length ≤ j) (hj' : j < n) :
    (unpad n ((pkcs7 n r).modify j (· ^^^ 1))).isSome = false := by
  have hlength : ((pkcs7 n r).modify j (· ^^^ 1)).length = n := by
    rw [List.length_modify, pkcs7_short_length hr]
  have hmod := Nat.mod_eq_of_lt hr
  have hbyte : ∀ q, q < n - r.length → ((pkcs7 n r).modify j (· ^^^ 1)).reverse[q]? =
      some (if j = n - 1 - q then UInt8.ofNat (n - r.length) ^^^ 1
        else UInt8.ofNat (n - r.length)) := by
    intro q hq
    rw [List.getElem?_reverse (by omega), hlength, List.getElem?_modify, pkcs7, hmod,
      List.getElem?_append_right (by omega), List.getElem?_replicate_of_lt (by omega)]
    rfl
  have hvalue : (UInt8.ofNat (n - r.length)).toNat = n - r.length := by
    rw [UInt8.toNat_ofNat', Nat.mod_eq_of_lt (by omega)]
  have hflip : UInt8.ofNat (n - r.length) ^^^ 1 ≠ UInt8.ofNat (n - r.length) := by
    intro heq
    exact absurd ((UInt8.xor_right_inj _).mp (heq.trans UInt8.xor_zero.symm)) (by decide)
  by_contra hsome
  rcases unpad_isSome (Bool.not_eq_false _ ▸ hsome) with ⟨p, hpos, hle, hp, hend⟩
  have hpbyte : (UInt8.ofNat p).toNat = p := by
    rw [UInt8.toNat_ofNat', Nat.mod_eq_of_lt (by omega)]
  have hlast := (hbyte 0 (by omega)).symm.trans (hend 0 (by omega))
  by_cases hjlast : j = n - 1
  · -- The last byte tells a filling of another length.
    rw [if_pos (by omega)] at hlast
    have hvalue' := Option.some.inj hlast
    by_cases hone : n - r.length = 1
    · rw [hone] at hvalue'
      have hzero := congrArg UInt8.toNat hvalue'
      rw [hpbyte] at hzero
      have hnil : (UInt8.ofNat 1 ^^^ 1).toNat = 0 := rfl
      omega
    · by_cases htwo : p = 1
      · rw [htwo] at hvalue'
        have hnil : UInt8.ofNat (n - r.length) = UInt8.ofNat 1 ^^^ 1 := by
          rw [← hvalue', UInt8.xor_assoc, UInt8.xor_self, UInt8.xor_zero]
        have hzero := congrArg UInt8.toNat hnil
        rw [hvalue] at hzero
        have hnil' : (UInt8.ofNat 1 ^^^ 1).toNat = 0 := rfl
        omega
      · have hnext := (hbyte 1 (by omega)).symm.trans (hend 1 (by omega))
        rw [if_neg (by omega)] at hnext
        exact hflip (hvalue'.trans (Option.some.inj hnext).symm)
  · -- The filling keeps its length, and the byte is in it.
    rw [if_neg (by omega)] at hlast
    have hsame := Option.some.inj hlast
    have hlen : p = n - r.length := by
      have hnat := congrArg UInt8.toNat hsame
      omega
    have hchanged := (hbyte (n - 1 - j) (by omega)).symm.trans (hend (n - 1 - j) (by omega))
    rw [if_pos (by omega)] at hchanged
    exact hflip ((Option.some.inj hchanged).trans hsame.symm)

end

/-! ## The last block -/

theorem unchain_length {decrypt : List UInt8 → List UInt8}
    (hdecrypt : ∀ b, b.length = n → (decrypt b).length = n) {k : ℕ} {iv c : List UInt8}
    (hiv : iv.length = n) (hc : c.length = n * k) :
    (unchain n decrypt k iv c).length = n * k := by
  induction k generalizing iv c with
  | zero => rfl
  | succ k ih =>
      have hfirst : (c.take n).length = n := by
        rw [List.length_take, hc, Nat.mul_succ]
        omega
      have hrest : (c.drop n).length = n * k := by
        rw [List.length_drop, hc, Nat.mul_succ, Nat.add_sub_cancel]
      rw [unchain, List.length_append, xorBytes_length, hiv, hdecrypt _ hfirst, Nat.min_self,
        ih hfirst hrest, Nat.mul_succ, Nat.add_comm]

/-- The last block comes from the last two of the chain, its vector included. -/
theorem unchain_last (decrypt : List UInt8 → List UInt8) {k : ℕ} {iv c : List UInt8}
    (hiv : iv.length = n) (hc : c.length = n * (k + 1)) :
    unchain n decrypt (k + 1) iv c = unchain n decrypt k iv (c.take (n * k)) ++
      xorBytes (((iv ++ c).drop (n * k)).take n)
        (decrypt (((iv ++ c).drop (n * (k + 1))).take n)) := by
  induction k generalizing iv c with
  | zero =>
      rw [unchain, unchain, unchain, Nat.mul_zero, List.drop_zero, List.take_left' hiv,
        Nat.zero_add, Nat.mul_one, List.drop_left' hiv, List.append_nil, List.nil_append]
  | succ k ih =>
      have hfirst : (c.take n).length = n := by
        rw [List.length_take, hc, Nat.mul_succ]
        omega
      have hrest : (c.drop n).length = n * (k + 1) := by
        rw [List.length_drop, hc, Nat.mul_succ, Nat.add_sub_cancel]
      have hshift : ∀ i, (iv ++ c).drop (n * (i + 1)) = (c.take n ++ c.drop n).drop (n * i) := by
        intro i
        rw [List.take_append_drop, Nat.mul_succ, Nat.add_comm, ← List.drop_drop,
          List.drop_left' hiv]
      have htake : (c.take (n * (k + 1))).take n = c.take n := by
        rw [List.take_take, Nat.min_eq_left (Nat.le_mul_of_pos_right n k.succ_pos)]
      have hdrop : (c.take (n * (k + 1))).drop n = (c.drop n).take (n * k) := by
        rw [List.drop_take, Nat.mul_succ, Nat.add_sub_cancel]
      rw [unchain, ih hfirst hrest, hshift, hshift, unchain, htake, hdrop, List.append_assoc]

/-! ## A changed byte -/

/-- A function on blocks that can be taken back reaches every block. -/
theorem Invertible.decrypt_length {encrypt decrypt : List UInt8 → List UInt8}
    (hinv : Invertible n encrypt decrypt) (b : List UInt8) (hb : b.length = n) :
    (decrypt b).length = n := by
  have hfinite : Finite UInt8 := Finite.of_injective UInt8.toFin fun _ _ h => UInt8.toFin_inj.mp h
  have hinjective : Function.Injective fun a : List.Vector UInt8 n =>
      (⟨encrypt a.1, hinv.length a.1 a.2⟩ : List.Vector UInt8 n) := by
    intro a a' heq
    exact Subtype.ext (hinv.blockCipher.injective a.1 a'.1 a.2 a'.2 (Subtype.mk.inj heq))
  rcases Finite.surjective_of_injective hinjective ⟨b, hb⟩ with ⟨a, ha⟩
  have hencrypt : encrypt a.1 = b := Subtype.mk.inj ha
  rw [← hencrypt, hinv.decrypt_encrypt a.1 a.2]
  exact a.2

theorem xorBytes_modify_left {a : List UInt8} (b : List UInt8) {j : ℕ} (c : UInt8) :
    xorBytes (a.modify j (· ^^^ c)) b = (xorBytes a b).modify j (· ^^^ c) := by
  apply List.ext_getElem?
  intro i
  rw [xorBytes, xorBytes, List.getElem?_zipWith, List.getElem?_modify, List.getElem?_modify,
    List.getElem?_zipWith]
  cases ha : a[i]? with
  | none => rfl
  | some x =>
      cases hb : b[i]? with
      | none => rfl
      | some y =>
          by_cases hij : j = i
          · simp only [hij, if_true, Option.map_eq_map, Option.map_some]
            rw [UInt8.xor_assoc, UInt8.xor_comm c, ← UInt8.xor_assoc]
          · simp only [hij, if_false, Option.map_eq_map, Option.map_some]

section

variable {encrypt decrypt : List UInt8 → List UInt8} (hinv : Invertible n encrypt decrypt)
  (hn : 0 < n) {iv : List UInt8} (hiv : iv.length = n) (m : List UInt8)

include hinv hn hiv

theorem cbc_stream_length :
    (iv ++ cbc n encrypt iv m).length = n * (m.length / n + 2) := by
  rw [List.length_append, hiv, cbc_length hinv.blockCipher hn hiv, Nat.mul_succ, Nat.mul_succ,
    Nat.mul_succ]
  omega

/-- What the last two blocks of a chain decrypt to. -/
theorem cbc_last_block :
    xorBytes (((iv ++ cbc n encrypt iv m).drop (n * (m.length / n))).take n)
        (decrypt (((iv ++ cbc n encrypt iv m).drop (n * (m.length / n + 1))).take n)) =
      pkcs7 n (m.drop (n * (m.length / n))) := by
  have hcbc := cbc_length hinv.blockCipher hn hiv m
  have hpad := pkcs7_length hn m
  have hopen : unchain n decrypt (m.length / n + 1) iv (cbc n encrypt iv m) = pkcs7 n m := by
    rw [cbc, hpad, Nat.mul_div_cancel_left _ hn]
    exact unchain_chain hinv hiv hpad
  have hprefix : ((cbc n encrypt iv m).take (n * (m.length / n))).length = n * (m.length / n) := by
    rw [List.length_take, hcbc, Nat.mul_succ]
    omega
  rw [unchain_last decrypt hiv hcbc] at hopen
  rw [← pkcs7_drop, ← hopen,
    List.drop_left' (unchain_length hinv.decrypt_length hiv hprefix)]

/-- A lowest bit that is flipped before the last block leaves the filling
alone exactly when it is under a byte of the text. -/
theorem cbcOpen_flip (hn' : n < 256) {j : ℕ} (hj : j < n * (m.length / n + 1)) :
    (cbcOpen n decrypt (((iv ++ cbc n encrypt iv m).modify j (· ^^^ 1)).take n)
      (((iv ++ cbc n encrypt iv m).modify j (· ^^^ 1)).drop n)).isSome = decide (j < m.length) := by
  have hlength := cbc_stream_length hinv hn hiv m
  have hlast := cbc_last_block hinv hn hiv m
  generalize hs : iv ++ cbc n encrypt iv m = s at hlength hlast ⊢
  have hdiv := Nat.div_add_mod m.length n
  have hmod := Nat.mod_lt m.length hn
  have hrest : (m.drop (n * (m.length / n))).length = m.length % n := by
    rw [List.length_drop]
    omega
  have hflipped : (s.modify j (· ^^^ 1)).length = n * (m.length / n + 2) := by
    rw [List.length_modify, hlength]
  have hvector : ((s.modify j (· ^^^ 1)).take n).length = n := by
    rw [List.length_take, hflipped, Nat.mul_succ]
    omega
  have hblocks : ((s.modify j (· ^^^ 1)).drop n).length = n * (m.length / n + 1) := by
    rw [List.length_drop, hflipped, Nat.mul_succ, Nat.add_sub_cancel]
  have hscrambled : ((s.modify j (· ^^^ 1)).drop (n * (m.length / n + 1))) =
      s.drop (n * (m.length / n + 1)) := List.drop_modify_of_lt _ _ _ _ hj
  have hshort : (m.drop (n * (m.length / n))).length < n := by omega
  have hfill := pkcs7_short_length hshort
  rw [cbcOpen, hblocks, Nat.mul_div_cancel_left _ hn, unchain_last decrypt hvector hblocks,
    List.take_append_drop, hscrambled]
  by_cases hearly : j < n * (m.length / n)
  · rw [List.drop_modify_of_lt _ _ _ _ hearly, hlast, unpad_append_isSome hfill hn,
      unpad_pkcs7 hn hn', decide_eq_true (by omega)]
    rfl
  · have hblock : ((s.modify j (· ^^^ 1)).drop (n * (m.length / n))).take n =
        ((s.drop (n * (m.length / n))).take n).modify (j - n * (m.length / n)) (· ^^^ 1) := by
      rw [List.drop_modify_of_ge _ _ _ _ (not_lt.mp hearly), List.take_modify]
    rw [hblock, xorBytes_modify_left, hlast,
      unpad_append_isSome (by rw [List.length_modify, hfill]) hn]
    rw [Nat.mul_succ] at hj
    by_cases htext : j < m.length
    · rw [decide_eq_true htext]
      exact unpad_modify_text hn' hn (by omega) _
    · rw [decide_eq_false htext]
      exact unpad_modify_filling hn' hshort (by omega) (by omega)

end

end BlockModes
end CMFuzz
