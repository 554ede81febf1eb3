import Mathlib.Tactic

/-!
# Modes of block and stream ciphers

Bytes under a keystream, and blocks chained over a function on blocks.  The
two facts a reuse of a nonce or an initialisation vector turns on: a keystream
that is used twice cancels, and the first block of a chain tells its
initialisation vector.  Chains of an invertible function are taken back block
by block.
-/

namespace CMFuzz
namespace BlockModes

/-! ## Keystreams -/

def xorStream (keystream : ℕ → UInt8) (m : List UInt8) : List UInt8 :=
  m.mapIdx fun i b => b ^^^ keystream i

@[simp] theorem xorStream_length (keystream : ℕ → UInt8) (m : List UInt8) :
    (xorStream keystream m).length = m.length := List.length_mapIdx

theorem xorStream_getD (keystream : ℕ → UInt8) {m : List UInt8} {i : ℕ}
    (hi : i < m.length) :
    (xorStream keystream m).getD i 0 = m.getD i 0 ^^^ keystream i := by
  rw [List.getD_eq_getElem?_getD, xorStream, List.getElem?_mapIdx,
    List.getD_eq_getElem?_getD, List.getElem?_eq_getElem hi]
  rfl

theorem xorStream_xorStream (keystream : ℕ → UInt8) (m : List UInt8) :
    xorStream keystream (xorStream keystream m) = m := by
  apply List.ext_getElem?
  intro i
  rw [xorStream, xorStream, List.getElem?_mapIdx, List.getElem?_mapIdx, Option.map_map]
  have hcancel : ((fun b : UInt8 => b ^^^ keystream i) ∘ fun b => b ^^^ keystream i) = id := by
    funext b
    exact (UInt8.xor_assoc _ _ _).trans
      ((congrArg (b ^^^ ·) UInt8.xor_self).trans UInt8.xor_zero)
  rw [hcancel, Option.map_id, id]

/-- Two texts under one keystream show their difference. -/
theorem xorStream_cancel (keystream : ℕ → UInt8) {m m' : List UInt8} {i : ℕ}
    (hi : i < m.length) (hi' : i < m'.length) :
    (xorStream keystream m).getD i 0 ^^^ (xorStream keystream m').getD i 0 =
      m.getD i 0 ^^^ m'.getD i 0 := by
  rw [xorStream_getD keystream hi, xorStream_getD keystream hi',
    UInt8.xor_comm (m'.getD i 0), ← UInt8.xor_assoc, UInt8.xor_assoc (m.getD i 0),
    UInt8.xor_self, UInt8.xor_zero]

/-! ## Chained blocks -/

theorem modify_xor_ne {x : List UInt8} {i : ℕ} {m : UInt8} (hi : i < x.length) (hm : m ≠ 0) :
    x.modify i (· ^^^ m) ≠ x := by
  intro heq
  have hbyte := congrArg (fun l : List UInt8 => l[i]?) heq
  simp only [List.getElem?_modify_eq, List.getElem?_eq_getElem hi, Option.map_eq_map,
    Option.map_some, Option.some.injEq] at hbyte
  exact hm ((UInt8.xor_right_inj x[i]).mp (hbyte.trans UInt8.xor_zero.symm))

theorem modify_append_right {α : Type} (l l' : List α) (i : ℕ) (f : α → α) :
    (l ++ l').modify (l.length + i) f = l ++ l'.modify i f :=
  List.modifyTailIdx_add _ i l l'

theorem modify_append_left {α : Type} {l : List α} (l' : List α) {i : ℕ} (hi : i < l.length)
    (f : α → α) : (l ++ l').modify i f = l.modify i f ++ l' := by
  induction l generalizing i with
  | nil => cases hi
  | cons a l ih =>
      cases i with
      | zero => rfl
      | succ i => exact congrArg (a :: ·) (ih (Nat.succ_lt_succ_iff.mp hi))

def xorBytes (a b : List UInt8) : List UInt8 := List.zipWith (· ^^^ ·) a b

theorem xorBytes_length (a b : List UInt8) :
    (xorBytes a b).length = min a.length b.length := List.length_zipWith

theorem xorBytes_cancel {a a' b : List UInt8} (ha : a.length = b.length)
    (ha' : a'.length = b.length) (heq : xorBytes a b = xorBytes a' b) : a = a' := by
  apply List.ext_getElem (ha.trans ha'.symm)
  intro i hi hi'
  have hib : i < b.length := ha ▸ hi
  have hbyte : a[i] ^^^ b[i] = a'[i] ^^^ b[i] := by
    have hget := congrArg (fun bytes : List UInt8 => bytes[i]?) heq
    simpa [xorBytes, List.getElem?_zipWith, hi, hi', hib] using hget
  exact (UInt8.xor_left_inj b[i]).mp hbyte

/-- Fill up to whole blocks of `n` bytes, with at least one byte that tells how
many were filled in. -/
def pkcs7 (n : ℕ) (m : List UInt8) : List UInt8 :=
  m ++ List.replicate (n - m.length % n) (UInt8.ofNat (n - m.length % n))

/-- `k` blocks of `n` bytes, each encrypted together with the result of the one
before it. -/
def chain (n : ℕ) (encrypt : List UInt8 → List UInt8) : ℕ → List UInt8 → List UInt8 → List UInt8
  | 0, _, _ => []
  | k + 1, iv, m =>
      let c := encrypt (xorBytes iv (m.take n))
      c ++ chain n encrypt k c (m.drop n)

def cbc (n : ℕ) (encrypt : List UInt8 → List UInt8) (iv m : List UInt8) : List UInt8 :=
  chain n encrypt ((pkcs7 n m).length / n) iv (pkcs7 n m)

theorem pkcs7_length {n : ℕ} (hn : 0 < n) (m : List UInt8) :
    (pkcs7 n m).length = n * (m.length / n + 1) := by
  have hmod := Nat.mod_lt m.length hn
  have hdiv := Nat.div_add_mod m.length n
  rw [pkcs7, List.length_append, List.length_replicate, Nat.mul_add, Nat.mul_one]
  omega

/-- What `pkcs7` filled up, unless the end is no such filling. -/
def unpad (n : ℕ) (m : List UInt8) : Option (List UInt8) :=
  let p := (m.getLastD 0).toNat
  if 1 ≤ p ∧ p ≤ n ∧ m.drop (m.length - p) = List.replicate p (UInt8.ofNat p) then
    some (m.take (m.length - p))
  else none

def unchain (n : ℕ) (decrypt : List UInt8 → List UInt8) :
    ℕ → List UInt8 → List UInt8 → List UInt8
  | 0, _, _ => []
  | k + 1, iv, c =>
      xorBytes iv (decrypt (c.take n)) ++ unchain n decrypt k (c.take n) (c.drop n)

def cbcOpen (n : ℕ) (decrypt : List UInt8 → List UInt8) (iv c : List UInt8) :
    Option (List UInt8) :=
  unpad n (unchain n decrypt (c.length / n) iv c)

theorem unpad_pkcs7 {n : ℕ} (hn : 0 < n) (hn' : n < 256) (m : List UInt8) :
    unpad n (pkcs7 n m) = some m := by
  have hmod := Nat.mod_lt m.length hn
  obtain ⟨p, hp⟩ : ∃ p, n - m.length % n = p + 1 := ⟨n - m.length % n - 1, by omega⟩
  have hbyte : (UInt8.ofNat (p + 1)).toNat = p + 1 := by
    rw [UInt8.toNat_ofNat', Nat.mod_eq_of_lt (by omega)]
  have hlast : (pkcs7 n m).getLastD 0 = UInt8.ofNat (p + 1) := by
    rw [pkcs7, hp, List.replicate_succ', ← List.append_assoc, List.getLastD_concat]
  have hlen : (pkcs7 n m).length - (p + 1) = m.length := by
    rw [pkcs7, hp, List.length_append, List.length_replicate, Nat.add_sub_cancel]
  rw [unpad, hlast, hbyte, hlen, pkcs7, hp, List.drop_left, List.take_left,
    if_pos ⟨by omega, by omega, rfl⟩]

theorem xorBytes_xorBytes {a b : List UInt8} (hlen : a.length = b.length) :
    xorBytes a (xorBytes a b) = b := by
  apply List.ext_getElem
  · rw [xorBytes_length, xorBytes_length]
    omega
  · intro i hi hi'
    simp only [xorBytes, List.getElem_zipWith, ← UInt8.xor_assoc, UInt8.xor_self, UInt8.zero_xor]

/-- A function that keeps blocks apart, and blocks. -/
structure BlockCipher (n : ℕ) (encrypt : List UInt8 → List UInt8) : Prop where
  length : ∀ b, b.length = n → (encrypt b).length = n
  injective : ∀ b b', b.length = n → b'.length = n → encrypt b = encrypt b' → b = b'

/-- A function on blocks, and the function that takes it back. -/
structure Invertible (n : ℕ) (encrypt decrypt : List UInt8 → List UInt8) : Prop where
  length : ∀ b, b.length = n → (encrypt b).length = n
  decrypt_encrypt : ∀ b, b.length = n → decrypt (encrypt b) = b

theorem Invertible.blockCipher {n : ℕ} {encrypt decrypt : List UInt8 → List UInt8}
    (h : Invertible n encrypt decrypt) : BlockCipher n encrypt where
  length := h.length
  injective b b' hb hb' heq := by
    rw [← h.decrypt_encrypt b hb, heq, h.decrypt_encrypt b' hb']

section

variable {n : ℕ} {encrypt : List UInt8 → List UInt8} (hcipher : BlockCipher n encrypt)

include hcipher

theorem chain_length {k : ℕ} {iv m : List UInt8} (hiv : iv.length = n)
    (hm : m.length = n * k) : (chain n encrypt k iv m).length = n * k := by
  induction k generalizing iv m with
  | zero => rfl
  | succ k ih =>
      have hblock : (xorBytes iv (m.take n)).length = n := by
        rw [xorBytes_length, List.length_take, hiv, hm, Nat.mul_succ]
        omega
      have hc := hcipher.length _ hblock
      have hrest : (m.drop n).length = n * k := by
        rw [List.length_drop, hm, Nat.mul_succ, Nat.add_sub_cancel]
      rw [chain, List.length_append, hc, ih hc hrest, Nat.mul_succ, Nat.add_comm]

theorem cbc_length (hn : 0 < n) {iv : List UInt8} (hiv : iv.length = n) (m : List UInt8) :
    (cbc n encrypt iv m).length = n * (m.length / n + 1) := by
  have hpad := pkcs7_length hn m
  rw [cbc, hpad, Nat.mul_div_cancel_left _ hn]
  exact chain_length hcipher hiv hpad

/-- Two chains over one message that start alike start from one vector. -/
theorem cbc_iv_injective (hn : 0 < n) {iv iv' : List UInt8} (hiv : iv.length = n)
    (hiv' : iv'.length = n) {m : List UInt8}
    (heq : cbc n encrypt iv m = cbc n encrypt iv' m) : iv = iv' := by
  have hpad := pkcs7_length hn m
  have hfirst : ((pkcs7 n m).take n).length = n := by
    rw [List.length_take, hpad, Nat.mul_succ]
    omega
  have hblock : ∀ v : List UInt8, v.length = n →
      (xorBytes v ((pkcs7 n m).take n)).length = n := by
    intro v hv
    rw [xorBytes_length, hv, hfirst, Nat.min_self]
  rw [cbc, cbc, hpad, Nat.mul_div_cancel_left _ hn, chain, chain] at heq
  have hcipher_eq := List.append_inj_left heq
    ((hcipher.length _ (hblock iv hiv)).trans (hcipher.length _ (hblock iv' hiv')).symm)
  have hxor := hcipher.injective _ _ (hblock iv hiv) (hblock iv' hiv') hcipher_eq
  exact xorBytes_cancel (hiv.trans hfirst.symm) (hiv'.trans hfirst.symm) hxor

end

section

variable {n : ℕ} {encrypt decrypt : List UInt8 → List UInt8}
  (hinv : Invertible n encrypt decrypt)

include hinv

theorem unchain_chain {k : ℕ} {iv m : List UInt8} (hiv : iv.length = n)
    (hm : m.length = n * k) : unchain n decrypt k iv (chain n encrypt k iv m) = m := by
  induction k generalizing iv m with
  | zero =>
      rw [Nat.mul_zero, List.length_eq_zero_iff] at hm
      rw [hm]
      rfl
  | succ k ih =>
      have htake : (m.take n).length = n := by
        rw [List.length_take, hm, Nat.mul_succ]
        omega
      have hblock : (xorBytes iv (m.take n)).length = n := by
        rw [xorBytes_length, htake, hiv, Nat.min_self]
      have hc := hinv.length _ hblock
      have hrest : (m.drop n).length = n * k := by
        rw [List.length_drop, hm, Nat.mul_succ, Nat.add_sub_cancel]
      rw [chain, unchain, List.take_left' hc, List.drop_left' hc,
        hinv.decrypt_encrypt _ hblock, xorBytes_xorBytes (hiv.trans htake.symm), ih hc hrest,
        List.take_append_drop]

theorem cbcOpen_cbc (hn : 0 < n) (hn' : n < 256) {iv : List UInt8} (hiv : iv.length = n)
    (m : List UInt8) : cbcOpen n decrypt iv (cbc n encrypt iv m) = some m := by
  have hpad := pkcs7_length hn m
  rw [cbcOpen, cbc_length hinv.blockCipher hn hiv, cbc, hpad, Nat.mul_div_cancel_left _ hn,
    unchain_chain hinv hiv hpad, unpad_pkcs7 hn hn']

end

end BlockModes
end CMFuzz
