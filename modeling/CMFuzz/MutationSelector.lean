import CMFuzz.BlockModes
import CMFuzz.ReaderRuns
import CMFuzz.ReplayHarnesses
import CMFuzz.VectorGeneration

/-!
# The bit a mutation test flips

MR2 of `liboqs_kem_harness` and MR3 of `liboqs_sig_harness` take the byte and
the bit they flip from one word of the input, as its remainders by the length
and by eight.  A length that shares a factor with eight leaves some bits out.
-/

namespace CMFuzz
namespace Replay

open BlockModes
open ByteCodec
open Engine
open RandomPrograms
open Runner (flipBit bitMask_ne_zero)

/-! ## One word, two remainders -/

/-- A word with both remainders exists as soon as they agree modulo the common
factor. -/
theorem exists_sel_iff {L off b : ℕ} (hL : L < 2 ^ 29) (hoff : off < L) (hb : b < 8) :
    (∃ sel : UInt32, sel.toNat % L = off ∧ sel.toNat % 8 = b) ↔ off ≡ b [MOD Nat.gcd L 8] := by
  constructor
  · rintro ⟨sel, rfl, rfl⟩
    have hleft := (Nat.mod_modEq sel.toNat L).of_dvd (Nat.gcd_dvd_left L 8)
    have hright := (Nat.mod_modEq sel.toNat 8).of_dvd (Nat.gcd_dvd_right L 8)
    exact hleft.trans hright.symm
  · intro hagree
    have hpos : L ≠ 0 := by omega
    have hbound := Nat.chineseRemainder'_lt_lcm hagree hpos (by decide)
    have hlcm : Nat.lcm L 8 ≤ L * 8 :=
      Nat.le_of_dvd (by omega) (Nat.lcm_dvd (Nat.dvd_mul_right L 8) (Nat.dvd_mul_left 8 L))
    have hsel : (Nat.chineseRemainder' hagree : ℕ) < 2 ^ 32 := by omega
    rcases (Nat.chineseRemainder' hagree).2 with ⟨hmodL, hmod8⟩
    refine ⟨UInt32.ofNat (Nat.chineseRemainder' hagree), ?_, ?_⟩
    · rw [UInt32.toNat_ofNat', Nat.mod_eq_of_lt hsel, hmodL, Nat.mod_eq_of_lt hoff]
    · rw [UInt32.toNat_ofNat', Nat.mod_eq_of_lt hsel, hmod8, Nat.mod_eq_of_lt hb]

theorem forall_modEq_iff {L : ℕ} (hL : 1 ≤ L) :
    (∀ off < L, ∀ b < 8, off ≡ b [MOD Nat.gcd L 8]) ↔ L % 2 = 1 := by
  constructor
  · intro hall
    have hone := hall 0 hL 1 (by decide)
    have hdvd : Nat.gcd L 8 ∣ 1 := (Nat.modEq_iff_dvd' (by decide)).mp hone
    have hodd : Nat.Coprime L 2 := Nat.Coprime.coprime_dvd_right ⟨4, rfl⟩ (Nat.dvd_one.mp hdvd)
    exact Nat.odd_iff.mp (Nat.coprime_two_right.mp hodd)
  · intro hodd off _ b _
    have hcoprime : Nat.Coprime L 2 := Nat.coprime_two_right.mpr (Nat.odd_iff.mpr hodd)
    have hgcd : Nat.gcd L 8 = 1 := hcoprime.pow_right 3
    rw [hgcd]
    exact Nat.modEq_one

/-! ## Flipping a bit -/

/-- `y` is `x` with bit `b` of byte `off` flipped and nothing else. -/
def FlipsExactly (off b : ℕ) (x y : Bytes) : Prop :=
  y.length = x.length ∧
    ∀ i < x.length, ∀ j < 8,
      (y.getD i 0).toNat.testBit j = ((x.getD i 0).toNat.testBit j ^^ decide (i = off ∧ j = b))

theorem selectedBit_eq (sel : UInt32) :
    selectedBit sel = UInt8.ofNat (1 <<< (sel.toNat % 8)) := by
  have hlow : (sel &&& 7).toNat = sel.toNat % 8 := by
    rw [UInt32.toNat_and]
    exact Nat.and_two_pow_sub_one_eq_mod sel.toNat 3
  have hshift : (sel &&& 7).toUInt8 = UInt8.ofNat (sel.toNat % 8) := by
    apply UInt8.toNat_inj.mp
    rw [UInt32.toNat_toUInt8, hlow, UInt8.toNat_ofNat']
  have hall : ∀ k < 8, (1 : UInt8) <<< UInt8.ofNat k = UInt8.ofNat (1 <<< k) := by decide
  rw [selectedBit, hshift]
  exact hall _ (Nat.mod_lt _ (by decide))

theorem selectedBit_ne_zero (sel : UInt32) : selectedBit sel ≠ 0 := by
  rw [selectedBit_eq]
  exact bitMask_ne_zero (Nat.mod_lt _ (by decide))

theorem flipBit_sel (x : Bytes) (sel : UInt32) :
    flipBit x (sel.toNat % x.length) (sel.toNat % 8) =
      x.modify (sel.toNat % x.length) (· ^^^ selectedBit sel) := by
  rw [flipBit, selectedBit_eq]

theorem flipBit_testBit {x : Bytes} {off b i : ℕ} (hb : b < 8) (hi : i < x.length) (j : ℕ) :
    ((flipBit x off b).getD i 0).toNat.testBit j =
      ((x.getD i 0).toNat.testBit j ^^ decide (i = off ∧ j = b)) := by
  have hbit : (UInt8.ofNat (1 <<< b)).toNat = 2 ^ b := by
    rw [UInt8.toNat_ofNat', Nat.one_shiftLeft]
    exact Nat.mod_eq_of_lt (Nat.pow_lt_pow_right (by decide) hb)
  have hi' : i < (flipBit x off b).length := by rwa [flipBit, List.length_modify]
  rw [List.getD_eq_getElem?_getD, List.getElem?_eq_getElem hi', Option.getD_some,
    List.getD_eq_getElem?_getD, List.getElem?_eq_getElem hi, Option.getD_some]
  simp only [flipBit, List.getElem_modify]
  by_cases hoff : off = i
  · rw [if_pos hoff, UInt8.toNat_xor, hbit, Nat.testBit_xor, Nat.testBit_two_pow]
    simp only [hoff, true_and, eq_comm]
  · rw [if_neg hoff]
    simp only [Ne.symm hoff, false_and, decide_false, Bool.xor_false]

theorem flipsExactly_flipBit (x : Bytes) (off : ℕ) {b : ℕ} (hb : b < 8) :
    FlipsExactly off b x (flipBit x off b) :=
  ⟨List.length_modify _ _ _, fun _ hi j _ => flipBit_testBit hb hi j⟩

theorem flipBit_inj {x : Bytes} {off b off' b' : ℕ} (hoff : off < x.length) (hb : b < 8)
    (hb' : b' < 8) (hflips : FlipsExactly off b x (flipBit x off' b')) :
    off' = off ∧ b' = b := by
  have hbit := hflips.2 off hoff b hb
  rw [flipBit_testBit hb' hoff] at hbit
  have hdec := Bool.xor_right_inj.mp hbit
  simp only [and_self, decide_true, decide_eq_true_eq] at hdec
  exact ⟨hdec.1.symm, hdec.2.symm⟩

/-! ## The tests -/

/-- The copy that MR2, with the lowest bit of the mode, and MR3, with the second,
make of a ciphertext or a signature. -/
def mutant (bit : UInt8) (data original : Bytes) : Option Bytes :=
  if data.length < 8 then none
  else
    let input := parse data
    if input.mode &&& bit ≠ 0 then
      some (original.modify (input.sel.toNat % original.length) (· ^^^ selectedBit input.sel))
    else none

theorem mutant_eq_some {bit : UInt8} {data original copy : Bytes} :
    mutant bit data original = some copy ↔ 8 ≤ data.length ∧ (parse data).mode &&& bit ≠ 0 ∧
      flipBit original ((parse data).sel.toNat % original.length)
        ((parse data).sel.toNat % 8) = copy := by
  rw [mutant]
  split
  · rename_i hsmall
    constructor
    · intro h
      cases h
    · intro h
      omega
  · rename_i hlarge
    dsimp only
    rw [flipBit_sel]
    split
    · rename_i hmode
      rw [Option.some.injEq]
      exact ⟨fun h => ⟨by omega, hmode, h⟩, fun h => h.2.2⟩
    · rename_i hmode
      constructor
      · intro h
        cases h
      · intro h
        exact absurd h.2.1 hmode

def selectorInput (mode : UInt8) (sel : UInt32) : Bytes := mode :: (be32 sel ++ [0, 0, 0])

theorem parse_selectorInput (mode : UInt8) (sel : UInt32) :
    parse (selectorInput mode sel) = ⟨mode, sel, [0, 0, 0]⟩ := by
  have hsel := word32_be32 sel
  have hread : parse (selectorInput mode sel) =
      ⟨mode, word32 (sel >>> 24).toUInt8 (sel >>> 16).toUInt8 (sel >>> 8).toUInt8 sel.toUInt8,
        [0, 0, 0]⟩ := rfl
  rw [hread, hsel]

theorem mutant_selectorInput {bit : UInt8} (hbit : bit ≠ 0) (sel : UInt32)
    (original : Bytes) :
    mutant bit (selectorInput bit sel) original =
      some (flipBit original (sel.toNat % original.length) (sel.toNat % 8)) := by
  rw [mutant_eq_some, parse_selectorInput]
  exact ⟨le_rfl, UInt8.and_self.symm ▸ hbit, rfl⟩

/-! ## Runs of the harnesses -/

theorem result_cmfAssert (c : Check) (f : Unit → Exec Unit) (p : Process) :
    (((cmfAssert c).bind f).run oqsRandombytes p).1.result =
      if c.holds then ((f ()).run oqsRandombytes p).1.result else .error (.violation c) := by
  rw [cmfAssert]
  split
  · rfl
  · rfl

/-- A test that may be left out stops where it is made and its assertion fails. -/
theorem assertion_fails {α : Type} {chosen holds : Prop} [Decidable chosen] [Decidable holds]
    (next fail : α) :
    (if chosen then if holds then next else fail else next) =
      if chosen ∧ ¬ holds then fail else next := by
  by_cases hchosen : chosen
  · by_cases hholds : holds
    · rw [if_pos hchosen, if_pos hholds, if_neg (fun h => h.2 hholds)]
    · rw [if_pos hchosen, if_neg hholds, if_pos ⟨hchosen, hholds⟩]
  · rw [if_neg hchosen, if_neg (fun h => hchosen h.1)]

theorem assertion_passes {α : Type} {chosen holds : Prop} [Decidable chosen] [Decidable holds]
    (hpass : chosen → holds) (next fail : α) :
    (if chosen then if holds then next else fail else next) = next := by
  rw [assertion_fails]
  exact if_neg fun h => h.2 (hpass h.1)

/-- A KEM with one key pair and one ciphertext. -/
def fixedKem (name : String) (ct ss : Bytes) (dec : Bytes → Option Bytes) : OqsKem where
  name := name
  enabled := true
  lengthCiphertext := ct.length
  keypair := .done (some ([], []))
  encaps := fun _ => .done (some (ct, ss))
  decaps := fun c _ => .done (dec c)

def malleability (name : String) : Check :=
  ⟨name, "MR2_malleability", "mutated ct yields honest shared secret", false⟩

/-- `fixedKem` decapsulates under any key. -/
def wrongKey (name : String) : Check :=
  ⟨name, "MR3_wrong_key", "foreign sk recovers honest shared secret", false⟩

theorem fixedKem_result {name : String} {ct ss : Bytes} {dec : Bytes → Option Bytes}
    (hdec : dec ct = some ss) (mode : UInt8) (sel : UInt32) (tail : Bytes) (p : Process) :
    ((liboqsKemBody (fixedKem name ct ss dec) mode sel tail).run oqsRandombytes p).1.result =
      if mode &&& 1 ≠ 0 ∧
          dec (ct.modify (sel.toNat % ct.length) (· ^^^ selectedBit sel)) = some ss then
        .error (.violation (malleability name))
      else if mode &&& 2 ≠ 0 then .error (.violation (wrongKey name))
      else .ok () := by
  simp only [liboqsKemBody, keypair, encaps, decaps, fixedKem, Program.call, hdec, Bind.bind,
    Program.bind, Pure.pure, Program.result_emit, Program.result_ite, result_cmfAssert]
  rw [assertion_fails]
  simp only [Option.all_some, decide_true, if_true, ite_self, ne_eq, not_true_eq_false,
    decide_false, Bool.false_eq_true, if_false, decide_eq_true_eq, not_not]
  split
  · rename_i hfires
    simp only [hfires.2, not_true_eq_false, decide_false, malleability]
  · rfl

theorem fixedKem_body {name : String} {ct ss : Bytes} {dec : Bytes → Option Bytes}
    (hdec : dec ct = some ss) (mode : UInt8) (sel : UInt32) (tail : Bytes) (p : Process) :
    ((liboqsKemBody (fixedKem name ct ss dec) mode sel tail).run oqsRandombytes p).1.result =
        .error (.violation (malleability name)) ↔
      mode &&& 1 ≠ 0 ∧
        dec (ct.modify (sel.toNat % ct.length) (· ^^^ selectedBit sel)) = some ss := by
  rw [fixedKem_result hdec]
  split
  · rename_i hfires
    exact iff_of_true rfl hfires
  · rename_i hquiet
    apply iff_of_false _ hquiet
    split
    · simp [wrongKey, malleability]
    · simp

/-- A signature scheme with one key pair and one signature for each message. -/
def fixedSig (name : String) (len : ℕ) (sigOf : Bytes → Bytes)
    (ver : Bytes → Bytes → Bool) : OqsSig where
  name := name
  enabled := true
  lengthSignature := len
  keypair := .done (some ([], []))
  sign := fun m _ => .done (some (sigOf m))
  verify := fun m s _ => .done (ver m s)

def sufViolation (name : String) : Check :=
  ⟨name, "MR3_strong_unforgeability", "mutated signature still verifies (SUF violation)", false⟩

def foreignKey (name : String) : Check :=
  ⟨name, "MR4_wrong_key", "signature verifies under foreign public key", false⟩

theorem fixedSig_result {name : String} {len : ℕ} {sigOf : Bytes → Bytes}
    {ver : Bytes → Bytes → Bool} (hvalid : ∀ m, ver m (sigOf m) = true)
    (hbound : ∀ m m', m' ≠ m → ver m' (sigOf m) = false) (hsig : ∀ m, 0 < (sigOf m).length)
    (mode : UInt8) (sel : UInt32) (tail : Bytes) (p : Process) :
    ((liboqsSigBody (fixedSig name len sigOf ver) mode sel tail).run
          oqsRandombytes p).1.result =
      if mode &&& 2 ≠ 0 ∧ ver (sigMessage tail) ((sigOf (sigMessage tail)).modify
          (sel.toNat % (sigOf (sigMessage tail)).length) (· ^^^ selectedBit sel)) = true then
        .error (.violation (sufViolation name))
      else if mode &&& 4 ≠ 0 then .error (.violation (foreignKey name))
      else .ok () := by
  have hcopy := modify_xor_ne (Nat.mod_lt sel.toNat (hsig (sigMessage tail)))
    (selectedBit_ne_zero sel)
  have hbinding : mode &&& 1 ≠ 0 ∧ 1 < (sigMessage tail).length →
      (!ver ((sigMessage tail).modify (sel.toNat % (sigMessage tail).length) (· ^^^ 1))
        (sigOf (sigMessage tail))) = true := by
    rintro ⟨_, hlen⟩
    rw [hbound _ _ (modify_xor_ne (Nat.mod_lt _ (by omega)) (by decide))]
    rfl
  simp only [liboqsSigBody, sigKeypair, sign, verify, fixedSig, Program.call, Bind.bind,
    Program.bind, Pure.pure, Program.result_emit, Program.result_ite, result_cmfAssert]
  rw [assertion_passes hbinding]
  simp only [hvalid, hcopy, hsig, ne_eq, not_false_eq_true, and_true, if_true]
  rw [assertion_fails]
  simp only [Bool.not_true, Bool.false_eq_true, if_false, ite_self, Bool.not_eq_true',
    Bool.not_eq_false]
  split
  · rename_i hfires
    simp only [hfires.2, Bool.not_true, sufViolation]
  · rfl

theorem fixedSig_body {name : String} {len : ℕ} {sigOf : Bytes → Bytes}
    {ver : Bytes → Bytes → Bool} (hvalid : ∀ m, ver m (sigOf m) = true)
    (hbound : ∀ m m', m' ≠ m → ver m' (sigOf m) = false) (hsig : ∀ m, 0 < (sigOf m).length)
    (mode : UInt8) (sel : UInt32) (tail : Bytes) (p : Process) :
    ((liboqsSigBody (fixedSig name len sigOf ver) mode sel tail).run
          oqsRandombytes p).1.result = .error (.violation (sufViolation name)) ↔
      mode &&& 2 ≠ 0 ∧ ver (sigMessage tail) ((sigOf (sigMessage tail)).modify
        (sel.toNat % (sigOf (sigMessage tail)).length) (· ^^^ selectedBit sel)) = true := by
  rw [fixedSig_result hvalid hbound hsig]
  split
  · rename_i hfires
    exact iff_of_true rfl hfires
  · rename_i hquiet
    apply iff_of_false _ hquiet
    split
    · simp [foreignKey, sufViolation]
    · simp

/-! ## What the tests reach -/

/-- Some input makes the test flip bit `b` of byte `off` of every original of
length `L`, and nothing else. -/
def Reaches (bit : UInt8) (L off b : ℕ) : Prop :=
  ∃ data : Bytes, ∀ original : Bytes, original.length = L →
    ∃ copy, mutant bit data original = some copy ∧ FlipsExactly off b original copy

theorem reaches_iff_exists_sel {bit : UInt8} (hbit : bit ≠ 0) {L off b : ℕ} (hoff : off < L)
    (hb : b < 8) :
    Reaches bit L off b ↔ ∃ sel : UInt32, sel.toNat % L = off ∧ sel.toNat % 8 = b := by
  constructor
  · rintro ⟨data, hdata⟩
    rcases hdata (List.replicate L 0) List.length_replicate with ⟨copy, hcopy, hflips⟩
    rcases mutant_eq_some.mp hcopy with ⟨_, _, rfl⟩
    have hboth := flipBit_inj (by rwa [List.length_replicate]) hb (Nat.mod_lt _ (by decide))
      hflips
    rw [List.length_replicate] at hboth
    exact ⟨(parse data).sel, hboth⟩
  · rintro ⟨sel, rfl, rfl⟩
    refine ⟨selectorInput bit sel, ?_⟩
    rintro original rfl
    exact ⟨_, mutant_selectorInput hbit sel original, flipsExactly_flipBit _ _ hb⟩

theorem reaches_iff {bit : UInt8} (hbit : bit ≠ 0) {L off b : ℕ} (hL : L < 2 ^ 29)
    (hoff : off < L) (hb : b < 8) : Reaches bit L off b ↔ off ≡ b [MOD Nat.gcd L 8] := by
  rw [reaches_iff_exists_sel hbit hoff hb, exists_sel_iff hL hoff hb]

theorem reaches_all_iff {bit : UInt8} (hbit : bit ≠ 0) {L : ℕ} (hL : 1 ≤ L) (hL' : L < 2 ^ 29) :
    (∀ off < L, ∀ b < 8, Reaches bit L off b) ↔ L % 2 = 1 := by
  rw [← forall_modEq_iff hL]
  constructor
  · intro hall off hoff b hb
    exact (reaches_iff hbit hL' hoff hb).mp (hall off hoff b hb)
  · intro hall off hoff b hb
    exact (reaches_iff hbit hL' hoff hb).mpr (hall off hoff b hb)

theorem ensureInit_handle {p : Process} (hp : p.Initialised true) :
    ¬ (ensureInit true p).handle = false := by
  rw [(ensureInit_flags hp).2]
  decide

theorem runWithHandle_run {body : UInt8 → UInt32 → Bytes → Exec Unit} {data : Bytes}
    {p : Process} (hp : p.Initialised true) (hdata : 8 ≤ data.length) :
    (runWithHandle true body data p).1 =
      ((body (parse data).mode (parse data).sel (parse data).tail).run oqsRandombytes
        ((ensureInit true p).seed (parse data).tail)).1 := by
  rw [runWithHandle]
  dsimp only
  rw [if_neg (ensureInit_handle hp), if_neg (by omega)]

theorem runWithHandle_short {body : UInt8 → UInt32 → Bytes → Exec Unit} {data : Bytes}
    {p : Process} (hp : p.Initialised true) (hdata : ¬ 8 ≤ data.length) :
    (runWithHandle true body data p).1.result = .ok () := by
  rw [runWithHandle]
  dsimp only
  rw [if_neg (ensureInit_handle hp), if_pos (by omega)]
  rfl

theorem kem_reports_iff {name : String} {ct ss : Bytes} {dec : Bytes → Option Bytes}
    (hdec : dec ct = some ss) {data : Bytes} {p : Process} (hp : p.Initialised true) :
    (runWithHandle true (liboqsKemBody (fixedKem name ct ss dec)) data p).1.result =
        .error (.violation (malleability name)) ↔
      ∃ copy, mutant 1 data ct = some copy ∧ dec copy = some ss := by
  by_cases hdata : 8 ≤ data.length
  · rw [runWithHandle_run hp hdata, fixedKem_body hdec, mutant, if_neg (by omega)]
    dsimp only
    split
    · rename_i hmode
      simp [hmode]
    · rename_i hmode
      simp [hmode]
  · rw [runWithHandle_short hp hdata, mutant, if_pos (by omega)]
    simp

theorem sig_reports_iff {name : String} {len : ℕ} {sigOf : Bytes → Bytes}
    {ver : Bytes → Bytes → Bool} (hvalid : ∀ m, ver m (sigOf m) = true)
    (hbound : ∀ m m', m' ≠ m → ver m' (sigOf m) = false) (hsig : ∀ m, 0 < (sigOf m).length)
    {data : Bytes} {p : Process} (hp : p.Initialised true) :
    (runWithHandle true (liboqsSigBody (fixedSig name len sigOf ver)) data p).1.result =
        .error (.violation (sufViolation name)) ↔
      ∃ copy, mutant 2 data (sigOf (sigMessage (parse data).tail)) = some copy ∧
        ver (sigMessage (parse data).tail) copy = true := by
  by_cases hdata : 8 ≤ data.length
  · rw [runWithHandle_run hp hdata, fixedSig_body hvalid hbound hsig, mutant,
      if_neg (by omega)]
    dsimp only
    split
    · rename_i hmode
      simp [hmode]
    · rename_i hmode
      simp [hmode]
  · rw [runWithHandle_short hp hdata, mutant, if_pos (by omega)]
    simp

/-- A copy differs from its original in one bit, so a library that is wrong
about one bit only is wrong about the copy exactly when that is the bit. -/
theorem mutant_flips_iff {bit : UInt8} {data original copy : Bytes} {off b : ℕ}
    (hoff : off < original.length) (hb : b < 8) (hcopy : mutant bit data original = some copy) :
    copy = original ∨ FlipsExactly off b original copy ↔
      (parse data).sel.toNat % original.length = off ∧ (parse data).sel.toNat % 8 = b := by
  rcases mutant_eq_some.mp hcopy with ⟨_, _, rfl⟩
  have hne : flipBit original ((parse data).sel.toNat % original.length)
      ((parse data).sel.toNat % 8) ≠ original := by
    rw [flipBit_sel]
    exact modify_xor_ne (Nat.mod_lt _ (by omega)) (selectedBit_ne_zero _)
  rw [or_iff_right hne]
  constructor
  · intro hflips
    exact flipBit_inj hoff hb (Nat.mod_lt _ (by decide)) hflips
  · rintro ⟨rfl, rfl⟩
    exact flipsExactly_flipBit _ _ hb

/-- A KEM that is malleable in one bit of its ciphertext is found out on some
input exactly when the selector reaches the bit. -/
theorem malleable_kem_found_iff {name : String} {ct ss : Bytes} {dec : Bytes → Option Bytes}
    {off b : ℕ} (hdec : ∀ c, dec c = some ss ↔ c = ct ∨ FlipsExactly off b ct c)
    (hL : ct.length < 2 ^ 29) (hoff : off < ct.length) (hb : b < 8) {p : Process}
    (hp : p.Initialised true) :
    (∃ data, (runWithHandle true (liboqsKemBody (fixedKem name ct ss dec)) data p).1.result =
        .error (.violation (malleability name))) ↔ off ≡ b [MOD Nat.gcd ct.length 8] := by
  have hhonest : dec ct = some ss := (hdec ct).mpr (Or.inl rfl)
  rw [← exists_sel_iff hL hoff hb]
  constructor
  · rintro ⟨data, hreport⟩
    rcases (kem_reports_iff hhonest hp).mp hreport with ⟨copy, hcopy, hopens⟩
    exact ⟨(parse data).sel, (mutant_flips_iff hoff hb hcopy).mp ((hdec copy).mp hopens)⟩
  · rintro ⟨sel, rfl, rfl⟩
    refine ⟨selectorInput 1 sel, (kem_reports_iff hhonest hp).mpr
      ⟨_, mutant_selectorInput (by decide) sel ct, ?_⟩⟩
    exact (hdec _).mpr (Or.inr (flipsExactly_flipBit _ _ hb))

/-- The same for a verifier that accepts a signature with one bit flipped. -/
theorem malleable_sig_found_iff {name : String} {len : ℕ} {sigOf : Bytes → Bytes}
    {ver : Bytes → Bytes → Bool} {off b : ℕ}
    (hver : ∀ m s, ver m s = true ↔ s = sigOf m ∨ FlipsExactly off b (sigOf m) s)
    (hbound : ∀ m m', m' ≠ m → ver m' (sigOf m) = false) (hlen : ∀ m, (sigOf m).length = len)
    (hL : len < 2 ^ 29) (hoff : off < len) (hb : b < 8) {p : Process}
    (hp : p.Initialised true) :
    (∃ data, (runWithHandle true (liboqsSigBody (fixedSig name len sigOf ver)) data p).1.result =
        .error (.violation (sufViolation name))) ↔ off ≡ b [MOD Nat.gcd len 8] := by
  have hvalid : ∀ m, ver m (sigOf m) = true := fun m => (hver m _).mpr (Or.inl rfl)
  have hsig : ∀ m, 0 < (sigOf m).length := fun m => by
    rw [hlen]
    omega
  rw [← exists_sel_iff hL hoff hb]
  constructor
  · rintro ⟨data, hreport⟩
    rcases (sig_reports_iff hvalid hbound hsig hp).mp hreport with ⟨copy, hcopy, haccepts⟩
    have hflips := (mutant_flips_iff (by rwa [hlen]) hb hcopy).mp ((hver _ copy).mp haccepts)
    rw [hlen] at hflips
    exact ⟨(parse data).sel, hflips⟩
  · rintro ⟨sel, rfl, rfl⟩
    refine ⟨selectorInput 2 sel, (sig_reports_iff hvalid hbound hsig hp).mpr
      ⟨_, mutant_selectorInput (by decide) sel _, ?_⟩⟩
    rw [hlen]
    exact (hver _ _).mpr (Or.inr (flipsExactly_flipBit _ _ hb))

/-- `mode & 0x01` and `mode & 0x02`. -/
def kemMr2 : UInt8 := 0x01

def sigMr3 : UInt8 := 0x02

/-- The selector reaches every bit of the originals of odd length, and of the
others the bits whose number agrees with the offset modulo the common factor of
the length and eight. -/
theorem selector_reaches_iff {L : ℕ} (hL : 1 ≤ L) (hL' : L < 2 ^ 29) :
    ((∀ off < L, ∀ b < 8, Reaches kemMr2 L off b) ↔ L % 2 = 1) ∧
    ((∀ off < L, ∀ b < 8, Reaches sigMr3 L off b) ↔ L % 2 = 1) ∧
    ∀ off < L, ∀ b < 8,
      (Reaches kemMr2 L off b ↔ off ≡ b [MOD Nat.gcd L 8]) ∧
      (Reaches sigMr3 L off b ↔ off ≡ b [MOD Nat.gcd L 8]) := by
  have hkem : kemMr2 ≠ 0 := by decide
  have hsig : sigMr3 ≠ 0 := by decide
  refine ⟨reaches_all_iff hkem hL hL', reaches_all_iff hsig hL hL', ?_⟩
  intro off hoff b hb
  exact ⟨reaches_iff hkem hL' hoff hb, reaches_iff hsig hL' hoff hb⟩

/-- The ciphertexts of ML-KEM-768 have 1088 bytes, and the first byte is only
ever flipped in its lowest bit. -/
theorem selector_misses_bit :
    ¬ ∀ L, 1 ≤ L → L < 2 ^ 29 → ∀ off < L, ∀ b < 8,
      Reaches kemMr2 L off b ∧ Reaches sigMr3 L off b := by
  intro hall
  have hbit := (hall 1088 (by decide) (by decide) 0 (by decide) 1 (by decide)).1
  have hagree := (reaches_iff (by decide) (by decide) (by decide) (by decide)).mp hbit
  exact absurd hagree (by decide)

theorem selector_reaches_odd :
    (∀ off < 3309, ∀ b < 8, Reaches kemMr2 3309 off b) ∧
      (Reaches sigMr3 3309 5 7 ↔ 5 ≡ 7 [MOD Nat.gcd 3309 8]) := by
  have hboth := selector_reaches_iff (L := 3309) (by decide) (by decide)
  exact ⟨hboth.1.mpr (by decide), (hboth.2.2 5 (by decide) 7 (by decide)).2⟩

end Replay
end CMFuzz
