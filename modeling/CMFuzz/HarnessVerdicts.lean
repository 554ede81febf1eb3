import CMFuzz.HarnessBuilds

/-!
# Verdicts of the liboqs harnesses on sound schemes

What the plain and the fault builds report on schemes that work from coins, in
one run and over a whole process.
-/

namespace CMFuzz
namespace Replay

open BlockModes
open ByteCodec
open Engine
open RandomPrograms

/-! ## Results after a call -/

section

variable {α : Type} (p : Process)

theorem result_keypair (k : SeededKem) (f : Option (Bytes × Bytes) → Exec α) :
    ((keypair k.oqs >>= f).run oqsRandombytes p).1.result =
      ((f (k.keypair (oqsRandombytes k.keyCoins p).1)).run oqsRandombytes
        (oqsRandombytes k.keyCoins p).2).1.result :=
  Program.result_call_bind _ _ _ f p

theorem result_encaps (k : SeededKem) (pk : Bytes) (f : Option (Bytes × Bytes) → Exec α) :
    ((encaps k.oqs pk >>= f).run oqsRandombytes p).1.result =
      ((f (k.encaps (oqsRandombytes k.encCoins p).1 pk)).run oqsRandombytes
        (oqsRandombytes k.encCoins p).2).1.result :=
  Program.result_call_bind _ _ _ f p

theorem result_decaps (k : SeededKem) (ct sk : Bytes) (f : Option Bytes → Exec α) :
    ((decaps k.oqs ct sk >>= f).run oqsRandombytes p).1.result =
      ((f (k.decaps ct sk)).run oqsRandombytes p).1.result :=
  Program.result_call_bind _ _ _ f p

theorem result_sigKeypair (s : SeededSig) (f : Option (Bytes × Bytes) → Exec α) :
    ((sigKeypair s.oqs >>= f).run oqsRandombytes p).1.result =
      ((f (s.keypair (oqsRandombytes s.keyCoins p).1)).run oqsRandombytes
        (oqsRandombytes s.keyCoins p).2).1.result :=
  Program.result_call_bind _ _ _ f p

theorem result_sign (s : SeededSig) (m sk : Bytes) (f : Option Bytes → Exec α) :
    ((sign s.oqs m sk >>= f).run oqsRandombytes p).1.result =
      ((f (s.sign (oqsRandombytes s.signCoins p).1 m sk)).run oqsRandombytes
        (oqsRandombytes s.signCoins p).2).1.result :=
  Program.result_call_bind _ _ _ f p

theorem result_verify (s : SeededSig) (m sig pk : Bytes) (f : Bool → Exec α) :
    ((verify s.oqs m sig pk >>= f).run oqsRandombytes p).1.result =
      ((f (s.verify m sig pk)).run oqsRandombytes p).1.result :=
  Program.result_call_bind _ _ _ f p

theorem result_assert (c : Check) (f : Unit → Exec Unit) :
    ((cmfAssert c >>= f).run oqsRandombytes p).1.result =
      if c.holds then ((f ()).run oqsRandombytes p).1.result else .error (.violation c) :=
  result_cmfAssert c f p

theorem result_pure (a : α) : ((pure a : Exec α).run oqsRandombytes p).1.result = .ok a := rfl

end

/-! ## KEMs -/

theorem modify_selected_ne {k : SeededKem} (hideal : k.Ideal) {d pk sk ct ss : Bytes}
    (hss : k.Sent d pk sk ct ss) (sel : UInt32) :
    ct.modify (sel.toNat % k.oqs.lengthCiphertext) (· ^^^ selectedBit sel) ≠ ct := by
  have hindex : sel.toNat % k.lengthCiphertext < ct.length := by
    rw [hideal.length_eq hss]
    exact Nat.mod_lt _ hideal.length_pos
  exact modify_xor_ne hindex (selectedBit_ne_zero sel)

/-- The two builds differ in the first comparison alone. -/
theorem kemBuild_sent {k : SeededKem} (hideal : k.Ideal) (fault : Bool) (mode : UInt8)
    (sel : UInt32) (tail : Bytes) {p : Process} {pk sk ct ss : Bytes}
    (hkeys : k.keypair (oqsRandombytes k.keyCoins p).1 = some (pk, sk))
    (hsent : k.encaps (oqsRandombytes k.encCoins (oqsRandombytes k.keyCoins p).2).1 pk =
      some (ct, ss))
    (hfresh : (oqsRandombytes k.keyCoins
      (oqsRandombytes k.encCoins (oqsRandombytes k.keyCoins p).2).2).1 ≠
        (oqsRandombytes k.keyCoins p).1) :
    ((liboqsKemBuild fault k.oqs mode sel tail).run oqsRandombytes p).1.result =
      if fault = true ∧ ss ≠ [] then
        .error (.violation ⟨k.name, "MR1_correctness", "shared secrets differ", false⟩)
      else .ok () := by
  have hss : k.Sent (oqsRandombytes k.keyCoins p).1 pk sk ct ss := ⟨hkeys, _, hsent⟩
  have hcorrupted : (ss = if fault = true then ss.modify 0 (· ^^^ 0xff) else ss) ↔
      ¬ (fault = true ∧ ss ≠ []) := by
    cases fault with
    | false => exact iff_of_true rfl (fun h => Bool.false_ne_true h.1)
    | true =>
        cases ss with
        | nil => exact iff_of_true rfl (fun h => h.2 rfl)
        | cons b rest =>
            apply iff_of_false
            · exact (modify_xor_ne (Nat.succ_pos _) (by decide)).symm
            · exact not_not_intro ⟨rfl, List.cons_ne_nil b rest⟩
  rw [liboqsKemBuild, result_keypair, hkeys]
  dsimp only
  rw [result_encaps, hsent]
  dsimp only
  rw [result_decaps, hideal.honest hss]
  dsimp only
  rw [result_assert]
  simp only [decide_eq_true_eq]
  by_cases hfires : fault = true ∧ ss ≠ []
  · have hdiffer : ¬ (ss = if fault = true then ss.modify 0 (· ^^^ 0xff) else ss) :=
      fun h => hcorrupted.mp h hfires
    rw [if_neg hdiffer, if_pos hfires, decide_eq_false hdiffer]
    rfl
  · have hsame := hcorrupted.mpr hfires
    have hmutated := hideal.mutated hss (modify_selected_ne hideal hss sel)
    rw [if_pos hsame, if_neg hfires, ← hsame, result_decaps, hideal.honest hss, result_assert]
    cases hforeign : k.keypair (oqsRandombytes k.keyCoins
      (oqsRandombytes k.encCoins (oqsRandombytes k.keyCoins p).2).2).1 with
    | none =>
        simp only [Program.result_ite, result_keypair, hforeign, result_decaps, result_assert,
          result_pure, hmutated, ne_eq, not_false_eq_true, decide_true, if_true, ite_self,
          Option.all_some]
    | some keys =>
        have hwrongKey := hideal.foreign hss hforeign hfresh
        simp only [Program.result_ite, result_keypair, hforeign, result_decaps, result_assert,
          result_pure, hmutated, hwrongKey, ne_eq, not_false_eq_true, decide_true, if_true,
          ite_self, Option.all_some]

theorem kemBuild_unsent {k : SeededKem} (fault : Bool) (mode : UInt8) (sel : UInt32)
    (tail : Bytes) {p : Process}
    (hunsent : ∀ pk sk, k.keypair (oqsRandombytes k.keyCoins p).1 = some (pk, sk) →
      k.encaps (oqsRandombytes k.encCoins (oqsRandombytes k.keyCoins p).2).1 pk = none) :
    ((liboqsKemBuild fault k.oqs mode sel tail).run oqsRandombytes p).1.result = .ok () := by
  rw [liboqsKemBuild, result_keypair]
  cases hkeys : k.keypair (oqsRandombytes k.keyCoins p).1 with
  | none => rfl
  | some keys =>
      dsimp only
      rw [result_encaps, hunsent keys.1 keys.2 hkeys]
      rfl

/-! ## Signature schemes -/

theorem touched_eq (sig : Bytes) : touched sig = sig := by
  cases sig with
  | nil => rfl
  | cons b rest => rfl

theorem sigBuild_signed {s : SeededSig} (hideal : s.Ideal) (fault : Bool) (mode : UInt8)
    (sel : UInt32) (tail : Bytes) {p : Process} {pk sk sig : Bytes}
    (hkeys : s.keypair (oqsRandombytes s.keyCoins p).1 = some (pk, sk))
    (hsigned : s.sign (oqsRandombytes s.signCoins (oqsRandombytes s.keyCoins p).2).1
      (sigMessage tail) sk = some sig)
    (hfresh : (oqsRandombytes s.keyCoins
      (oqsRandombytes s.signCoins (oqsRandombytes s.keyCoins p).2).2).1 ≠
        (oqsRandombytes s.keyCoins p).1) :
    ((liboqsSigBuild fault s.oqs mode sel tail).run oqsRandombytes p).1.result =
      if fault = true ∧ 0 < sig.length then .error (.violation (sufViolation s.name))
      else .ok () := by
  have hs : s.Signed (oqsRandombytes s.keyCoins p).1 pk sk (sigMessage tail) sig :=
    ⟨hkeys, _, hsigned⟩
  rw [liboqsSigBuild, result_sigKeypair, hkeys]
  dsimp only
  rw [result_sign, hsigned]
  dsimp only
  rw [result_verify, hideal.honest hs, result_assert, if_pos rfl]
  simp only [touched_eq, ite_self]
  by_cases hfires : fault = true ∧ 0 < sig.length
  · rw [if_pos hfires, if_pos hfires, result_verify, hideal.honest hs, result_assert]
    rfl
  · rw [if_neg hfires, if_neg hfires]
    have hbinding : mode &&& 0x01 ≠ 0 ∧ 1 < (sigMessage tail).length →
        (!s.verify ((sigMessage tail).modify (sel.toNat % (sigMessage tail).length)
          (· ^^^ 0x01)) sig pk) = true := by
      rintro ⟨_, hlen⟩
      rw [hideal.otherMessage hs (modify_xor_ne (Nat.mod_lt _ (by omega)) (by decide))]
      rfl
    have hmutated : sig.modify (sel.toNat % sig.length) (· ^^^ selectedBit sel) ≠ sig →
        (!s.verify (sigMessage tail)
          (sig.modify (sel.toNat % sig.length) (· ^^^ selectedBit sel)) pk) = true := by
      intro hne
      rw [hideal.mutated hs hne]
      rfl
    cases hforeign : s.keypair (oqsRandombytes s.keyCoins
      (oqsRandombytes s.signCoins (oqsRandombytes s.keyCoins p).2).2).1 with
    | none =>
        simp only [Program.result_ite, result_verify, result_assert, result_sigKeypair,
          result_pure, hforeign, ite_self]
        rw [assertion_passes hbinding, assertion_passes hmutated, ite_self]
    | some keys =>
        have hwrongKey := hideal.foreign hs hforeign hfresh
        simp only [Program.result_ite, result_verify, result_assert, result_sigKeypair,
          result_pure, hforeign, hwrongKey, Bool.not_false, if_true, ite_self]
        rw [assertion_passes hbinding, assertion_passes hmutated, ite_self]

theorem sigBuild_unsigned {s : SeededSig} (fault : Bool) (mode : UInt8) (sel : UInt32)
    (tail : Bytes) {p : Process}
    (hunsigned : ∀ pk sk, s.keypair (oqsRandombytes s.keyCoins p).1 = some (pk, sk) →
      s.sign (oqsRandombytes s.signCoins (oqsRandombytes s.keyCoins p).2).1
        (sigMessage tail) sk = none) :
    ((liboqsSigBuild fault s.oqs mode sel tail).run oqsRandombytes p).1.result = .ok () := by
  rw [liboqsSigBuild, result_sigKeypair]
  cases hkeys : s.keypair (oqsRandombytes s.keyCoins p).1 with
  | none => rfl
  | some keys =>
      dsimp only
      rw [result_sign, hunsigned keys.1 keys.2 hkeys]
      rfl

/-! ## Two receivers -/

def keyConfusion : Check :=
  ⟨"ML-KEM-768/seq", "O6-kem-key-confusion",
    "wrong-key decapsulation falsely agreed with sender", false⟩

theorem seqBuild_sent {k : SeededKem} (hideal : k.Ideal) (fault : Bool) {p : Process}
    {pkA skA pkB skB ct ss : Bytes}
    (hkeys : k.keypair (oqsRandombytes k.keyCoins p).1 = some (pkA, skA))
    (hkeys' : k.keypair (oqsRandombytes k.keyCoins (oqsRandombytes k.keyCoins p).2).1 =
      some (pkB, skB))
    (hsent : k.encaps (oqsRandombytes k.encCoins
      (oqsRandombytes k.keyCoins (oqsRandombytes k.keyCoins p).2).2).1 pkA = some (ct, ss)) :
    ((seqPqcBuild fault k.oqs).run oqsRandombytes p).1.result =
      if (oqsRandombytes k.keyCoins (oqsRandombytes k.keyCoins p).2).1 =
          (oqsRandombytes k.keyCoins p).1 ∨ fault = true ∧ (k.decaps ct skB).isSome = true then
        .error (.violation keyConfusion)
      else .ok () := by
  have hss : k.Sent (oqsRandombytes k.keyCoins p).1 pkA skA ct ss := ⟨hkeys, _, hsent⟩
  rw [seqPqcBuild, result_keypair, hkeys]
  dsimp only
  rw [result_keypair, hkeys']
  dsimp only
  rw [result_encaps, hsent]
  dsimp only
  rw [result_decaps, hideal.honest hss]
  dsimp only
  rw [result_assert, decide_eq_true rfl, if_pos rfl, result_decaps]
  by_cases hcoins : (oqsRandombytes k.keyCoins (oqsRandombytes k.keyCoins p).2).1 =
      (oqsRandombytes k.keyCoins p).1
  · have hsame : skB = skA := by
      rw [hcoins, hkeys] at hkeys'
      exact congrArg Prod.snd (Option.some.inj hkeys').symm
    rw [if_pos (Or.inl hcoins), hsame, hideal.honest hss]
    dsimp only
    rw [ite_self, decide_eq_false (fun h => h rfl)]
    rfl
  · have hforeign := hideal.foreign hss hkeys' hcoins
    cases hopened : k.decaps ct skB with
    | none =>
        rw [if_neg (not_or.mpr ⟨hcoins, fun h => Bool.false_ne_true h.2⟩)]
        rfl
    | some ssB =>
        have hdiffer : ssB ≠ ss := fun h => hforeign (hopened.trans (congrArg some h))
        dsimp only
        cases fault with
        | false =>
            rw [if_neg (not_or.mpr ⟨hcoins, fun h => Bool.false_ne_true h.1⟩),
              if_neg Bool.false_ne_true, decide_eq_true hdiffer]
            rfl
        | true =>
            rw [if_pos (Or.inr ⟨rfl, rfl⟩), if_pos rfl, decide_eq_false (fun h => h rfl)]
            rfl

theorem seqBuild_unsent {k : SeededKem} (fault : Bool) {p : Process}
    (hunsent : ∀ pkA skA keys,
      k.keypair (oqsRandombytes k.keyCoins p).1 = some (pkA, skA) →
      k.keypair (oqsRandombytes k.keyCoins (oqsRandombytes k.keyCoins p).2).1 = some keys →
      k.encaps (oqsRandombytes k.encCoins
        (oqsRandombytes k.keyCoins (oqsRandombytes k.keyCoins p).2).2).1 pkA = none) :
    ((seqPqcBuild fault k.oqs).run oqsRandombytes p).1.result = .ok () := by
  rw [seqPqcBuild, result_keypair]
  cases hkeys : k.keypair (oqsRandombytes k.keyCoins p).1 with
  | none => rfl
  | some keys =>
      dsimp only
      rw [result_keypair]
      cases hkeys' : k.keypair
        (oqsRandombytes k.keyCoins (oqsRandombytes k.keyCoins p).2).1 with
      | none => rfl
      | some keys' =>
          dsimp only
          rw [result_encaps, hunsent keys.1 keys.2 keys' hkeys hkeys']
          rfl

/-! ## A signed encapsulation -/

def unboundTranscript : Check :=
  ⟨akName, "O5-transcript-binding", "signature accepted a swapped encapsulation", false⟩

/-- A record opens under the key it was sealed with. -/
def Libraries.Opens (lib : Libraries) : Prop :=
  ∀ key m, lib.gcmOpen key (lib.gcmSeal key m) = some m

/-- The coins of a run: receiver's keys, signer's keys, encapsulation, signature. -/
structure AkCoins where
  receiver : Bytes
  signer : Bytes
  encapsulation : Bytes
  signature : Bytes

def akCoins (k : SeededKem) (s : SeededSig) (p : Process) : AkCoins :=
  let (d, p) := oqsRandombytes k.keyCoins p
  let (d', p) := oqsRandombytes s.keyCoins p
  let (e, p) := oqsRandombytes k.encCoins p
  ⟨d, d', e, (oqsRandombytes s.signCoins p).1⟩

theorem akBuild_sent {k : SeededKem} {s : SeededSig} {lib : Libraries} (hkem : lib.kem = k.oqs)
    (hsig : lib.sig = s.oqs) (hk : k.Ideal) (hs : s.Ideal) (hopens : lib.Opens) (fault : Bool)
    (rest : Bytes) {p : Process} {pkR skR pkS skS enc ss sig : Bytes}
    (hkeys : k.keypair (akCoins k s p).receiver = some (pkR, skR))
    (hkeys' : s.keypair (akCoins k s p).signer = some (pkS, skS))
    (hsent : k.encaps (akCoins k s p).encapsulation pkR = some (enc, ss))
    (hsigned : s.sign (akCoins k s p).signature (akMsg fault enc) skS = some sig) :
    ((runCaseBuild fault lib rest).run oqsRandombytes p).1.result =
      if fault then .error (.violation unboundTranscript) else .ok () := by
  have hss : k.Sent (akCoins k s p).receiver pkR skR enc ss := ⟨hkeys, _, hsent⟩
  have hsg : s.Signed (akCoins k s p).signer pkS skS (akMsg fault enc) sig := ⟨hkeys', _, hsigned⟩
  have hrecord : (lib.gcmOpen (lib.hkdf32 ss) (lib.gcmSeal (lib.hkdf32 ss) (rest.take 1024))).any
      (fun pt => pt.take (rest.take 1024).length = rest.take 1024) = true := by
    rw [hopens, Option.any_some, List.take_length]
    exact decide_eq_true rfl
  simp only [akCoins] at hkeys hkeys' hsent hsigned hss hsg
  rw [runCaseBuild, hkem, hsig, result_keypair, hkeys]
  dsimp only
  rw [result_sigKeypair, hkeys']
  dsimp only
  rw [result_encaps, hsent]
  dsimp only
  rw [result_sign, hsigned]
  dsimp only [Option.getD_some]
  rw [result_verify, hs.honest hsg, result_assert, if_pos rfl, result_decaps, hk.honest hss]
  dsimp only
  rw [result_assert, hrecord, if_pos rfl, result_verify]
  cases fault with
  | false =>
      have hlen : 0 < enc.length := by
        rw [hk.length_eq hss]
        exact hk.length_pos
      have hswapped : s.verify (enc.modify 0 (· ^^^ 0x01)) sig pkS = false :=
        hs.otherMessage hsg (modify_xor_ne hlen (by decide))
      rw [akMsg, if_neg Bool.false_ne_true, hswapped]
      rfl
  | true =>
      have haccepted : s.verify (akMsg true (enc.modify 0 (· ^^^ 0x01))) sig pkS = true :=
        hs.honest hsg
      rw [haccepted]
      rfl

/-- A run without keys or encapsulation returns before its first assertion. -/
theorem akBuild_unsent {k : SeededKem} {s : SeededSig} {lib : Libraries} (hkem : lib.kem = k.oqs)
    (hsig : lib.sig = s.oqs) (fault : Bool) (rest : Bytes) {p : Process}
    (hunsent : ∀ pkR skR keys, k.keypair (akCoins k s p).receiver = some (pkR, skR) →
      s.keypair (akCoins k s p).signer = some keys →
      k.encaps (akCoins k s p).encapsulation pkR = none) :
    ((runCaseBuild fault lib rest).run oqsRandombytes p).1.result = .ok () := by
  simp only [akCoins] at hunsent
  rw [runCaseBuild, hkem, hsig, result_keypair]
  cases hkeys : k.keypair (oqsRandombytes k.keyCoins p).1 with
  | none => rfl
  | some keys =>
      dsimp only
      rw [result_sigKeypair]
      cases hkeys' : s.keypair (oqsRandombytes s.keyCoins (oqsRandombytes k.keyCoins p).2).1 with
      | none => rfl
      | some keys' =>
          dsimp only
          rw [result_encaps, hunsent keys.1 keys.2 keys' hkeys hkeys']
          rfl

end Replay
end CMFuzz
