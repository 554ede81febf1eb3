import CMFuzz.BlockModes
import CMFuzz.VectorGeneration

/-!
# The stream behind the generated vectors

The keys and signatures of OpenSSL differ from run to run, but no draw depends
on them: as long as OpenSSL does not fail, every vector takes the same words
of the stream.  A trace of a run notes for each verify request the message and
the damage drawn for it, before OpenSSL sees the message.
-/

namespace CMFuzz
namespace Runner

open ByteCodec
open SplitMix
open Wire

variable {κ κ' : Type}

/-! ## What is drawn for a verify request -/

inductive Damage where
  | keep | message | signature
  deriving DecidableEq, Repr

structure VerifyDraws where
  message : Bytes
  damage : Damage
  deriving DecidableEq, Repr

def drawDamage : Draw Damage := do
  let coin ← next
  if coin &&& 1 ≠ 0 then do
    let side ← next
    pure (if side &&& 1 ≠ 0 then .message else .signature)
  else pure .keep

def verifyDraws : Draw VerifyDraws := do
  let r ← next
  let message ← lowBytes (1 + r.toNat % 200)
  let damage ← drawDamage
  pure { message, damage }

def vectorDraws : Draw (Option VerifyDraws) := do
  let r ← next
  let op := r.toNat % cmfNumOps
  if op = 13 ∨ op = 14 then do
    let d ← verifyDraws
    pure (some d)
  else pure none

def emitTraced (ssl : OpenSSL κ) (rhsFirst : ℕ → Bool) :
    ℕ → ℕ → Keys κ → Draw (List (Emitted × Option VerifyDraws))
  | 0, _, _ => pure []
  | n + 1, i, keys => do
      let draws ← peek vectorDraws
      let made ← emitVector ssl rhsFirst i keys
      let rest ← emitTraced ssl rhsFirst n (i + 1) made.1
      pure ((made.2, draws) :: rest)

def tracedVectors (ssl : OpenSSL κ) (rhsFirst : ℕ → Bool) (seed : UInt64) (N : ℕ) :
    List (Emitted × Option VerifyDraws) :=
  (emitTraced ssl rhsFirst N 0 ⟨none, none⟩ seed).1

theorem emitTraced_aligned (ssl : OpenSSL κ) (rhsFirst : ℕ → Bool) (n i : ℕ)
    (keys : Keys κ) :
    Aligned (fun traced es => traced.map Prod.fst = es)
      (emitTraced ssl rhsFirst n i keys) (emitFrom ssl rhsFirst n i keys) := by
  induction n generalizing i keys with
  | zero => exact Aligned.pure rfl
  | succ n ih =>
      refine Aligned.peek fun draws => ?_
      refine Aligned.bind (Aligned.refl _) ?_
      rintro made _ rfl
      refine Aligned.bind (ih (i + 1) made.1) fun traced es htraced => Aligned.pure ?_
      rw [List.map_cons, htraced]

theorem verifyDraws_length : Always (fun d => d.message.length ≤ 200) verifyDraws := by
  refine Always.bind (always_true next) fun r _ => ?_
  refine Always.bind (lowBytes_length _) fun message hmessage => ?_
  refine Always.bind (always_true drawDamage) fun damage _ => Always.pure ?_
  show message.length ≤ 200
  omega

theorem vectorDraws_length :
    Always (fun draws => ∀ d ∈ draws, d.message.length ≤ 200) vectorDraws := by
  refine Always.bind (always_true next) fun r _ => ?_
  dsimp only
  split
  · refine Always.bind verifyDraws_length fun d hd => Always.pure ?_
    rintro _ ⟨⟩
    exact hd
  · exact Always.pure (by simp)

theorem emitTraced_length (ssl : OpenSSL κ) (rhsFirst : ℕ → Bool) (n i : ℕ)
    (keys : Keys κ) :
    Always (fun traced : List (Emitted × Option VerifyDraws) =>
        ∀ x ∈ traced, ∀ d ∈ x.2, d.message.length ≤ 200)
      (emitTraced ssl rhsFirst n i keys) := by
  induction n generalizing i keys with
  | zero => exact Always.pure (by simp)
  | succ n ih =>
      refine Always.bind (Always.peek vectorDraws_length) fun draws hdraws => ?_
      refine Always.bind (always_true _) fun made _ => ?_
      refine Always.bind (ih (i + 1) made.1) fun rest hrest => Always.pure ?_
      intro x hx
      rcases List.mem_cons.mp hx with rfl | hx
      · exact hdraws
      · exact hrest x hx

theorem tracedVectors_fst (ssl : OpenSSL κ) (rhsFirst : ℕ → Bool) (seed : UInt64) (N : ℕ) :
    (tracedVectors ssl rhsFirst seed N).map Prod.fst = genVectors ssl rhsFirst seed N :=
  (emitTraced_aligned ssl rhsFirst N 0 ⟨none, none⟩ seed).1

/-! ## The request carries what was drawn -/

/-- Damage flips one bit of what was drawn, so it tells the three cases apart. -/
inductive Damaged (message sig : Bytes) : Damage → Bytes → Bytes → Prop
  | keep : Damaged message sig .keep message sig
  | message (index bit : ℕ) (hindex : index < message.length) (hbit : bit < 8) :
      Damaged message sig .message (flipBit message index bit) sig
  | signature (index bit : ℕ) (hindex : index < sig.length) (hbit : bit < 8) :
      Damaged message sig .signature message (flipBit sig index bit)

theorem flipBit_ne {data : Bytes} {index bit : ℕ} (hindex : index < data.length)
    (hbit : bit < 8) : flipBit data index bit ≠ data :=
  BlockModes.modify_xor_ne hindex (bitMask_ne_zero hbit)

/-- The damaged pair determines what was damaged. -/
theorem Damaged.damage_eq {message sig msg' sig' : Bytes} {damage : Damage}
    (hdamaged : Damaged message sig damage msg' sig') :
    damage = if msg' ≠ message then .message else if sig' ≠ sig then .signature else .keep := by
  cases hdamaged with
  | keep => simp
  | message index bit hindex hbit => rw [if_pos (flipBit_ne hindex hbit)]
  | signature index bit hindex hbit =>
      rw [if_neg (not_not.mpr rfl), if_pos (flipBit_ne hindex hbit)]

/-- The payload signs the drawn message and was damaged as drawn. -/
def Payload.Carries (p : Payload) (scheme : Signer κ) (i : ℕ) (d : VerifyDraws) : Prop :=
  ∃ key sig, scheme.exportKey key = some p.pub ∧ scheme.sign key i d.message = some sig ∧
    Damaged d.message sig d.damage p.msg p.sig

def Emitted.Carries (e : Emitted) (ssl : OpenSSL κ) (i : ℕ) (d : VerifyDraws) : Prop :=
  ∃ p : Payload, e.vec.msg = p.bytes ∧
    p.Carries (if e.op = 13 then ssl.ecdsa else ssl.rsaPss) i d

structure Signer.Succeeds (scheme : Signer κ) : Prop where
  gen : ∀ i, (scheme.gen i).isSome = true
  sign : ∀ key i m, ∃ sig, scheme.sign key i m = some sig ∧ sig ≠ []
  exportKey : ∀ key, ∃ pub, scheme.exportKey key = some pub ∧ pub ≠ []

structure OpenSSL.Succeeds (ssl : OpenSSL κ) : Prop where
  ecdsa : ssl.ecdsa.Succeeds
  rsaPss : ssl.rsaPss.Succeeds

theorem flipRandomBit_flips (rhsFirst : Bool) {data : Bytes} (hdata : data ≠ []) :
    Always (fun flipped => ∃ index bit, index < data.length ∧ bit < 8 ∧
        flipped = flipBit data index bit)
      (flipRandomBit rhsFirst data) := by
  refine Always.bind (always_true next) fun r _ => ?_
  refine Always.bind (always_true next) fun r' _ => Always.pure ?_
  exact ⟨_, _, Nat.mod_lt _ (List.length_pos_iff.mpr hdata), Nat.mod_lt _ (by decide), rfl⟩

theorem tamper_damaged (rhsFirst : Bool) {msg sig : Bytes} (hmsg : msg ≠ []) (hsig : sig ≠ []) :
    Beside (fun damage pair => Damaged msg sig damage pair.1 pair.2)
      drawDamage (tamper rhsFirst msg sig) := by
  refine Aligned.bind_beside (Aligned.refl next) ?_
  rintro coin _ rfl
  split
  · refine Aligned.bind_beside (Aligned.refl next) ?_
    rintro side _ rfl
    split
    · refine Beside.pure (Always.bind (flipRandomBit_flips rhsFirst hmsg) ?_)
      rintro _ ⟨index, bit, hindex, hbit, rfl⟩
      exact Always.pure (.message index bit hindex hbit)
    · refine Beside.pure (Always.bind (flipRandomBit_flips rhsFirst hsig) ?_)
      rintro _ ⟨index, bit, hindex, hbit, rfl⟩
      exact Always.pure (.signature index bit hindex hbit)
  · exact Beside.pure (Always.pure .keep)

theorem signPayload_carries {scheme : Signer κ} (hscheme : scheme.Succeeds)
    (rhsFirst : ℕ → Bool) (i : ℕ) (key : κ) :
    Beside (fun d made => ∃ p ∈ made, Payload.Carries p scheme i d)
      verifyDraws (signPayload scheme rhsFirst i key) := by
  refine Aligned.bind_beside (Aligned.refl next) ?_
  rintro r _ rfl
  refine Aligned.bind_beside (Aligned.refl_of (lowBytes_length _)) ?_
  rintro msg _ ⟨rfl, hlen⟩
  have hmsg : msg ≠ [] := List.ne_nil_of_length_pos (by omega)
  obtain ⟨signed, hsigned, hsig⟩ := hscheme.sign key i msg
  split
  · next hnone => exact absurd (hsigned.symm.trans hnone) (Option.some_ne_none signed)
  · next sig hsign =>
      obtain rfl : signed = sig := Option.some.inj (hsigned.symm.trans hsign)
      refine Beside.map (Beside.attach (tamper_damaged (rhsFirst i) hmsg hsig)) ?_
      rintro damage ⟨⟨msg', sig'⟩, hlen⟩ hdamaged
      obtain ⟨pub, hpub, hne⟩ := hscheme.exportKey key
      split
      · next hnone => simp [hpub] at hnone
      · next pub' hpub' =>
          obtain rfl : pub = pub' := Option.some.inj (hpub.symm.trans hpub')
          rw [if_neg hne]
          exact ⟨_, rfl, key, signed, hpub, hsign, hdamaged⟩

theorem makePayload_carries {scheme : Signer κ} (hscheme : scheme.Succeeds)
    (rhsFirst : ℕ → Bool) (i : ℕ) (cached : Option κ) :
    Beside (fun d made => ∃ p ∈ made.2, Payload.Carries p scheme i d)
      verifyDraws (makePayload scheme rhsFirst i cached) := by
  unfold makePayload
  split
  · next hnone =>
      have hgen := hscheme.gen i
      simp [(Option.or_eq_none_iff.mp hnone).2] at hgen
  · next key _ =>
      exact Beside.map_right (signPayload_carries hscheme rhsFirst i key) fun _ _ h => h

theorem emitVerify_carries {ssl : OpenSSL κ} {op i : ℕ} {d : VerifyDraws}
    {made : Option Payload} (hmade : ∃ p ∈ made,
      Payload.Carries p (if op = 13 then ssl.ecdsa else ssl.rsaPss) i d) :
    (emitVerify op made).Carries ssl i d := by
  obtain ⟨p, hp, hcarries⟩ := hmade
  cases hp
  exact ⟨p, cmfVecFields_zeroHeader op p.bytes, hcarries⟩

theorem emitCompute_op (ssl : OpenSSL κ) (op : ℕ) :
    Always (fun e : Emitted => e.op = op) (emitCompute ssl op) :=
  Always.bind (always_true _) fun _ _ => Always.pure rfl

theorem emitVector_carries {ssl : OpenSSL κ} (hssl : ssl.Succeeds) (rhsFirst : ℕ → Bool)
    (i : ℕ) (keys : Keys κ) :
    Beside (fun draws made => made.2.op = 13 ∨ made.2.op = 14 →
        ∃ d, draws = some d ∧ made.2.Carries ssl i d)
      vectorDraws (emitVector ssl rhsFirst i keys) := by
  refine Aligned.bind_beside (Aligned.refl next) ?_
  rintro r _ rfl
  dsimp only
  generalize r.toNat % cmfNumOps = op
  by_cases h13 : op = 13
  · rw [if_pos (Or.inl h13), if_pos h13]
    refine Beside.map (makePayload_carries hssl.ecdsa rhsFirst i keys.ecdsa) ?_
    intro d made hmade _
    exact ⟨d, rfl, emitVerify_carries (by rwa [if_pos h13])⟩
  · by_cases h14 : op = 14
    · rw [if_pos (Or.inr h14), if_neg h13, if_pos h14]
      refine Beside.map (makePayload_carries hssl.rsaPss rhsFirst i keys.rsa) ?_
      intro d made hmade _
      exact ⟨d, rfl, emitVerify_carries (by rwa [if_neg h13])⟩
    · have hop : ¬ (op = 13 ∨ op = 14) := by omega
      rw [if_neg hop, if_neg h13, if_neg h14]
      refine Beside.pure (Always.bind (emitCompute_op ssl op) fun e he => Always.pure ?_)
      intro hverify
      rw [he] at hverify
      exact absurd hverify hop

theorem emitTraced_carries {ssl : OpenSSL κ} (hssl : ssl.Succeeds) (rhsFirst : ℕ → Bool)
    (n i : ℕ) (keys : Keys κ) :
    Always (fun traced : List (Emitted × Option VerifyDraws) =>
        ∀ (k : ℕ) x, traced[k]? = some x → x.1.op = 13 ∨ x.1.op = 14 →
        ∃ d, x.2 = some d ∧ x.1.Carries ssl (i + k) d)
      (emitTraced ssl rhsFirst n i keys) := by
  induction n generalizing i keys with
  | zero => exact Always.pure (by simp)
  | succ n ih =>
      refine Beside.always (emitVector_carries hssl rhsFirst i keys) ?_
      intro draws made hmade
      refine Always.bind (ih (i + 1) made.1) fun rest hrest => Always.pure ?_
      intro k x hx
      cases k with
      | zero =>
          obtain rfl : (made.2, draws) = x := by simpa using hx
          exact hmade
      | succ k =>
          have hcarries := hrest k x (by simpa using hx)
          rwa [Nat.add_right_comm] at hcarries

/-! ## Two runs -/

theorem flipRandomBit_aligned (rhsFirst rhsFirst' : Bool) (data data' : Bytes) :
    Aligned (fun _ _ => True) (flipRandomBit rhsFirst data)
      (flipRandomBit rhsFirst' data') := by
  refine Aligned.bind (Aligned.refl next) fun r _ _ => ?_
  exact Aligned.bind (Aligned.refl next) fun r' _ _ => Aligned.pure trivial

theorem tamper_aligned (rhsFirst rhsFirst' : Bool) (msg sig msg' sig' : Bytes) :
    Aligned (fun _ _ => True) (tamper rhsFirst msg sig) (tamper rhsFirst' msg' sig') := by
  refine Aligned.bind (Aligned.refl next) ?_
  rintro coin _ rfl
  split
  · refine Aligned.bind (Aligned.refl next) ?_
    rintro side _ rfl
    split
    · exact Aligned.bind (flipRandomBit_aligned _ _ msg msg')
        fun _ _ _ => Aligned.pure trivial
    · exact Aligned.bind (flipRandomBit_aligned _ _ sig sig')
        fun _ _ _ => Aligned.pure trivial
  · exact Aligned.pure trivial

section

variable {scheme : Signer κ} {scheme' : Signer κ'} (hscheme : scheme.Succeeds)
  (hscheme' : scheme'.Succeeds) (rhsFirst rhsFirst' : ℕ → Bool) (i i' : ℕ)

include hscheme hscheme'

theorem signPayload_aligned (key : κ) (key' : κ') :
    Aligned (fun _ _ => True) (signPayload scheme rhsFirst i key)
      (signPayload scheme' rhsFirst' i' key') := by
  refine Aligned.bind (Aligned.refl next) ?_
  rintro r _ rfl
  refine Aligned.bind (Aligned.refl (lowBytes _)) ?_
  rintro msg _ rfl
  split
  · next hnone =>
      obtain ⟨sig, hsign, _⟩ := hscheme.sign key i msg
      simp [hnone] at hsign
  · split
    · next hnone =>
        obtain ⟨sig, hsign, _⟩ := hscheme'.sign key' i' msg
        simp [hnone] at hsign
    · exact Aligned.bind (Aligned.attach (tamper_aligned _ _ msg _ msg _))
        fun _ _ _ => Aligned.pure trivial

theorem makePayload_aligned (cached : Option κ) (cached' : Option κ') :
    Aligned (fun _ _ => True) (makePayload scheme rhsFirst i cached)
      (makePayload scheme' rhsFirst' i' cached') := by
  unfold makePayload
  split
  · next hnone =>
      have hgen := hscheme.gen i
      simp [(Option.or_eq_none_iff.mp hnone).2] at hgen
  · split
    · next hnone =>
        have hgen := hscheme'.gen i'
        simp [(Option.or_eq_none_iff.mp hnone).2] at hgen
    · exact Aligned.bind (signPayload_aligned hscheme hscheme' rhsFirst rhsFirst' i i' _ _)
        fun _ _ _ => Aligned.pure trivial

end

structure SameRequest (e e' : Emitted) : Prop where
  op_eq : e.op = e'.op
  blob_eq : ¬ (e.op = 13 ∨ e.op = 14) → e.blob = e'.blob

section

variable {ssl : OpenSSL κ} {ssl' : OpenSSL κ'} (hssl : ssl.Succeeds)
  (hssl' : ssl'.Succeeds) (rhsFirst rhsFirst' : ℕ → Bool)

include hssl hssl'

theorem emitVector_aligned (i i' : ℕ) (keys : Keys κ) (keys' : Keys κ') :
    Aligned (fun made made' => SameRequest made.2 made'.2)
      (emitVector ssl rhsFirst i keys) (emitVector ssl' rhsFirst' i' keys') := by
  refine Aligned.bind (Aligned.refl next) ?_
  rintro r _ rfl
  dsimp only
  generalize r.toNat % cmfNumOps = op
  split
  · next h13 =>
      refine Aligned.bind (makePayload_aligned hssl.ecdsa hssl'.ecdsa _ _ _ _ _ _)
        fun _ _ _ => Aligned.pure ⟨rfl, fun h => absurd (Or.inl h13) h⟩
  · split
    · next h14 =>
        refine Aligned.bind (makePayload_aligned hssl.rsaPss hssl'.rsaPss _ _ _ _ _ _)
          fun _ _ _ => Aligned.pure ⟨rfl, fun h => absurd (Or.inr h14) h⟩
    · refine Aligned.bind (R := SameRequest) ?_ fun e e' he => Aligned.pure he
      refine Aligned.bind (Aligned.refl (drawCompute op)) ?_
      rintro c _ rfl
      exact Aligned.pure ⟨rfl, fun _ => rfl⟩

theorem emitTraced_same (n n' i i' : ℕ) (keys : Keys κ) (keys' : Keys κ') :
    Beside (fun traced traced' => ∀ (k : ℕ) x x', traced[k]? = some x →
        traced'[k]? = some x' → SameRequest x.1 x'.1 ∧ x.2 = x'.2)
      (emitTraced ssl rhsFirst n i keys) (emitTraced ssl' rhsFirst' n' i' keys') := by
  induction n generalizing n' i i' keys keys' with
  | zero => exact Beside.pure fun s k x x' hx => by simp at hx
  | succ n ih =>
      cases n' with
      | zero =>
          intro s k x x' _ hx'
          have hnil : (emitTraced ssl' rhsFirst' 0 i' keys' s).1 = [] := rfl
          rw [hnil] at hx'
          simp at hx'
      | succ n' =>
          refine Aligned.bind_beside (Aligned.refl (peek vectorDraws)) ?_
          rintro draws _ rfl
          refine Aligned.bind_beside
            (emitVector_aligned hssl hssl' rhsFirst rhsFirst' i i' keys keys') ?_
          intro made made' hmade
          refine Beside.map (ih n' (i + 1) (i' + 1) made.1 made'.1) ?_
          intro rest rest' hrest k x x' hx hx'
          cases k with
          | zero =>
              obtain rfl : (made.2, draws) = x := by simpa using hx
              obtain rfl : (made'.2, draws) = x' := by simpa using hx'
              exact ⟨hmade, rfl⟩
          | succ k => exact hrest k x x' (by simpa using hx) (by simpa using hx')

end

theorem genVectors_getElem_traced (ssl : OpenSSL κ) (rhsFirst : ℕ → Bool) (seed : UInt64)
    {N i : ℕ} (hi : i < N) :
    ∃ e draws, (tracedVectors ssl rhsFirst seed N)[i]? = some (e, draws) ∧
      (genVectors ssl rhsFirst seed N)[i]? = some e := by
  have hfst := tracedVectors_fst ssl rhsFirst seed N
  have hlen := congrArg List.length hfst
  rw [List.length_map, (genVectors_faithful ssl rhsFirst seed N).1] at hlen
  obtain ⟨⟨e, draws⟩, hx⟩ : ∃ x, (tracedVectors ssl rhsFirst seed N)[i]? = some x :=
    ⟨_, List.getElem?_eq_getElem (by omega)⟩
  refine ⟨e, draws, hx, ?_⟩
  rw [← hfst, List.getElem?_map, hx, Option.map_some]

/-- The vectors of a seed do not depend on how many are generated or on what
OpenSSL signs: same ops, same compute requests, and the same messages and
damages behind the verify requests. -/
theorem vectors_of_seed {ssl : OpenSSL κ} {ssl' : OpenSSL κ'} (hssl : ssl.Succeeds)
    (hssl' : ssl'.Succeeds) (rhsFirst rhsFirst' : ℕ → Bool) (seed : UInt64) {N N' i : ℕ}
    (hi : i < min N N') :
    ∃ e e' draws,
      ((tracedVectors ssl rhsFirst seed N)[i]? = some (e, draws) ∧
        (tracedVectors ssl' rhsFirst' seed N')[i]? = some (e', draws)) ∧
      ((genVectors ssl rhsFirst seed N)[i]? = some e ∧
        (genVectors ssl' rhsFirst' seed N')[i]? = some e') ∧
      e.op = e'.op ∧
      (¬ (e.op = 13 ∨ e.op = 14) → requestLine e.op e.blob = requestLine e'.op e'.blob) ∧
      (e.op = 13 ∨ e.op = 14 →
        ∃ d, draws = some d ∧ e.Carries ssl i d ∧ e'.Carries ssl' i d) := by
  obtain ⟨e, draws, htraced, hgen⟩ :=
    genVectors_getElem_traced ssl rhsFirst seed (hi.trans_le (min_le_left N N'))
  obtain ⟨e', draws', htraced', hgen'⟩ :=
    genVectors_getElem_traced ssl' rhsFirst' seed (hi.trans_le (min_le_right N N'))
  obtain ⟨⟨hop, hblob⟩, hdraws⟩ := emitTraced_same hssl hssl' rhsFirst rhsFirst' N N' 0 0
    ⟨none, none⟩ ⟨none, none⟩ seed i (e, draws) (e', draws') htraced htraced'
  obtain rfl : draws = draws' := hdraws
  refine ⟨e, e', draws, ⟨htraced, htraced'⟩, ⟨hgen, hgen'⟩, hop, ?_, ?_⟩
  · intro hcompute
    have hop' : e.op = e'.op := hop
    have hblob' : e.blob = e'.blob := hblob hcompute
    rw [hop', hblob']
  · intro hverify
    have hcarries := emitTraced_carries hssl rhsFirst N 0 ⟨none, none⟩ seed i _ htraced
    have hcarries' := emitTraced_carries hssl' rhsFirst' N' 0 ⟨none, none⟩ seed i _ htraced'
    obtain ⟨d, hd, hcarried⟩ := hcarries hverify
    obtain ⟨d', hd', hcarried'⟩ := hcarries' (hop ▸ hverify)
    obtain rfl : d = d' := Option.some.inj (hd.symm.trans hd')
    rw [Nat.zero_add] at hcarried hcarried'
    exact ⟨d, hd, hcarried, hcarried'⟩

theorem zeroSSL_succeeds : zeroSSL.Succeeds where
  ecdsa := {
    gen := fun _ => rfl
    sign := fun _ _ _ => ⟨_, rfl, by decide⟩
    exportKey := fun _ => ⟨_, rfl, by decide⟩ }
  rsaPss := {
    gen := fun _ => rfl
    sign := fun _ _ _ => ⟨_, rfl, by decide⟩
    exportKey := fun _ => ⟨_, rfl, by decide⟩ }

/-- The second vector of seed 13 is an RSA-PSS request with a damaged message. -/
theorem vectors_of_seed_two :
    ∃ e e' d,
      ((genVectors zeroSSL (fun _ => true) 13 2)[1]? = some e ∧
        (genVectors zeroSSL (fun _ => false) 13 3)[1]? = some e') ∧
      (e.op = 14 ∧ e'.op = 14 ∧ d.damage = .message) ∧
      e.Carries zeroSSL 1 d ∧ e'.Carries zeroSSL 1 d := by
  obtain ⟨e, e', draws, ⟨htraced, _⟩, hgen, hop, _, hverify⟩ :=
    vectors_of_seed zeroSSL_succeeds zeroSSL_succeeds (fun _ => true) (fun _ => false) 13
      (by decide : 1 < min 2 3)
  have hdrawn : (tracedVectors zeroSSL (fun _ => true) 13 2)[1]?.map
      (fun x => (x.1.op, x.2.map VerifyDraws.damage)) = some (14, some .message) := by
    decide +kernel
  rw [htraced, Option.map_some, Option.some.injEq, Prod.mk.injEq] at hdrawn
  obtain ⟨hop14, hdamage⟩ := hdrawn
  obtain ⟨d, rfl, hcarries⟩ := hverify (Or.inr hop14)
  exact ⟨e, e', d, hgen, ⟨hop14, hop ▸ hop14, Option.some.inj hdamage⟩, hcarries⟩

end Runner
end CMFuzz
