import CMFuzz.BfvOracles
import CMFuzz.BlockModes
import CMFuzz.PqcDifferential
import CMFuzz.Stages

/-!
# Interoperability of all PQC schemes

`main` of `pqc_diff_harness` over its tables of schemes, in the shipped build
and in the fault build.  A scheme that liboqs does not enable is skipped, and
the numbers of `rand` go from scheme to scheme.
-/

namespace CMFuzz
namespace Pqc

open ByteCodec
open Engine
open Rounds
open Stages

/-! ## What `rand` can lead to -/

/-- Some numbers lead to `a`, whatever is to follow them. -/
def Reaches {α : Type} (draw : Rand α) (a : α) : Prop := ∀ t, ∃ s, draw s = (a, t)

theorem Reaches.pure {α : Type} (a : α) : Reaches (Pure.pure a) a := fun t => ⟨t, rfl⟩

theorem Reaches.bind {α β : Type} {draw : Rand α} {cont : α → Rand β} {a : α} {b : β}
    (hdraw : Reaches draw a) (hcont : Reaches (cont a) b) : Reaches (draw >>= cont) b := by
  intro t
  rcases hcont t with ⟨u, hu⟩
  rcases hdraw u with ⟨s, hs⟩
  refine ⟨s, ?_⟩
  show cont (draw s).1 (draw s).2 = (b, t)
  rw [hs]
  exact hu

theorem Reaches.surjective {α : Type} {draw : Rand α} {a : α} (h : Reaches draw a) :
    Function.Surjective fun s => (draw s).2 := by
  intro t
  rcases h t with ⟨s, hs⟩
  exact ⟨s, congrArg Prod.snd hs⟩

theorem reaches_rand (r : ℕ) : Reaches rand r := fun t => ⟨fun i => Nat.casesOn i r t, rfl⟩

theorem reaches_fillRandom (msg : Bytes) : Reaches (fillRandom msg.length) msg := by
  induction msg with
  | nil => exact Reaches.pure []
  | cons b msg ih =>
      apply Reaches.bind (reaches_rand b.toNat)
      apply Reaches.bind ih
      have hb : UInt8.ofNat b.toNat = b := UInt8.ofNat_toNat
      rw [hb]
      exact Reaches.pure _

theorem everySeed_fillRandom (n : ℕ) : EverySeed (fun msg => msg.length = n) (fillRandom n) := by
  induction n with
  | zero => exact EverySeed.pure rfl
  | succ n ih =>
      refine EverySeed.bind (everySeed_true _) fun r _ => ?_
      refine EverySeed.bind ih fun rest hrest => ?_
      exact EverySeed.pure (congrArg (· + 1) hrest)

/-! ## Loops -/

def loop {σ : Type} (body : ℕ → σ → List Check × σ) (n : ℕ) (s : σ) : Option Check × σ :=
  ((iterate body 0 n s).violation, stateAt body 0 n s)

section

variable {σ : Type} {body : ℕ → σ → List Check × σ} {n : ℕ}

theorem loop_violation (s : σ) :
    (loop body n s).1 =
      (List.range n).findSome? fun i => violation (body i (stateAt body 0 i s)).1 := by
  rw [loop, Fhe.iterate_violation]
  simp only [Nat.zero_add]

theorem loop_passes_iff (honto : ∀ i, Function.Surjective fun s => (body i s).2) :
    (∀ s, (loop body n s).1 = none) ↔ ∀ i < n, ∀ s, violation (body i s).1 = none := by
  simp only [loop_violation, List.findSome?_eq_none_iff, List.mem_range]
  constructor
  · intro hpasses i hi t
    rcases stateAt_surjective honto 0 i t with ⟨s, rfl⟩
    exact hpasses s i hi
  · exact fun hall s i hi => hall i hi _

theorem findSome?_report {ι : Type} {l : List ι} {f : ι → Option Check} {p : ι → Bool} {c : Check}
    (hf : ∀ x ∈ l, f x = if p x then some c else none) :
    l.findSome? f = if l.any p then some c else none := by
  induction l with
  | nil => rfl
  | cons x l ih =>
      rw [List.forall_mem_cons] at hf
      rw [List.findSome?_cons, List.any_cons, hf.1, ih hf.2]
      cases p x with
      | false => rfl
      | true => rfl

/-- Iterations that all make the same report, or none. -/
theorem loop_reports {p : ℕ → Bool} {c : Check}
    (hbody : ∀ i < n, ∀ s, violation (body i s).1 = if p i then some c else none) (s : σ) :
    (loop body n s).1 = if (List.range n).any p then some c else none := by
  rw [loop_violation]
  exact findSome?_report fun i hi => hbody i (List.mem_range.mp hi) _

end

/-! ## Sessions -/

/-- What is left of a run: an abort has no exit status. -/
structure Finished where
  stdout : List String
  stderr : List String
  violation : Option Check
  status : Option ℕ

/-- The end of `main`, with the line that sums up the schemes that ran. -/
def finish (summary : ℕ → String) (w : Session Check) : Finished :=
  match w.failure with
  | some c => ⟨w.stdout, w.stderr, some c, none⟩
  | none =>
      if w.ran = 0 then
        ⟨w.stdout, w.stderr ++ ["CMF: no PQC schemes available in liboqs\n"], none, some 1⟩
      else ⟨w.stdout ++ [summary w.ran], w.stderr, none, some 0⟩

theorem finish_violation (summary : ℕ → String) (w : Session Check) :
    (finish summary w).violation = w.failure := by
  rw [finish]
  cases w.failure with
  | some c => rfl
  | none =>
      dsimp only
      split <;> rfl

theorem finish_status_iff (summary : ℕ → String) (w : Session Check) :
    (finish summary w).status = some 0 ↔ w.failure = none ∧ w.ran ≠ 0 := by
  rw [finish]
  cases w.failure with
  | some c => exact iff_of_false (Option.some_ne_none 0).symm fun h => Option.some_ne_none c h.1
  | none =>
      rw [eq_self, true_and]
      dsimp only
      split
      · next hran =>
          exact iff_of_false (fun h => Nat.one_ne_zero (Option.some.inj h)) (not_not.mpr hran)
      · next hran => exact iff_of_true rfl hran

theorem finish_drive_status {σ : Type} [Inhabited σ] (summary : ℕ → String)
    {stages : List (Stage Check σ)}
    (honto : ∀ stage ∈ stages, ∀ run ∈ stage.run, Function.Surjective fun s => (run s).2) :
    (∀ s, (finish summary (drive stages s .empty)).status = some 0) ↔
      (∃ stage ∈ stages, stage.run.isSome) ∧
        ∀ stage ∈ stages, ∀ run ∈ stage.run, ∀ s, (run s).1 = none := by
  have hpasses := drive_passes_iff honto (w := Session.empty) rfl
  have hran : ∀ s, (drive stages s Session.empty).failure = none →
      ((drive stages s Session.empty).ran ≠ 0 ↔ ∃ stage ∈ stages, stage.run.isSome) := by
    intro s hs
    rw [drive_ran hs, ← List.countP_pos_iff, Nat.pos_iff_ne_zero]
    exact not_congr (Eq.congr_left (Nat.zero_add _))
  simp only [finish_status_iff]
  rw [← hpasses]
  constructor
  · intro hstatus
    exact ⟨(hran default (hstatus default).1).mp (hstatus default).2, fun s => (hstatus s).1⟩
  · exact fun h s => ⟨h.2 s, (hran s (h.2 s)).mpr h.1⟩

inductive Scheme where
  | kem (name : String)
  | sig (name : String)
  deriving DecidableEq, Repr

/-- `KEMS`, then `SIGS`. -/
def schemes : List Scheme :=
  [.kem "ML-KEM-512", .kem "ML-KEM-768", .kem "ML-KEM-1024",
    .sig "ML-DSA-44", .sig "ML-DSA-65", .sig "ML-DSA-87"]

def Scheme.absent : Scheme → String
  | .kem name => s!"CMF: liboqs KEM {name} not enabled, skipping\n"
  | .sig name => s!"CMF: liboqs SIG {name} not enabled, skipping\n"

/-! ## `main` of `pqc_diff_harness` -/

/-- The verdicts on `msg` and on its copy with byte `j` tampered. -/
def verdictChecks (name detail : String) (oqs pqc : SigCalls) (msg pk sig : Bytes) (j : ℕ) :
    List Check :=
  let agree := fun m => decide (oqs.verify sig m pk = pqc.verify sig m pk)
  [⟨name, sigInteropOracle, detail, agree msg⟩,
    ⟨name, sigInteropOracle, detail, agree (msg.modify j (· ^^^ 0x01))⟩]

/-- The checks of an iteration, by the messages and the tampered places. -/
def sigChecks (fault : Bool) (name : String) (oqs pqc : SigCalls) (msgA : Bytes) (jA : ℕ)
    (msgB : Bytes) (jB : ℕ) : List Check :=
  match signed oqs msgA with
  | none => []
  | some (pk, sig) =>
      verdictChecks name sigDirA oqs (turned fault pqc) msgA pk sig jA ++
        match signed pqc msgB with
        | none => []
        | some (pk, sig) => verdictChecks name sigDirB oqs pqc msgB pk sig jB

/-- What an iteration can draw. -/
structure Drawn (msgA : Bytes) (jA : ℕ) (msgB : Bytes) (jB : ℕ) : Prop where
  positive : 0 < msgA.length
  short : msgA.length ≤ 200
  same : msgB.length = msgA.length
  left : jA < msgA.length
  right : jB < msgB.length

theorem everySeed_verdicts (name detail : String) (oqs pqc : SigCalls) {msg : Bytes}
    (hmsg : 0 < msg.length) (pk sig : Bytes) :
    EverySeed (fun checks => ∃ j < msg.length,
        checks = verdictChecks name detail oqs pqc msg pk sig j)
      (verdicts name detail oqs pqc msg pk sig) := by
  refine EverySeed.bind (everySeed_true _) fun r _ => ?_
  exact EverySeed.pure ⟨r % msg.length, Nat.mod_lt r hmsg, rfl⟩

theorem reaches_verdicts (name detail : String) (oqs pqc : SigCalls) {msg : Bytes} {j : ℕ}
    (hj : j < msg.length) (pk sig : Bytes) :
    Reaches (verdicts name detail oqs pqc msg pk sig)
      (verdictChecks name detail oqs pqc msg pk sig j) := by
  apply Reaches.bind (reaches_rand j)
  rw [Nat.mod_eq_of_lt hj]
  exact Reaches.pure _

/-- An iteration makes such checks, whatever it draws. -/
theorem everySeed_sigInteropBody (fault : Bool) (name : String) (oqs pqc : SigCalls) :
    EverySeed (fun checks => ∃ msgA jA msgB jB, Drawn msgA jA msgB jB ∧
        checks = sigChecks fault name oqs pqc msgA jA msgB jB)
      (sigInteropBody fault name oqs pqc) := by
  refine EverySeed.bind (everySeed_true _) fun r _ => ?_
  have hpositive : 0 < 1 + r % 200 := by omega
  have hshort : 1 + r % 200 ≤ 200 := by omega
  refine EverySeed.bind (everySeed_fillRandom _) fun msgA hmsgA => ?_
  rw [← hmsgA] at hpositive hshort
  cases hsignedA : signed oqs msgA with
  | none =>
      refine EverySeed.pure ⟨msgA, 0, msgA, 0, ⟨hpositive, hshort, rfl, hpositive, hpositive⟩, ?_⟩
      rw [sigChecks, hsignedA]
  | some keyA =>
      refine EverySeed.bind (everySeed_verdicts _ _ _ _ hpositive _ _) fun dirA hdirA => ?_
      rcases hdirA with ⟨jA, hjA, rfl⟩
      refine EverySeed.bind (everySeed_fillRandom _) fun msgB hmsgB => ?_
      have hsame : msgB.length = msgA.length := hmsgB.trans hmsgA.symm
      have hpositiveB : 0 < msgB.length := hsame ▸ hpositive
      cases hsignedB : signed pqc msgB with
      | none =>
          refine EverySeed.pure ⟨msgA, jA, msgB, 0, ⟨hpositive, hshort, hsame, hjA, hpositiveB⟩, ?_⟩
          rw [sigChecks, hsignedA, hsignedB]
          exact (List.append_nil _).symm
      | some keyB =>
          refine EverySeed.bind (everySeed_verdicts _ _ _ _ hpositiveB _ _) fun dirB hdirB => ?_
          rcases hdirB with ⟨jB, hjB, rfl⟩
          refine EverySeed.pure ⟨msgA, jA, msgB, jB, ⟨hpositive, hshort, hsame, hjA, hjB⟩, ?_⟩
          rw [sigChecks, hsignedA, hsignedB]

/-- And it can draw all of them. -/
theorem reaches_sigInteropBody (fault : Bool) (name : String) (oqs pqc : SigCalls)
    {msgA msgB : Bytes} {jA jB : ℕ} (h : Drawn msgA jA msgB jB) :
    Reaches (sigInteropBody fault name oqs pqc)
      (sigChecks fault name oqs pqc msgA jA msgB jB) := by
  have hlen : 1 + (msgA.length - 1) % 200 = msgA.length := by
    have hpositive := h.positive
    have hshort := h.short
    omega
  apply Reaches.bind (reaches_rand (msgA.length - 1))
  dsimp only
  rw [hlen]
  apply Reaches.bind (reaches_fillRandom msgA)
  cases hsignedA : signed oqs msgA with
  | none =>
      rw [sigChecks, hsignedA]
      exact Reaches.pure []
  | some keyA =>
      rw [sigChecks, hsignedA]
      apply Reaches.bind (reaches_verdicts _ _ _ _ h.left _ _)
      rw [← h.same]
      apply Reaches.bind (reaches_fillRandom msgB)
      cases hsignedB : signed pqc msgB with
      | none =>
          dsimp only
          rw [List.append_nil]
          exact Reaches.pure _
      | some keyB =>
          exact Reaches.bind (reaches_verdicts _ _ _ _ h.right _ _) (Reaches.pure _)

/-! ## Libraries that interoperate -/

/-- Both sides of an exchange hold one secret, in either direction. -/
def KemInteroperate (oqs pqc : KemCalls) : Prop :=
  ∀ ss ∈ secrets oqs pqc, ss.1 = ss.2 ∧ ∀ ss' ∈ secrets pqc oqs, ss'.1 = ss'.2

def SameVerdict (oqs pqc : SigCalls) (key : Bytes × Bytes) (msg : Bytes) : Prop :=
  oqs.verify key.2 msg key.1 = pqc.verify key.2 msg key.1

/-- The libraries judge alike what `signer` makes of `msg`, on `msg` and on
every copy with one byte tampered. -/
def JudgeAlike (oqs pqc signer : SigCalls) (msg : Bytes) : Prop :=
  ∀ key ∈ signed signer msg, SameVerdict oqs pqc key msg ∧
    ∀ j < msg.length, SameVerdict oqs pqc key (msg.modify j (· ^^^ 0x01))

def SigInteroperate (oqs pqc : SigCalls) : Prop :=
  ∀ msg, 0 < msg.length → msg.length ≤ 200 →
    JudgeAlike oqs pqc oqs msg ∧ (oqs.Succeed → JudgeAlike oqs pqc pqc msg)

theorem kemInteropBody_quiet_iff (name : String) (oqs pqc : KemCalls) :
    violation (kemInteropBody false name oqs pqc) = none ↔ KemInteroperate oqs pqc := by
  rw [Fhe.violation_eq_none_iff, kemInteropBody, KemInteroperate]
  cases secrets oqs pqc with
  | none =>
      exact iff_of_true (fun c hc => absurd hc List.not_mem_nil)
        fun ss hss => absurd hss (Option.not_mem_none ss)
  | some ssA =>
      cases secrets pqc oqs with
      | none => simp
      | some ssB => simp

theorem kemInteropBody_fault (name : String) {oqs pqc : KemCalls}
    (halike : KemInteroperate oqs pqc) (hsize : ∀ ss ∈ secrets oqs pqc, ss.1 ≠ []) :
    violation (kemInteropBody true name oqs pqc) =
      if (secrets oqs pqc).isSome then some ⟨name, kemInteropOracle, kemDirA, false⟩ else none := by
  rw [KemInteroperate] at halike
  rw [kemInteropBody]
  cases hsecrets : secrets oqs pqc with
  | none => rfl
  | some ss =>
      have hsame := (halike ss hsecrets).1
      have hpositive := List.length_pos_iff.mpr (hsize ss hsecrets)
      have hspoilt : ¬ ss.1.modify 0 (· ^^^ 0xFF) = ss.2 := by
        rw [← hsame]
        exact BlockModes.modify_xor_ne hpositive (by decide)
      dsimp only
      rw [if_pos rfl, decide_eq_false hspoilt]
      rfl

theorem verdictChecks_hold_iff (name detail : String) (oqs pqc : SigCalls) (msg pk sig : Bytes)
    (j : ℕ) :
    (∀ c ∈ verdictChecks name detail oqs pqc msg pk sig j, c.holds = true) ↔
      SameVerdict oqs pqc (pk, sig) msg ∧
        SameVerdict oqs pqc (pk, sig) (msg.modify j (· ^^^ 0x01)) := by
  rw [verdictChecks, List.forall_mem_cons, List.forall_mem_singleton, decide_eq_true_iff,
    decide_eq_true_iff]
  rfl

theorem sigChecks_quiet_iff (name : String) (oqs pqc : SigCalls) (msgA : Bytes) (jA : ℕ)
    (msgB : Bytes) (jB : ℕ) :
    violation (sigChecks false name oqs pqc msgA jA msgB jB) = none ↔
      ∀ key ∈ signed oqs msgA,
        (SameVerdict oqs pqc key msgA ∧ SameVerdict oqs pqc key (msgA.modify jA (· ^^^ 0x01))) ∧
        ∀ key' ∈ signed pqc msgB,
          SameVerdict oqs pqc key' msgB ∧
            SameVerdict oqs pqc key' (msgB.modify jB (· ^^^ 0x01)) := by
  have hplain : turned false pqc = pqc := rfl
  rw [Fhe.violation_eq_none_iff, sigChecks, hplain]
  cases signed oqs msgA with
  | none =>
      exact iff_of_true (fun c hc => absurd hc List.not_mem_nil)
        fun key hkey => absurd hkey (Option.not_mem_none key)
  | some keyA =>
      dsimp only
      rw [List.forall_mem_append, verdictChecks_hold_iff]
      cases signed pqc msgB with
      | none => simp
      | some keyB => simp [verdictChecks_hold_iff]

theorem signs_of_succeed {calls : SigCalls} (h : calls.Succeed) (msg : Bytes) :
    ∃ key, key ∈ signed calls msg :=
  Option.isSome_iff_exists.mp ((signed_isSome calls msg).mpr h)

theorem succeed_of_signs {calls : SigCalls} {msg : Bytes} {key : Bytes × Bytes}
    (hkey : key ∈ signed calls msg) : calls.Succeed :=
  (signed_isSome calls msg).mp (Option.isSome_iff_exists.mpr ⟨key, hkey⟩)

/-- No numbers lead an iteration to a report exactly if the libraries judge
every message alike. -/
theorem sigInteropBody_quiet_iff (name : String) (oqs pqc : SigCalls) :
    (∀ s, violation (sigInteropBody false name oqs pqc s).1 = none) ↔
      SigInteroperate oqs pqc := by
  constructor
  · intro hquiet
    have hdrawn : ∀ {msgA jA msgB jB}, Drawn msgA jA msgB jB →
        violation (sigChecks false name oqs pqc msgA jA msgB jB) = none := by
      intro msgA jA msgB jB h
      rcases reaches_sigInteropBody false name oqs pqc h (fun _ => 0) with ⟨s, hs⟩
      have hs' := hquiet s
      rwa [hs] at hs'
    intro msg hpositive hshort
    constructor
    · intro key hkey
      have hkept := fun j (hj : j < msg.length) => ((sigChecks_quiet_iff _ _ _ _ _ _ _).mp
        (hdrawn ⟨hpositive, hshort, rfl, hj, hpositive⟩) key hkey).1
      exact ⟨(hkept 0 hpositive).1, fun j hj => (hkept j hj).2⟩
    · intro hsucceed key hkey
      rcases signs_of_succeed hsucceed msg with ⟨first, hfirst⟩
      have hkept := fun j (hj : j < msg.length) => ((sigChecks_quiet_iff _ _ _ _ _ _ _).mp
        (hdrawn ⟨hpositive, hshort, rfl, hpositive, hj⟩) first hfirst).2 key hkey
      exact ⟨(hkept 0 hpositive).1, fun j hj => (hkept j hj).2⟩
  · intro halike s
    rcases everySeed_sigInteropBody false name oqs pqc s with ⟨msgA, jA, msgB, jB, h, hchecks⟩
    rw [hchecks, sigChecks_quiet_iff]
    intro key hkey
    have hA := (halike msgA h.positive h.short).1 key hkey
    refine ⟨⟨hA.1, hA.2 jA h.left⟩, fun key' hkey' => ?_⟩
    have hpositive : 0 < msgB.length := h.same ▸ h.positive
    have hshort : msgB.length ≤ 200 := h.same ▸ h.short
    have hB := (halike msgB hpositive hshort).2 (succeed_of_signs hkey) key' hkey'
    exact ⟨hB.1, hB.2 jB h.right⟩

def SigCalls.signs (calls : SigCalls) : Bool := calls.keypair.isSome && calls.sign.isSome

theorem sigInteropBody_fault (name : String) {oqs pqc : SigCalls}
    (halike : SigInteroperate oqs pqc) (s : ℕ → ℕ) :
    violation (sigInteropBody true name oqs pqc s).1 =
      if oqs.signs then some ⟨name, sigInteropOracle, sigDirA, false⟩ else none := by
  rcases everySeed_sigInteropBody true name oqs pqc s with ⟨msgA, jA, msgB, jB, h, hchecks⟩
  have hsigns : (signed oqs msgA).isSome = oqs.signs := by
    rw [Bool.eq_iff_iff, signed_isSome, SigCalls.signs, Bool.and_eq_true]
    rfl
  rw [hchecks, ← hsigns, sigChecks]
  cases hsigned : signed oqs msgA with
  | none => rfl
  | some key =>
      have hsame := ((halike msgA h.positive h.short).1 key hsigned).1
      have hturned : ¬ oqs.verify key.2 msgA key.1 = (turned true pqc).verify key.2 msgA key.1 := by
        rw [hsame]
        exact fun hnot => Bool.not_ne_self _ hnot.symm
      dsimp only
      rw [verdictChecks]
      dsimp only
      rw [decide_eq_false hturned]
      rfl

/-! ## All schemes -/

/-- `OQS_KEM_new` and `OQS_SIG_new` give nothing for a scheme that is not
enabled. -/
structure Liboqs where
  kem : String → Option (ℕ → KemCalls)
  sig : String → Option (ℕ → SigCalls)

structure Pqclean where
  kem : String → ℕ → KemCalls
  sig : String → ℕ → SigCalls

def interopStage (fault : Bool) (oqs : Liboqs) (pqc : Pqclean) (iters : ℤ) (scheme : Scheme) :
    Stage Check (ℕ → ℕ) where
  absent := scheme.absent
  passed :=
    match scheme with
    | .kem name => kemInteropLine name iters
    | .sig name => sigInteropLine name iters
  run :=
    match scheme with
    | .kem name => (oqs.kem name).map fun calls =>
        loop (fun i s => (kemInteropBody fault name (calls i) (pqc.kem name i), s)) iters.toNat
    | .sig name => (oqs.sig name).map fun calls =>
        loop (fun i => sigInteropBody fault name (calls i) (pqc.sig name i)) iters.toNat

def pqcDiff (fault : Bool) (oqs : Liboqs) (pqc : Pqclean) (seeded : ℕ → ℕ) (iters : ℤ) :
    Finished :=
  finish (fun ran =>
      s!"[pqc-diff] all liboqs<->PQClean differentials agree ({ran} scheme(s))\n")
    (drive (schemes.map (interopStage fault oqs pqc iters)) seeded .empty)

/-- liboqs enables the scheme, and in the first `n` iterations it interoperates
with PQClean. -/
def Liboqs.Enables (oqs : Liboqs) : Scheme → Prop
  | .kem name => (oqs.kem name).isSome
  | .sig name => (oqs.sig name).isSome

def Interoperates (oqs : Liboqs) (pqc : Pqclean) (n : ℕ) : Scheme → Prop
  | .kem name => ∀ calls ∈ oqs.kem name, ∀ i < n, KemInteroperate (calls i) (pqc.kem name i)
  | .sig name => ∀ calls ∈ oqs.sig name, ∀ i < n, SigInteroperate (calls i) (pqc.sig name i)

/-- The report of the fault build: the first iteration of the scheme whose calls
in direction A succeed makes it. -/
def interopFault (oqs : Liboqs) (pqc : Pqclean) (n : ℕ) : Scheme → Option Check
  | .kem name => (oqs.kem name).bind fun calls =>
      if (List.range n).any fun i => (secrets (calls i) (pqc.kem name i)).isSome then
        some ⟨name, kemInteropOracle, kemDirA, false⟩
      else none
  | .sig name => (oqs.sig name).bind fun calls =>
      if (List.range n).any fun i => (calls i).signs then
        some ⟨name, sigInteropOracle, sigDirA, false⟩
      else none

theorem drawn_zero : Drawn [0] 0 [0] 0 := ⟨by decide, by decide, rfl, by decide, by decide⟩

theorem interopStage_isSome_iff (fault : Bool) (oqs : Liboqs) (pqc : Pqclean) (iters : ℤ)
    (scheme : Scheme) : (interopStage fault oqs pqc iters scheme).run.isSome ↔
      oqs.Enables scheme := by
  cases scheme with
  | kem name => exact iff_of_eq (congrArg (· = true) Option.isSome_map)
  | sig name => exact iff_of_eq (congrArg (· = true) Option.isSome_map)

theorem interopStage_surjective (fault : Bool) (oqs : Liboqs) (pqc : Pqclean) (iters : ℤ)
    (scheme : Scheme) : ∀ run ∈ (interopStage fault oqs pqc iters scheme).run,
      Function.Surjective fun s => (run s).2 := by
  intro run hrun
  cases scheme with
  | kem name =>
      rcases Option.map_eq_some_iff.mp hrun with ⟨calls, _, rfl⟩
      exact stateAt_surjective (fun _ => Function.surjective_id) 0 _
  | sig name =>
      rcases Option.map_eq_some_iff.mp hrun with ⟨calls, _, rfl⟩
      exact stateAt_surjective
        (fun i => (reaches_sigInteropBody fault name _ _ drawn_zero).surjective) 0 _

theorem interopStage_passes_iff (oqs : Liboqs) (pqc : Pqclean) (iters : ℤ) (scheme : Scheme) :
    (∀ run ∈ (interopStage false oqs pqc iters scheme).run, ∀ s, (run s).1 = none) ↔
      Interoperates oqs pqc iters.toNat scheme := by
  cases scheme with
  | kem name =>
      rw [Interoperates, interopStage]
      cases oqs.kem name with
      | none => simp
      | some calls =>
          simp only [Option.map_some, Option.mem_some_iff, forall_eq']
          rw [loop_passes_iff fun _ => Function.surjective_id]
          simp only [kemInteropBody_quiet_iff, forall_const]
  | sig name =>
      rw [Interoperates, interopStage]
      cases oqs.sig name with
      | none => simp
      | some calls =>
          simp only [Option.map_some, Option.mem_some_iff, forall_eq']
          rw [loop_passes_iff fun i =>
            (reaches_sigInteropBody false name _ _ drawn_zero).surjective]
          simp only [sigInteropBody_quiet_iff]

/-- The shipped program exits with 0 for all numbers of `rand` exactly if some
scheme is enabled and each that is interoperates, whatever is signed.  Then the
fault build stops at the first scheme with an exchange or a signature that
succeeds, for all numbers alike. -/
theorem pqc_diff_exact (oqs : Liboqs) (pqc : Pqclean) (iters : ℤ) :
    ((∀ seeded, (pqcDiff false oqs pqc seeded iters).status = some 0) ↔
      (∃ scheme ∈ schemes, oqs.Enables scheme) ∧
        ∀ scheme ∈ schemes, Interoperates oqs pqc iters.toNat scheme) ∧
    ((∀ scheme ∈ schemes, Interoperates oqs pqc iters.toNat scheme) →
      (∀ name, .kem name ∈ schemes → ∀ calls ∈ oqs.kem name, ∀ i < iters.toNat,
        ∀ ss ∈ secrets (calls i) (pqc.kem name i), ss.1 ≠ []) →
      ∀ seeded, (pqcDiff true oqs pqc seeded iters).violation =
        schemes.findSome? (interopFault oqs pqc iters.toNat)) := by
  constructor
  · have honto : ∀ stage ∈ schemes.map (interopStage false oqs pqc iters), ∀ run ∈ stage.run,
        Function.Surjective fun s => (run s).2 :=
      List.forall_mem_map.mpr fun scheme _ => interopStage_surjective false oqs pqc iters scheme
    simp only [pqcDiff]
    rw [finish_drive_status _ honto, List.forall_mem_map]
    simp only [List.mem_map, exists_exists_and_eq_and, interopStage_isSome_iff,
      interopStage_passes_iff]
  · intro hinterop hsize seeded
    rw [pqcDiff, finish_violation]
    apply drive_failure _ _ seeded rfl
    · intro scheme hscheme run hrun s
      have halike := hinterop scheme hscheme
      cases scheme with
      | kem name =>
          rcases Option.map_eq_some_iff.mp hrun with ⟨calls, hcalls, rfl⟩
          rw [interopFault, hcalls]
          exact loop_reports (fun i hi _ => kemInteropBody_fault name (halike calls hcalls i hi)
            (hsize name hscheme calls hcalls i hi)) s
      | sig name =>
          rcases Option.map_eq_some_iff.mp hrun with ⟨calls, hcalls, rfl⟩
          rw [interopFault, hcalls]
          exact loop_reports (fun i hi s =>
            sigInteropBody_fault name (halike calls hcalls i hi) s) s
    · intro scheme _ habsent
      cases scheme with
      | kem name =>
          rw [interopFault, Option.map_eq_none_iff.mp habsent]
          rfl
      | sig name =>
          rw [interopFault, Option.map_eq_none_iff.mp habsent]
          rfl

/-- One KEM is enabled, and no signature scheme. -/
def echoLiboqs : Liboqs where
  kem name := if name = "ML-KEM-768" then some fun _ => echoKem else none
  sig _ := none

def echoPqclean : Pqclean where
  kem _ _ := echoKem
  sig _ _ := ⟨none, none, fun _ _ _ => false⟩

theorem mem_echoLiboqs {name : String} {calls : ℕ → KemCalls}
    (hcalls : calls ∈ echoLiboqs.kem name) : calls = fun _ => echoKem := by
  rw [echoLiboqs] at hcalls
  dsimp only at hcalls
  split at hcalls
  · exact (Option.some.inj hcalls).symm
  · exact absurd hcalls (Option.not_mem_none calls)

theorem pqc_diff_exact_echo :
    (pqcDiff true echoLiboqs echoPqclean (fun _ => 0) 3).violation =
      some ⟨"ML-KEM-768", kemInteropOracle, kemDirA, false⟩ := by
  have hinterop : ∀ scheme ∈ schemes, Interoperates echoLiboqs echoPqclean 3 scheme := by
    intro scheme _
    cases scheme with
    | kem name =>
        intro calls hcalls i _ ss hss
        rw [mem_echoLiboqs hcalls] at hss
        rw [mem_echoLiboqs hcalls, ← Option.some.inj hss]
        exact ⟨rfl, fun ss' hss' => by rw [← Option.some.inj hss']⟩
    | sig name => exact fun calls hcalls => absurd hcalls (Option.not_mem_none calls)
  refine ((pqc_diff_exact echoLiboqs echoPqclean 3).2 hinterop ?_ fun _ => 0).trans (by decide)
  intro name _ calls hcalls i _ ss hss
  rw [mem_echoLiboqs hcalls] at hss
  rw [← Option.some.inj hss]
  exact List.cons_ne_nil 1 []

end Pqc
end CMFuzz
