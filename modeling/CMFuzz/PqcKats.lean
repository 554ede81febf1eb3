import CMFuzz.PqcPrograms

/-!
# Known answers of all PQC schemes

`main` of `pqc_kat_harness`: both libraries draw from one deterministic
generator and have to make the same bytes.  The fault build seeds PQClean with
one bit changed.
-/

namespace CMFuzz
namespace Pqc

open ByteCodec
open Engine
open Rounds
open Stages

attribute [ext] KemVector SigVector

section

variable {drbg : Drbg}

/-- Both vectors, where both are made, are the same. -/
def Identical {V : Type} (a b : Option V) : Prop := ∀ o ∈ a, ∀ p ∈ b, o = p

theorem identical_self {V : Type} (a : Option V) : Identical a a :=
  fun _ ho _ hp => Option.mem_unique ho hp

theorem kemKatBody_quiet_iff (fault : Bool) (name : String) (oqs pqc : KatKemCalls drbg)
    (seed : Bytes) :
    violation (kemKatBody fault name oqs pqc seed) = none ↔
      Identical (kemVector oqs seed) (kemVector pqc (katSeedBuild fault seed)) := by
  rw [Fhe.violation_eq_none_iff, kemKatBody, Identical]
  cases kemVector oqs seed with
  | none => simp
  | some o =>
      cases kemVector pqc (katSeedBuild fault seed) with
      | none => simp
      | some p =>
          simp only [Option.mem_some_iff, forall_eq']
          rw [KemVector.ext_iff]
          simp [cmp]

theorem sigKatBody_quiet_iff (fault : Bool) (name : String) (oqs pqc : KatSigCalls drbg)
    (msg seed : Bytes) :
    violation (sigKatBody fault name oqs pqc msg seed) = none ↔
      Identical (sigVector oqs msg seed) (sigVector pqc msg (katSeedBuild fault seed)) := by
  rw [Fhe.violation_eq_none_iff, sigKatBody, Identical]
  cases sigVector oqs msg seed with
  | none => simp
  | some o =>
      cases sigVector pqc msg (katSeedBuild fault seed) with
      | none => simp
      | some p =>
          simp only [Option.mem_some_iff, forall_eq']
          rw [SigVector.ext_iff]
          -- signatures of different lengths differ, so their report is no other
          by_cases hlength : o.sig.length ≠ p.sig.length
          · have hdiffer : ¬ o.sig = p.sig := fun h => hlength (congrArg List.length h)
            simp [cmp, hlength, hdiffer]
          · simp [cmp, hlength]

structure KatLiboqs (drbg : Drbg) where
  kem : String → Option (ℕ → KatKemCalls drbg)
  sig : String → Option (ℕ → KatSigCalls drbg)

structure KatPqclean (drbg : Drbg) where
  kem : String → ℕ → KatKemCalls drbg
  sig : String → ℕ → KatSigCalls drbg

def katStage (fault : Bool) (oqs : KatLiboqs drbg) (pqc : KatPqclean drbg) (iters : ℤ)
    (scheme : Scheme) : Stage Check Unit where
  absent := scheme.absent
  passed :=
    match scheme with
    | .kem name => kemKatLine name iters
    | .sig name => sigKatLine name iters
  run :=
    match scheme with
    | .kem name => (oqs.kem name).map fun calls =>
        loop (fun i s =>
          (kemKatBody fault name (calls i) (pqc.kem name i) (katSeed drbg i), s)) iters.toNat
    | .sig name => (oqs.sig name).map fun calls =>
        loop (fun i s => (sigKatBody fault name (calls i) (pqc.sig name i) (katMessage i)
          (katSeed drbg i), s)) iters.toNat

def pqcKat (fault : Bool) (oqs : KatLiboqs drbg) (pqc : KatPqclean drbg) (iters : ℤ) :
    Finished :=
  finish (fun ran =>
      s!"[pqc-kat] all liboqs<->PQClean KAT vectors byte-identical ({ran} scheme(s))\n")
    (drive (schemes.map (katStage fault oqs pqc iters)) () .empty)

def KatLiboqs.Enables (oqs : KatLiboqs drbg) : Scheme → Prop
  | .kem name => (oqs.kem name).isSome
  | .sig name => (oqs.sig name).isSome

/-- The vectors of the first `n` tests are the same in both libraries, where the
second is seeded with `seed i` for what the first takes. -/
def ByteIdentical (oqs : KatLiboqs drbg) (pqc : KatPqclean drbg) (seed : ℕ → Bytes) (n : ℕ) :
    Scheme → Prop
  | .kem name => ∀ calls ∈ oqs.kem name, ∀ i < n,
      Identical (kemVector (calls i) (katSeed drbg i)) (kemVector (pqc.kem name i) (seed i))
  | .sig name => ∀ calls ∈ oqs.sig name, ∀ i < n,
      Identical (sigVector (calls i) (katMessage i) (katSeed drbg i))
        (sigVector (pqc.sig name i) (katMessage i) (seed i))

theorem katStage_isSome_iff (fault : Bool) (oqs : KatLiboqs drbg) (pqc : KatPqclean drbg)
    (iters : ℤ) (scheme : Scheme) :
    (katStage fault oqs pqc iters scheme).run.isSome ↔ oqs.Enables scheme := by
  cases scheme with
  | kem name => exact iff_of_eq (congrArg (· = true) Option.isSome_map)
  | sig name => exact iff_of_eq (congrArg (· = true) Option.isSome_map)

theorem katStage_passes_iff (fault : Bool) (oqs : KatLiboqs drbg) (pqc : KatPqclean drbg)
    (iters : ℤ) (scheme : Scheme) :
    (∀ run ∈ (katStage fault oqs pqc iters scheme).run, ∀ s, (run s).1 = none) ↔
      ByteIdentical oqs pqc (fun i => katSeedBuild fault (katSeed drbg i)) iters.toNat scheme := by
  cases scheme with
  | kem name =>
      rw [ByteIdentical, katStage]
      cases oqs.kem name with
      | none => simp
      | some calls =>
          simp only [Option.map_some, Option.mem_some_iff, forall_eq']
          rw [loop_passes_iff fun _ => Function.surjective_id]
          simp only [kemKatBody_quiet_iff, forall_const]
  | sig name =>
      rw [ByteIdentical, katStage]
      cases oqs.sig name with
      | none => simp
      | some calls =>
          simp only [Option.map_some, Option.mem_some_iff, forall_eq']
          rw [loop_passes_iff fun _ => Function.surjective_id]
          simp only [sigKatBody_quiet_iff, forall_const]

/-- The libraries make the same vector from every seed. -/
def KatLiboqs.Matches (oqs : KatLiboqs drbg) (pqc : KatPqclean drbg) : Prop :=
  (∀ name, ∀ calls ∈ oqs.kem name, ∀ i seed,
    kemVector (pqc.kem name i) seed = kemVector (calls i) seed) ∧
  ∀ name, ∀ calls ∈ oqs.sig name, ∀ i msg seed,
    sigVector (pqc.sig name i) msg seed = sigVector (calls i) msg seed

/-- Test `i` of the scheme makes different vectors under its seed and under
`seed`. -/
def SeedShows (oqs : KatLiboqs drbg) (seed : Bytes) (i : ℕ) : Scheme → Prop
  | .kem name => ∃ calls ∈ oqs.kem name,
      ¬ Identical (kemVector (calls i) (katSeed drbg i)) (kemVector (calls i) seed)
  | .sig name => ∃ calls ∈ oqs.sig name,
      ¬ Identical (sigVector (calls i) (katMessage i) (katSeed drbg i))
        (sigVector (calls i) (katMessage i) seed)

theorem pqcKat_status_iff (fault : Bool) (oqs : KatLiboqs drbg) (pqc : KatPqclean drbg)
    (iters : ℤ) :
    (pqcKat fault oqs pqc iters).status = some 0 ↔
      (∃ scheme ∈ schemes, oqs.Enables scheme) ∧ ∀ scheme ∈ schemes,
        ByteIdentical oqs pqc (fun i => katSeedBuild fault (katSeed drbg i)) iters.toNat
          scheme := by
  have honto : ∀ stage ∈ schemes.map (katStage fault oqs pqc iters), ∀ run ∈ stage.run,
      Function.Surjective fun s => (run s).2 := fun _ _ _ _ t => ⟨t, rfl⟩
  have hstatus := finish_drive_status (fun ran =>
    s!"[pqc-kat] all liboqs<->PQClean KAT vectors byte-identical ({ran} scheme(s))\n") honto
  rw [List.forall_mem_map] at hstatus
  simp only [List.mem_map, exists_exists_and_eq_and, katStage_isSome_iff, katStage_passes_iff]
    at hstatus
  exact (forall_const Unit).symm.trans hstatus

theorem byteIdentical_of_matches {oqs : KatLiboqs drbg} {pqc : KatPqclean drbg}
    (hmatches : oqs.Matches pqc) (seed : ℕ → Bytes) (n : ℕ) (scheme : Scheme) :
    ByteIdentical oqs pqc seed n scheme ↔ ∀ i < n, ¬ SeedShows oqs (seed i) i scheme := by
  cases scheme with
  | kem name =>
      constructor
      · intro hidentical i hi hshows
        rcases hshows with ⟨calls, hcalls, hdiffer⟩
        apply hdiffer
        rw [← hmatches.1 name calls hcalls i (seed i)]
        exact hidentical calls hcalls i hi
      · intro hquiet calls hcalls i hi
        rw [hmatches.1 name calls hcalls i]
        exact not_not.mp fun hdiffer => hquiet i hi ⟨calls, hcalls, hdiffer⟩
  | sig name =>
      constructor
      · intro hidentical i hi hshows
        rcases hshows with ⟨calls, hcalls, hdiffer⟩
        apply hdiffer
        rw [← hmatches.2 name calls hcalls i (katMessage i) (seed i)]
        exact hidentical calls hcalls i hi
      · intro hquiet calls hcalls i hi
        rw [hmatches.2 name calls hcalls i]
        exact not_not.mp fun hdiffer => hquiet i hi ⟨calls, hcalls, hdiffer⟩

theorem not_seedShows_self (oqs : KatLiboqs drbg) (i : ℕ) (scheme : Scheme) :
    ¬ SeedShows oqs (katSeed drbg i) i scheme := by
  cases scheme with
  | kem name => exact fun ⟨_, _, hdiffer⟩ => hdiffer (identical_self _)
  | sig name => exact fun ⟨_, _, hdiffer⟩ => hdiffer (identical_self _)

/-- Where some scheme is enabled, the shipped program exits with 0 exactly if all
vectors that both libraries make are the same.  Over libraries that make the
same vectors from every seed it does, and the fault build fails exactly where
the changed bit shows in a vector. -/
theorem pqc_kat_exact (oqs : KatLiboqs drbg) (pqc : KatPqclean drbg) (iters : ℤ)
    (henabled : ∃ scheme ∈ schemes, oqs.Enables scheme) :
    ((pqcKat false oqs pqc iters).status = some 0 ↔
      ∀ scheme ∈ schemes, ByteIdentical oqs pqc (katSeed drbg) iters.toNat scheme) ∧
    (oqs.Matches pqc →
      (pqcKat false oqs pqc iters).status = some 0 ∧
      ((pqcKat true oqs pqc iters).status = some 0 ↔
        ∀ scheme ∈ schemes, ∀ i < iters.toNat,
          ¬ SeedShows oqs (katSeedBuild true (katSeed drbg i)) i scheme)) := by
  have hstatus := fun fault =>
    (pqcKat_status_iff fault oqs pqc iters).trans (and_iff_right henabled)
  have hshipped : (pqcKat false oqs pqc iters).status = some 0 ↔
      ∀ scheme ∈ schemes, ByteIdentical oqs pqc (katSeed drbg) iters.toNat scheme := hstatus false
  refine ⟨hshipped, fun hmatches => ⟨?_, ?_⟩⟩
  · rw [hshipped]
    intro scheme _
    rw [byteIdentical_of_matches hmatches]
    exact fun i _ => not_seedShows_self oqs i scheme
  · rw [hstatus true]
    simp only [byteIdentical_of_matches hmatches]

end

/-- The seed is the state, and `drawn` the seed of every test. -/
def idleDrbg (drawn : Bytes) : Drbg := ⟨Bytes, id, fun s _ => (drawn, s)⟩

/-- The state is the key. -/
def stateKem (drbg : Drbg) (key : drbg.State → Bytes) : KatKemCalls drbg :=
  ⟨some fun s => ((key s, key s), s), some fun pk _ => (pk, pk)⟩

def stateLiboqs : KatLiboqs (idleDrbg [1]) where
  kem _ := some fun _ => stateKem (idleDrbg [1]) id
  sig _ := none

def statePqclean : KatPqclean (idleDrbg [1]) where
  kem _ _ := stateKem (idleDrbg [1]) id
  sig _ _ := ⟨none, none⟩

theorem stateLiboqs_matches : stateLiboqs.Matches statePqclean := by
  constructor
  · intro name calls hcalls i seed
    rw [← Option.some.inj hcalls]
    rfl
  · exact fun name calls hcalls => absurd hcalls (Option.not_mem_none calls)

theorem pqc_kat_exact_state :
    (pqcKat false stateLiboqs statePqclean 2).status = some 0 ∧
      (pqcKat true stateLiboqs statePqclean 2).status ≠ some 0 := by
  have henabled : ∃ scheme ∈ schemes, stateLiboqs.Enables scheme :=
    ⟨.kem "ML-KEM-512", by decide, rfl⟩
  have hexact := (pqc_kat_exact stateLiboqs statePqclean 2 henabled).2 stateLiboqs_matches
  refine ⟨hexact.1, fun hpasses => ?_⟩
  refine hexact.2.mp hpasses (.kem "ML-KEM-512") (by decide) 0 (by decide) ⟨_, rfl, ?_⟩
  intro hidentical
  exact absurd (congrArg KemVector.pk (hidentical _ rfl _ rfl)) (by decide)

end Pqc
end CMFuzz
