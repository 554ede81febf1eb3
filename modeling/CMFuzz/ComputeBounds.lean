import CMFuzz.ComputeClis
import CMFuzz.VectorGeneration

/-!
# Buffer bounds of the compute programs

Each compute program has one output buffer for requests of any length.  A
request stays inside the buffers exactly when an AEAD message leaves room for
its tag and an X25519 message has the 32 bytes of the peer key.
-/

namespace CMFuzz
namespace Compute

open Buffer
open ByteCodec
open Runner
open Wire

/-! ## The six programs -/

inductive Cli where
  | boringssl | awsLc | wolfssl | botan | libgcrypt | nettle
  deriving DecidableEq, Repr

namespace Cli

/-- `sizeof out`. -/
def outSize : Cli → ℕ
  | .boringssl => 4096 + 64
  | .awsLc => 4096 + 64
  | .wolfssl => 4096 + 64
  | .botan => 4096 + 64
  | .libgcrypt => 8192
  | .nettle => 8192

def aeadOps : Cli → List ℤ
  | .boringssl => [3, 4]
  | .awsLc => [3, 4]
  | .wolfssl => [3, 4]
  | .botan => [3, 4]
  | .libgcrypt => [3, 4, 23, 24]
  | .nettle => [3, 4, 23, 24]

def handle (cli : Cli) (lib : Library) (v : CmfVec) : Handled :=
  match cli with
  | .boringssl => BoringSSL.compute lib v
  | .awsLc => AwsLc.compute lib v
  | .wolfssl => WolfSSL.compute lib v
  | .botan => Botan.compute lib v
  | .libgcrypt => Libgcrypt.compute lib v
  | .nettle => Nettle.compute lib v

/-- The handler of the request stays inside `out` and inside the message. -/
def Within (cli : Cli) (lib : Library) (v : CmfVec) : Prop :=
  (cli.handle lib v).footprint.Within v.msg.length cli.outSize

structure Fits (cli : Cli) (v : CmfVec) : Prop where
  aead : v.op ∈ cli.aeadOps → v.msg.length + cmfTaglen ≤ cli.outSize
  x25519 : v.op = 12 → cli ≠ .libgcrypt → cmfX25519Len ≤ v.msg.length

end Cli

/-- The calls whose effect the bounds depend on go through. -/
structure Library.Runs (lib : Library) (v : CmfVec) : Prop where
  aead : ∀ cipher key m, m <+: v.msg → (lib.aead cipher key v.nonce v.aad m).ok = true
  x25519Setup : lib.x25519Setup v.key = true

/-! ## What a handler can do -/

def Handled.OutputLe (h : Handled) (n : ℕ) : Prop :=
  ∀ out, h.result = .output out → out.length ≤ n

/-- Every way a program can handle a request. -/
inductive Handling (cli : Cli) (lib : Library) (v : CmfVec) : Handled → Prop
  | abstains (haead : v.op ∉ cli.aeadOps) (hpeer : v.op = 12 → cli = .libgcrypt) :
      Handling cli lib v abstain
  | computes {h : Handled} (haead : v.op ∉ cli.aeadOps)
      (hop : v.op ≠ 12 ∧ v.op ≠ 13 ∧ v.op ≠ 14)
      (hwithin : h.footprint.Within v.msg.length 64)
      (houtput : h.OutputLe 64) : Handling cli lib v h
  | encrypts {h : Handled} (hop : v.op ∈ cli.aeadOps)
      (hwithin : h.footprint.Within v.msg.length (v.msg.length + cmfTaglen))
      (hreach : lib.Runs v →
        ∃ s ∈ h.footprint.writes, s.stop = v.msg.length + cmfTaglen)
      (houtput : h.OutputLe (v.msg.length + cmfTaglen)) :
      Handling cli lib v h
  | exchanges {h : Handled} (hop : v.op = 12) (hcli : cli ≠ .libgcrypt)
      (hwithin : h.footprint.Within cmfX25519Len 64)
      (hreach : lib.Runs v → ⟨0, cmfX25519Len⟩ ∈ h.footprint.reads)
      (houtput : h.OutputLe 64) : Handling cli lib v h
  | judges (verify : Bytes → Bytes → Bytes → Option Bool)
      (hop : v.op = 13 ∨ v.op = 14) : Handling cli lib v (judge verify v)

theorem outputLe_checked {room n : ℕ} (m : ℕ) (call : Filled room) (hroom : room ≤ n) :
    (checked m call).OutputLe n := by
  intro out hout
  have hlen := call.bytes_length_le
  unfold checked at hout
  split at hout
  · rw [← Computed.output.inj hout]
    exact hlen.trans hroom
  · cases hout

theorem outputLe_unchecked {room n : ℕ} (m : ℕ) (call : Filled room) (hroom : room ≤ n) :
    (unchecked m call).OutputLe n := by
  intro out hout
  rw [← Computed.output.inj hout]
  exact call.bytes_length_le.trans hroom

section

variable {cli : Cli} {lib : Library} {v : CmfVec}

theorem Handling.checked {room n : ℕ} {call : Filled room} (haead : v.op ∉ cli.aeadOps)
    (hop : v.op ≠ 12 ∧ v.op ≠ 13 ∧ v.op ≠ 14) (hread : n ≤ v.msg.length)
    (hroom : room ≤ 64) : Handling cli lib v (checked n call) :=
  .computes haead hop
    (Footprint.within_single hread (call.bytes_length_le.trans hroom))
    (outputLe_checked n call hroom)

theorem Handling.unchecked {room n : ℕ} {call : Filled room}
    (haead : v.op ∉ cli.aeadOps) (hop : v.op ≠ 12 ∧ v.op ≠ 13 ∧ v.op ≠ 14)
    (hread : n ≤ v.msg.length) (hroom : room ≤ 64) :
    Handling cli lib v (unchecked n call) :=
  .computes haead hop (Footprint.within_single hread hroom)
    (outputLe_unchecked n call hroom)

theorem Handling.oneShotAead {cipher : EvpCipher} {key : Bytes}
    (hop : v.op ∈ cli.aeadOps) :
    Handling cli lib v
      (Compute.checked v.msg.length (lib.aead cipher key v.nonce v.aad v.msg)) := by
  refine .encrypts hop ?_ ?_ (outputLe_checked _ _ le_rfl)
  · exact Footprint.within_single le_rfl (Filled.bytes_length_le _)
  · intro hruns
    have hfull := (lib.aead cipher key v.nonce v.aad v.msg).full
      (hruns.aead cipher key v.msg (List.prefix_refl _))
    refine ⟨_, List.mem_singleton_self _, ?_⟩
    rw [Span.stop, hfull, Nat.zero_add]

theorem Handling.sealParts {cipher : EvpCipher} {key m : Bytes}
    (hop : v.op ∈ cli.aeadOps) (hm : m <+: v.msg) :
    Handling cli lib v
      (sealParts v.msg.length (lib.aead cipher key v.nonce v.aad m)) := by
  have hlen := hm.length_le
  refine .encrypts hop ⟨?_, ?_⟩ ?_ ?_
  · intro s hs
    rw [List.mem_singleton.mp hs, Span.stop, Nat.zero_add]
    exact hlen
  · intro s hs
    rcases List.mem_cons.mp hs with rfl | htag
    · simp only [Span.stop]
      omega
    · split at htag
      · rw [List.mem_singleton.mp htag, Span.stop]
      · simp at htag
  · intro hruns
    refine ⟨⟨v.msg.length, cmfTaglen⟩, List.mem_cons_of_mem _ ?_, rfl⟩
    rw [if_pos (hruns.aead cipher key m hm)]
    exact List.mem_singleton_self _
  · intro out hout
    have hbytes := (lib.aead cipher key v.nonce v.aad m).bytes_length_le
    unfold Compute.sealParts at hout
    split at hout
    · rw [← Computed.output.inj hout]
      omega
    · cases hout

theorem Handling.exchange {call : Filled cmfX25519Len} (hop : v.op = 12)
    (hcli : cli ≠ .libgcrypt) :
    Handling cli lib v (Compute.checked cmfX25519Len call) :=
  .exchanges hop hcli
    (Footprint.within_single le_rfl (call.bytes_length_le.trans (by decide)))
    (fun _ => List.mem_singleton_self _) (outputLe_checked _ call (by decide))

/-! ## The programs, handler by handler -/

theorem BoringSSL.handling : Handling .boringssl lib v (BoringSSL.compute lib v) := by
  unfold BoringSSL.compute
  split
  case h_4 hop => exact .oneShotAead (by simp [hop, Cli.aeadOps])
  case h_5 hop => exact .oneShotAead (by simp [hop, Cli.aeadOps])
  case h_9 hop => exact .exchange hop (by decide)
  case h_10 hop => exact .judges _ (Or.inl hop)
  case h_11 hop => exact .judges _ (Or.inr hop)
  case h_12 => exact .abstains (by simp_all [Cli.aeadOps]) (by simp_all)
  all_goals
    next hop =>
      exact .checked (by simp [hop, Cli.aeadOps]) (by simp [hop]) le_rfl (by decide)

theorem AwsLc.handling : Handling .awsLc lib v (AwsLc.compute lib v) := by
  unfold AwsLc.compute
  split
  case h_4 hop => exact .oneShotAead (by simp [hop, Cli.aeadOps])
  case h_5 hop => exact .oneShotAead (by simp [hop, Cli.aeadOps])
  case h_13 hop => exact .exchange hop (by decide)
  case h_14 hop => exact .judges _ (Or.inl hop)
  case h_15 hop => exact .judges _ (Or.inr hop)
  case h_16 => exact .abstains (by simp_all [Cli.aeadOps]) (by simp_all)
  all_goals
    next hop =>
      exact .checked (by simp [hop, Cli.aeadOps]) (by simp [hop]) le_rfl (by decide)

theorem WolfSSL.message_prefix : WolfSSL.message v <+: v.msg := List.take_prefix _ _

theorem WolfSSL.handling : Handling .wolfssl lib v (WolfSSL.compute lib v) := by
  have hread := (WolfSSL.message_prefix (v := v)).length_le
  unfold WolfSSL.compute
  split
  case h_4 hop => exact .sealParts (by simp [hop, Cli.aeadOps]) WolfSSL.message_prefix
  case h_5 hop => exact .sealParts (by simp [hop, Cli.aeadOps]) WolfSSL.message_prefix
  case h_11 hop =>
    unfold WolfSSL.pbkdf2
    split
    · exact .computes (by simp [hop, Cli.aeadOps]) (by simp [hop])
        (Footprint.within_empty _ _) (fun _ h => by cases h)
    · exact .checked (by simp [hop, Cli.aeadOps]) (by simp [hop]) hread (by decide)
  case h_13 hop =>
    unfold WolfSSL.x25519Ss
    split
    · exact .exchange hop (by decide)
    · next hsetup =>
        exact .exchanges hop (by decide) (Footprint.within_empty _ _)
          (fun hruns => absurd hruns.x25519Setup hsetup) (fun _ h => by cases h)
  case h_14 hop => exact .judges _ (Or.inl hop)
  case h_15 hop => exact .judges _ (Or.inr hop)
  case h_16 => exact .abstains (by simp_all [Cli.aeadOps]) (by simp_all)
  all_goals
    next hop =>
      exact .checked (by simp [hop, Cli.aeadOps]) (by simp [hop]) hread (by decide)

theorem Botan.handling : Handling .botan lib v (Botan.compute lib v) := by
  unfold Botan.compute
  split
  case h_4 hop => exact .oneShotAead (by simp [hop, Cli.aeadOps])
  case h_5 hop => exact .oneShotAead (by simp [hop, Cli.aeadOps])
  case h_13 hop => exact .exchange hop (by decide)
  case h_14 hop => exact .judges _ (Or.inl hop)
  case h_15 hop => exact .judges _ (Or.inr hop)
  case h_16 => exact .abstains (by simp_all [Cli.aeadOps]) (by simp_all)
  all_goals
    next hop =>
      exact .checked (by simp [hop, Cli.aeadOps]) (by simp [hop]) le_rfl (by decide)

theorem Libgcrypt.handling : Handling .libgcrypt lib v (Libgcrypt.compute lib v) := by
  unfold Libgcrypt.compute
  split
  case h_4 hop => exact .sealParts (by simp [hop, Cli.aeadOps]) (List.prefix_refl _)
  case h_5 hop => exact .sealParts (by simp [hop, Cli.aeadOps]) (List.prefix_refl _)
  case h_19 hop => exact .sealParts (by simp [hop, Cli.aeadOps]) (List.prefix_refl _)
  case h_20 hop => exact .sealParts (by simp [hop, Cli.aeadOps]) (List.prefix_refl _)
  case h_23 => exact .abstains (by simp_all [Cli.aeadOps]) fun _ => rfl
  all_goals
    next hop =>
      first
      | exact .checked (by simp [hop, Cli.aeadOps]) (by simp [hop]) le_rfl (by decide)
      | exact .unchecked (by simp [hop, Cli.aeadOps]) (by simp [hop]) le_rfl (by decide)

theorem Nettle.handling_aead {cipher : EvpCipher} {keylen : ℕ}
    (hop : v.op ∈ Cli.aeadOps .nettle) :
    Handling .nettle lib v (Nettle.aead lib v cipher keylen) := by
  refine .encrypts hop ⟨?_, ?_⟩ ?_ ?_
  · intro s hs
    rw [List.mem_singleton.mp hs, Span.stop, Nat.zero_add]
  · intro s hs
    rcases List.mem_cons.mp hs with rfl | htag
    · simp [Span.stop]
    · rw [List.mem_singleton.mp htag, Span.stop]
  · intro _
    exact ⟨_, List.mem_cons_of_mem _ (List.mem_singleton_self _), rfl⟩
  · intro out hout
    rw [← Computed.output.inj hout]
    exact Filled.bytes_length_le _

theorem Nettle.handling : Handling .nettle lib v (Nettle.compute lib v) := by
  unfold Nettle.compute
  split
  case h_4 hop => exact handling_aead (by simp [hop, Cli.aeadOps])
  case h_5 hop => exact handling_aead (by simp [hop, Cli.aeadOps])
  case h_12 hop =>
    exact .exchanges hop (by decide) (Footprint.within_single le_rfl (by decide))
      (fun _ => List.mem_singleton_self _) (outputLe_unchecked _ _ (by decide))
  case h_21 hop => exact handling_aead (by simp [hop, Cli.aeadOps])
  case h_22 hop => exact handling_aead (by simp [hop, Cli.aeadOps])
  case h_24 => exact .abstains (by simp_all [Cli.aeadOps]) (by simp_all)
  all_goals
    next hop =>
      exact .unchecked (by simp [hop, Cli.aeadOps]) (by simp [hop]) le_rfl (by decide)

end

theorem Cli.handling (cli : Cli) (lib : Library) (v : CmfVec) :
    Handling cli lib v (cli.handle lib v) := by
  cases cli with
  | boringssl => exact BoringSSL.handling
  | awsLc => exact AwsLc.handling
  | wolfssl => exact WolfSSL.handling
  | botan => exact Botan.handling
  | libgcrypt => exact Libgcrypt.handling
  | nettle => exact Nettle.handling

/-! ## Bounds -/

theorem cmfVerifyReads_within (p : Bytes) : ∀ s ∈ cmfVerifyReads p, s.stop ≤ p.length := by
  intro s hs
  unfold cmfVerifyReads at hs
  dsimp only at hs
  split at hs
  · simp at hs
  · split at hs
    · simp only [List.mem_singleton] at hs
      subst hs
      show 0 + 2 ≤ p.length
      omega
    · split at hs
      · simp only [List.mem_cons, List.not_mem_nil, or_false] at hs
        rcases hs with rfl | rfl <;> simp only [Span.stop] <;> omega
      · simp only [List.mem_cons, List.not_mem_nil, or_false] at hs
        rcases hs with rfl | rfl | rfl | rfl | rfl <;> simp only [Span.stop] <;> omega

theorem Cli.le_outSize (cli : Cli) : 64 ≤ cli.outSize := by
  cases cli <;> decide

theorem Cli.within_of_fits {cli : Cli} (lib : Library) {v : CmfVec} (hfits : cli.Fits v) :
    cli.Within lib v := by
  have hout := cli.le_outSize
  have hhandling := cli.handling lib v
  unfold Cli.Within
  generalize cli.handle lib v = h at hhandling ⊢
  cases hhandling with
  | abstains => exact Footprint.within_empty _ _
  | computes haead hop hwithin => exact hwithin.mono le_rfl hout
  | encrypts hop hwithin => exact hwithin.mono le_rfl (hfits.aead hop)
  | exchanges hop hcli hwithin => exact hwithin.mono (hfits.x25519 hop hcli) hout
  | judges verify hop =>
      refine ⟨cmfVerifyReads_within v.msg, fun s hs => ?_⟩
      obtain rfl := List.mem_singleton.mp hs
      show 0 + 1 ≤ cli.outSize
      omega

theorem Cli.fits_of_within {cli : Cli} {lib : Library} {v : CmfVec} (hruns : lib.Runs v)
    (hwithin : cli.Within lib v) : cli.Fits v := by
  have hverify : ∀ op : ℤ, op = 13 ∨ op = 14 → op ∉ cli.aeadOps ∧ op ≠ 12 := by
    rintro op (rfl | rfl) <;> cases cli <;> decide
  have hpeer : (12 : ℤ) ∉ cli.aeadOps := by
    cases cli <;> decide
  have hhandling := cli.handling lib v
  unfold Cli.Within at hwithin
  generalize cli.handle lib v = h at hhandling hwithin
  cases hhandling with
  | abstains haead hlib =>
      exact ⟨fun h => absurd h haead, fun h hcli => absurd (hlib h) hcli⟩
  | computes haead hop =>
      exact ⟨fun h => absurd h haead, fun h => absurd h hop.1⟩
  | encrypts hop _ hreach =>
      obtain ⟨s, hs, hstop⟩ := hreach hruns
      refine ⟨fun _ => hstop ▸ hwithin.writes s hs, fun h => ?_⟩
      rw [h] at hop
      exact absurd hop hpeer
  | exchanges hop hcli _ hreach =>
      refine ⟨fun h => ?_, fun _ _ => ?_⟩
      · rw [hop] at h
        exact absurd h hpeer
      · have hstop := hwithin.reads _ (hreach hruns)
        rwa [Span.stop, Nat.zero_add] at hstop
  | judges verify hop =>
      obtain ⟨haead, hne⟩ := hverify v.op hop
      exact ⟨fun h => absurd h haead, fun h => absurd h hne⟩

/-- On every request line: a fitting request stays inside the buffers, and
where the library calls go through only a fitting one does. -/
theorem computeClis_within_iff (cli : Cli) (lib : Library) (line : Bytes) :
    ∀ v ∈ cmfVecParse line,
      (cli.Fits v → cli.Within lib v) ∧
        (lib.Runs v → (cli.Within lib v ↔ cli.Fits v)) := by
  intro v _
  refine ⟨Cli.within_of_fits lib, fun hruns => ?_⟩
  exact ⟨Cli.fits_of_within hruns, Cli.within_of_fits lib⟩

def zeros (n : ℕ) : Filled n where
  bytes := List.replicate n 0
  ok := true
  bytes_length_le := List.length_replicate.le
  full _ := List.length_replicate

/-- A library whose every call succeeds with zero bytes. -/
def zeroLibrary : Library where
  digest md _ := zeros md.size
  xof _ _ n := zeros n
  hmac md _ _ := zeros md.size
  mac _ _ _ := zeros _
  aead _ _ _ _ _ := zeros _
  hkdf _ _ _ := zeros _
  pbkdf2 _ _ _ := zeros _
  ed25519Sign _ _ := zeros _
  x25519Setup _ := true
  x25519 _ _ := zeros _
  ecdsaVerify _ _ _ := some true
  rsaPssVerify _ _ _ := some true

theorem zeroLibrary_runs (v : CmfVec) : zeroLibrary.Runs v where
  aead _ _ _ _ := rfl
  x25519Setup := rfl

theorem computeClis_within_iff_empty :
    let v := cmfVecFields (12 : ℕ) []
    (Cli.nettle.Within zeroLibrary v ↔ Cli.nettle.Fits v) ∧ ¬ Cli.nettle.Fits v := by
  intro v
  have hiff := computeClis_within_iff .nettle zeroLibrary (requestLine 12 []) v
    (cmfVecParse_requestLine (by decide) [])
  exact ⟨hiff.2 (zeroLibrary_runs v),
    fun hfits => absurd (hfits.x25519 rfl (by decide)) (by decide)⟩

theorem zeroLibrary_overrun (cli : Cli) {message : Bytes}
    (hlen : cli.outSize < message.length + cmfTaglen) :
    ¬ cli.Within zeroLibrary
      (cmfVecFields (3 : ℕ) (List.replicate headerLen 0 ++ message)) := by
  intro hwithin
  have hfits := Cli.fits_of_within (zeroLibrary_runs _) hwithin
  have hop : ((3 : ℕ) : ℤ) ∈ cli.aeadOps := by cases cli <;> decide
  have hroom := hfits.aead (by rwa [cmfVecFields_op])
  rw [cmfVecFields_zeroHeader] at hroom
  omega

/-- ChaCha20-Poly1305 on 8177 bytes overruns every output buffer, and X25519
on an empty blob reads 32 bytes of an empty message. -/
theorem computeClis_overrun :
    (∃ v, cmfVecParse (requestLine 3 (List.replicate headerLen 0 ++
        List.replicate 8177 0)) = some v ∧ ∀ cli : Cli, ¬ cli.Within zeroLibrary v) ∧
    ∃ v, cmfVecParse (requestLine 12 []) = some v ∧
      ∀ cli : Cli, cli ≠ .libgcrypt → ¬ cli.Within zeroLibrary v := by
  refine ⟨⟨_, cmfVecParse_requestLine (by decide) _, fun cli => ?_⟩,
    ⟨_, cmfVecParse_requestLine (by decide) _, fun cli hcli hwithin => ?_⟩⟩
  · have hsize : cli.outSize ≤ 8192 := by cases cli <;> decide
    refine zeroLibrary_overrun cli ?_
    rw [List.length_replicate]
    exact Nat.lt_succ_of_le hsize
  · have hfits := Cli.fits_of_within (zeroLibrary_runs _) hwithin
    exact absurd (hfits.x25519 rfl hcli) (by decide)

end Compute
end CMFuzz
