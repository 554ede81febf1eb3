import CMFuzz.MutationSelector
import CMFuzz.RandomCalls

/-!
# Schemes that work from coins

KEMs and signature schemes that draw a fixed number of random bytes for a key
pair, an encapsulation or a signature and compute the rest from them, and what
the tests of the harnesses take for granted about a sound one.
-/

namespace CMFuzz
namespace Replay

open ByteCodec
open Engine
open RandomPrograms
open SplitMix

/-! ## KEMs -/

structure SeededKem where
  name : String
  enabled : Bool
  lengthCiphertext : ℕ
  keyCoins : ℕ
  encCoins : ℕ
  keypair : Bytes → Option (Bytes × Bytes)
  encaps : Bytes → Bytes → Option (Bytes × Bytes)
  decaps : Bytes → Bytes → Option Bytes

def SeededKem.oqs (k : SeededKem) : OqsKem where
  name := k.name
  enabled := k.enabled
  lengthCiphertext := k.lengthCiphertext
  keypair := .draw k.keyCoins fun coins => .done (k.keypair coins)
  encaps := fun pk => .draw k.encCoins fun coins => .done (k.encaps coins pk)
  decaps := fun ct sk => .done (k.decaps ct sk)

/-- A shared secret that someone sent to the keys made from `d`. -/
structure SeededKem.Sent (k : SeededKem) (d pk sk ct ss : Bytes) : Prop where
  keys : k.keypair d = some (pk, sk)
  sent : ∃ e, k.encaps e pk = some (ct, ss)

/-- The holder of the key recovers the secret, from this ciphertext alone and
with this key alone. -/
structure SeededKem.Ideal (k : SeededKem) : Prop where
  length_pos : 0 < k.lengthCiphertext
  length_eq {d pk sk ct ss : Bytes} : k.Sent d pk sk ct ss → ct.length = k.lengthCiphertext
  honest {d pk sk ct ss : Bytes} : k.Sent d pk sk ct ss → k.decaps ct sk = some ss
  mutated {d pk sk ct ss ct' : Bytes} : k.Sent d pk sk ct ss → ct' ≠ ct →
    k.decaps ct' sk ≠ some ss
  foreign {d pk sk ct ss d' pk' sk' : Bytes} : k.Sent d pk sk ct ss →
    k.keypair d' = some (pk', sk') → d' ≠ d → k.decaps ct sk' ≠ some ss

/-! ## Signature schemes -/

structure SeededSig where
  name : String
  enabled : Bool
  lengthSignature : ℕ
  keyCoins : ℕ
  signCoins : ℕ
  keypair : Bytes → Option (Bytes × Bytes)
  sign : Bytes → Bytes → Bytes → Option Bytes
  verify : Bytes → Bytes → Bytes → Bool

def SeededSig.oqs (s : SeededSig) : OqsSig where
  name := s.name
  enabled := s.enabled
  lengthSignature := s.lengthSignature
  keypair := .draw s.keyCoins fun coins => .done (s.keypair coins)
  sign := fun m sk => .draw s.signCoins fun coins => .done (s.sign coins m sk)
  verify := fun m sig pk => .done (s.verify m sig pk)

structure SeededSig.Signed (s : SeededSig) (d pk sk m sig : Bytes) : Prop where
  keys : s.keypair d = some (pk, sk)
  signed : ∃ e, s.sign e m sk = some sig

/-- A signature is accepted as it is, on its message and under its key alone. -/
structure SeededSig.Ideal (s : SeededSig) : Prop where
  honest {d pk sk m sig : Bytes} : s.Signed d pk sk m sig → s.verify m sig pk = true
  otherMessage {d pk sk m sig m' : Bytes} : s.Signed d pk sk m sig → m' ≠ m →
    s.verify m' sig pk = false
  mutated {d pk sk m sig sig' : Bytes} : s.Signed d pk sk m sig → sig' ≠ sig →
    s.verify m sig' pk = false
  foreign {d pk sk m sig d' pk' sk' : Bytes} : s.Signed d pk sk m sig →
    s.keypair d' = some (pk', sk') → d' ≠ d → s.verify m sig pk' = false

/-! ## Coins of one run -/

/-- Two key pairs of a run that draws from `cmf_randombytes` come from different
coins. -/
theorem keyCoins_fresh {n m : ℕ} (hn : 8 ≤ n) (hsize : n + m < 2 ^ 64) {p : Process}
    (hp : p.custom = true) :
    (oqsRandombytes n (oqsRandombytes m (oqsRandombytes n p).2).2).1 ≠
      (oqsRandombytes n p).1 := by
  have hp' : (oqsRandombytes n p).2.custom = true := (oqsRandombytes_flags n p).1.trans hp
  have hp'' : (oqsRandombytes m (oqsRandombytes n p).2).2.custom = true :=
    (oqsRandombytes_flags m _).1.trans hp'
  intro heq
  have hwords := congrArg (List.take 8) heq
  rw [oqsRandombytes, if_pos hp'', oqsRandombytes, if_pos hp', oqsRandombytes, if_pos hp] at hwords
  dsimp only at hwords
  rw [cmfRandombytes_take hn, cmfRandombytes_take hn, cmfRandombytes_run, cmfRandombytes_run,
    word_advance] at hwords
  dsimp only at hwords
  rw [word_advance] at hwords
  exact word_ne p.prng (by omega) (by omega) (wordBytes_injective hwords.symm)

end Replay
end CMFuzz
