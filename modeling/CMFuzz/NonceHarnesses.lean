import CMFuzz.BlockModes
import CMFuzz.FuzzEngine

/-!
# Nonce and IV oracles

The harnesses `seq_aead`, `seq_boringssl`, `seq_aws_lc`, `seq_wolfssl`,
`seq_botan` and `seq_evp`, in the plain builds and in those of
`CMF_FAULT_NONCE` and `CMF_FAULT_IV`.  A plain build never reports a reused
nonce or vector; a fault build reports one on every input that reaches the
check.
-/

namespace CMFuzz
namespace Seq

open BlockModes
open ByteCodec
open Engine
open SplitMix

/-! ## The libraries -/

/-- What a library answers to an encrypted message. -/
inductive Opening where
  | unavailable
  | rejected
  | plaintext (pt : Bytes)
  deriving DecidableEq, Repr

def Opening.delivered : Opening → Option Bytes
  | .unavailable => none
  | .rejected => none
  | .plaintext pt => some pt

/-- AES-256-GCM: a keystream for each key and nonce, and a tag.  `sealed` is
the status of the encryption of a message. -/
structure Gcm where
  keystream : Bytes → Bytes → ℕ → UInt8
  tag : Bytes → Bytes → Bytes → Bytes
  sealed : Bytes → Bytes → Bytes → Bool
  opened : Bytes → Bytes → Bytes → Bytes → Opening

def Gcm.encrypt (gcm : Gcm) (k n m : Bytes) : Bytes := xorStream (gcm.keystream k n) m

def nonceUniqueness : String := "O6-nonce-uniqueness"
def ivUnpredictability : String := "O6-iv-unpredictability"
def releaseBeforeVerify : String := "O6-release-before-verify"

/-- `ct1 ^ ct2 == m1 ^ m2` on the first `n` bytes. -/
def leaks (c1 c2 m1 m2 : Bytes) (n : ℕ) : Bool :=
  (List.range n).all fun i =>
    c1.getD i 0 ^^^ c2.getD i 0 = m1.getD i 0 ^^^ m2.getD i 0

/-- The first byte of the input selects the test, unless a fault build always
runs the one it is about. -/
def selectTest (fault : Bool) (test other : Reader → Draw (List Check)) (data : Bytes) :
    List Check :=
  if data.length < 2 then []
  else
    let (mode, r) := cmfU8 (cmfReaderInit data)
    let selected := if fault then test r else if mode &&& 1 ≠ 0 then other r else test r
    (selected (cmfPrngSeed data)).1

/-! ## BoringSSL, aws-lc, wolfCrypt and Botan -/

namespace OneShot

abbrev nonceLen : ℕ := 12

def nonceSource (fault : Bool) : Draw Bytes :=
  if fault then pure (List.replicate nonceLen 0) else cmfRandombytes nonceLen

/-- The oracle of `test_nonce`, once both messages are encrypted. -/
def nonceChecks (alg : String) (gcm : Gcm) (k n1 n2 m1 m2 : Bytes) : List Check :=
  if n1 = n2 then
    [⟨alg, nonceUniqueness, "identical nonce reused: ct1^ct2 == m1^m2 (GCM keystream reuse)",
      !leaks (gcm.encrypt k n1 m1) (gcm.encrypt k n2 m2) m1 m2 m1.length⟩]
  else []

def testNonce (alg : String) (gcm : Gcm) (fault : Bool) (r : Reader) :
    Draw (List Check) := do
  let k ← cmfRandombytes 32
  let m := (cmfRest r).1
  if m.length < 2 then pure []
  else do
    let m1 := m.take 256
    let m2 := m1.modify 0 (· ^^^ 0xFF)
    let n1 ← nonceSource fault
    let n2 ← nonceSource fault
    if gcm.sealed k n1 m1 ∧ gcm.sealed k n2 m2 then
      pure (nonceChecks alg gcm k n1 n2 m1 m2)
    else pure []

/-- The oracle of `test_open`; `same` compares the plaintext to the message. -/
def openChecks (alg misuse : String) (same : Bytes → Bytes → Bool) (tamper : Bool)
    (m : Bytes) (opening : Opening) : List Check :=
  ⟨alg, releaseBeforeVerify, misuse, !(opening.delivered.isSome && tamper)⟩ ::
    match opening.delivered with
    | none => []
    | some pt =>
        if tamper then []
        else [⟨alg, releaseBeforeVerify, "verified plaintext != message", same pt m⟩]

def testOpen (gcm : Gcm) (checks : Bool → Bytes → Opening → List Check) (r : Reader) :
    Draw (List Check) := do
  let k ← cmfRandombytes 32
  let n ← cmfRandombytes nonceLen
  let (b, r) := cmfU8 r
  let tamper := decide (b &&& 1 ≠ 0)
  let m := (cmfRest r).1.take 256
  if m = [] then pure []
  else if gcm.sealed k n m then
    let ct := gcm.encrypt k n m
    let ct := if tamper then ct.modify 0 (· ^^^ 0x01) else ct
    pure (checks tamper m (gcm.opened k n ct (gcm.tag k n m)))
  else pure []

end OneShot

namespace SeqBoringSSL

def alg : String := "AES-256-GCM/boringssl-seq"

def testNonce := OneShot.testNonce alg

def testOpen (gcm : Gcm) :=
  OneShot.testOpen gcm (OneShot.openChecks alg
    "EVP_AEAD plaintext used without a successful open() (forgery accepted)"
    fun pt m => pt = m)

def llvmFuzzerTestOneInput (gcm : Gcm) (fault : Bool) : Bytes → List Check :=
  selectTest fault (testNonce gcm fault) (testOpen gcm)

end SeqBoringSSL

namespace SeqAwsLc

def alg : String := "AES-256-GCM/aws-lc-seq"

def testNonce := OneShot.testNonce alg

def testOpen (gcm : Gcm) :=
  OneShot.testOpen gcm (OneShot.openChecks alg
    "EVP_AEAD plaintext used without a successful open() (forgery accepted)"
    fun pt m => pt = m)

def llvmFuzzerTestOneInput (gcm : Gcm) (fault : Bool) : Bytes → List Check :=
  selectTest fault (testNonce gcm fault) (testOpen gcm)

end SeqAwsLc

namespace SeqWolfSSL

def alg : String := "AES-256-GCM/wolfcrypt-seq"

def testNonce := OneShot.testNonce alg

/-- A context that cannot be made ends the test; otherwise `mn` bytes are
compared. -/
def testOpen (gcm : Gcm) :=
  OneShot.testOpen gcm fun tamper m opening =>
    if opening = .unavailable then []
    else OneShot.openChecks alg
      "AES-GCM plaintext used without a successful decrypt (forgery accepted)"
      (fun pt m => pt.take m.length = m) tamper m opening

def llvmFuzzerTestOneInput (gcm : Gcm) (fault : Bool) : Bytes → List Check :=
  selectTest fault (testNonce gcm fault) (testOpen gcm)

end SeqWolfSSL

namespace SeqBotan

def alg : String := "AES-256-GCM/botan-seq"

/-- The second nonce is drawn only if the first message was encrypted. -/
def testNonce (gcm : Gcm) (fault : Bool) (r : Reader) : Draw (List Check) := do
  let k ← cmfRandombytes 32
  let m := (cmfRest r).1
  if m.length < 2 then pure []
  else do
    let m1 := m.take 256
    let m2 := m1.modify 0 (· ^^^ 0xFF)
    let n1 ← OneShot.nonceSource fault
    if gcm.sealed k n1 m1 then do
      let n2 ← OneShot.nonceSource fault
      if gcm.sealed k n2 m2 then pure (OneShot.nonceChecks alg gcm k n1 n2 m1 m2)
      else pure []
    else pure []

def testOpen (gcm : Gcm) :=
  OneShot.testOpen gcm (OneShot.openChecks alg
    "AEAD plaintext used without a successful finish() (forgery accepted)"
    fun pt m => pt = m)

def llvmFuzzerTestOneInput (gcm : Gcm) (fault : Bool) : Bytes → List Check :=
  selectTest fault (testNonce gcm fault) (testOpen gcm)

end SeqBotan

/-! ## The counter of `seq_aead` -/

namespace SeqAead

def alg : String := "AES-256-GCM/seq"

/-- A big-endian counter in the last eight bytes. -/
def nonceSource (fault : Bool) (ctr : UInt64) : Bytes × UInt64 :=
  if fault then (List.replicate 12 0, ctr)
  else (List.replicate 4 0 ++ (wordBytes ctr).reverse, ctr + 1)

def nonceChecks (gcm : Gcm) (k n1 n2 m1 m2 : Bytes) : List Check :=
  let reused := decide (n1 = n2)
  ⟨alg, nonceUniqueness, "nonce source repeated a (key,nonce) pair", !reused⟩ ::
    if reused then
      [⟨alg, nonceUniqueness, "nonce reuse leaked plaintext XOR (two-time pad)",
        !leaks (gcm.encrypt k n1 m1) (gcm.encrypt k n2 m2) m1 m2 64⟩]
    else []

def testNonce (gcm : Gcm) (fault : Bool) : Draw (List Check) := do
  let k ← cmfRandombytes 32
  let m1 ← cmfRandombytes 64
  let m2 ← cmfRandombytes 64
  let n1 := nonceSource fault 0
  let n2 := nonceSource fault n1.2
  pure (nonceChecks gcm k n1.1 n2.1 (m1.set 0 0x11) (m2.set 0 0x22))

def testRelease (gcm : Gcm) (r : Reader) : Draw (List Check) := do
  let k ← cmfRandombytes 32
  let n ← cmfRandombytes 12
  let (b, r) := cmfU8 r
  let tamper := decide (b &&& 1 ≠ 0)
  let m := (cmfRest r).1.take 512
  if m = [] then pure []
  else do
    let ct := gcm.encrypt k n m
    let ct ← if tamper then do
        let word ← next
        pure (ct.modify (word.toNat % ct.length) (· ^^^ 0x01))
      else pure ct
    pure (OneShot.openChecks alg
      "AEAD plaintext used before/without successful tag verification"
      (fun pt m => pt.take m.length = m) tamper m (gcm.opened k n ct (gcm.tag k n m)))

def llvmFuzzerTestOneInput (gcm : Gcm) (fault : Bool) : Bytes → List Check :=
  selectTest fault (fun _ => testNonce gcm fault) (testRelease gcm)

end SeqAead

/-! ## CBC -/

namespace SeqEvp

def alg : String := "AES-256-CBC/seq"

def ivSource (fault : Bool) : Draw Bytes :=
  if fault then pure (List.replicate 16 0) else cmfRandombytes 16

section

variable (aes : Bytes → Bytes → Bytes)

def cbcEnc (k iv m : Bytes) : Bytes := cbc 16 (aes k) iv m

def testIv (fault : Bool) (r : Reader) : Draw (List Check) := do
  let k ← cmfRandombytes 32
  let m := (cmfRest r).1.take 256
  if m = [] then pure []
  else do
    let iv1 ← ivSource fault
    let iv2 ← ivSource fault
    let c1 := cbcEnc aes k iv1 m
    let c2 := cbcEnc aes k iv2 m
    let same := decide (c1.length = c2.length ∧ c1 = c2)
    pure [⟨alg, ivUnpredictability,
      "identical ciphertext for identical plaintext (predictable/reused IV)", !same⟩]

/-- No assertion: the plain build stops at the end of the context. -/
def testCtxLifecycle (_ : Reader) : Draw (List Check) := do
  let _ ← cmfRandombytes 32
  let _ ← cmfRandombytes 16
  pure []

def llvmFuzzerTestOneInput (fault : Bool) : Bytes → List Check :=
  selectTest fault (testIv aes fault) testCtxLifecycle

end

end SeqEvp

/-! ## Plain builds -/

def AboutNonce (c : Check) : Prop :=
  c.oracle = nonceUniqueness ∨ c.oracle = ivUnpredictability

def Quiet (checks : List Check) : Prop := ∀ c ∈ checks, AboutNonce c → c.holds = true

theorem quiet_nil : Quiet [] := by
  intro c hc
  cases hc

theorem quiet_of_release {checks : List Check}
    (hchecks : ∀ c ∈ checks, c.oracle = releaseBeforeVerify) : Quiet checks := by
  intro c hc habout
  rw [AboutNonce, hchecks c hc] at habout
  rcases habout with h | h
  · exact absurd h (by decide)
  · exact absurd h (by decide)

theorem quiet_selectTest {fault : Bool} {test other : Reader → Draw (List Check)}
    (htest : ∀ r, Always Quiet (test r)) (hother : ∀ r, Always Quiet (other r))
    (data : Bytes) : Quiet (selectTest fault test other data) := by
  unfold selectTest
  split
  · exact quiet_nil
  · dsimp only
    split
    · exact htest _ _
    · split
      · exact hother _ _
      · exact htest _ _

theorem OneShot.quiet_openChecks (alg misuse : String) (same : Bytes → Bytes → Bool)
    (tamper : Bool) (m : Bytes) (opening : Opening) :
    Quiet (OneShot.openChecks alg misuse same tamper m opening) := by
  apply quiet_of_release
  intro c hc
  rcases List.mem_cons.mp hc with rfl | hrest
  · rfl
  · split at hrest
    · cases hrest
    · split at hrest
      · cases hrest
      · rw [List.mem_singleton.mp hrest]

theorem OneShot.quiet_testOpen {gcm : Gcm} {checks : Bool → Bytes → Opening → List Check}
    (hchecks : ∀ tamper m opening, Quiet (checks tamper m opening)) (r : Reader) :
    Always Quiet (OneShot.testOpen gcm checks r) := by
  refine Always.bind (always_true _) fun k _ => ?_
  refine Always.bind (always_true _) fun n _ => ?_
  dsimp only
  split
  · exact Always.pure quiet_nil
  · split
    · exact Always.pure (hchecks _ _ _)
    · exact Always.pure quiet_nil

theorem OneShot.nonceSource_plain :
    OneShot.nonceSource false = cmfRandombytes OneShot.nonceLen := if_neg Bool.false_ne_true

theorem OneShot.nonceSource_fresh (s : UInt64) :
    (OneShot.nonceSource false s).1 ≠
      (OneShot.nonceSource false (OneShot.nonceSource false s).2).1 := by
  have hlen : 8 ≤ OneShot.nonceLen ∧ OneShot.nonceLen < 2 ^ 64 := by decide
  rw [OneShot.nonceSource_plain]
  exact cmfRandombytes_fresh hlen.1 hlen.2 s

theorem OneShot.quiet_nonceChecks (alg : String) (gcm : Gcm) (k m1 m2 : Bytes)
    {n1 n2 : Bytes} (hn : n1 ≠ n2) : Quiet (OneShot.nonceChecks alg gcm k n1 n2 m1 m2) := by
  rw [OneShot.nonceChecks, if_neg hn]
  exact quiet_nil

theorem OneShot.quiet_testNonce (alg : String) (gcm : Gcm) (r : Reader) :
    Always Quiet (OneShot.testNonce alg gcm false r) := by
  refine Always.bind (always_true _) fun k _ => ?_
  dsimp only
  split
  · exact Always.pure quiet_nil
  · refine Always.bind_bind OneShot.nonceSource_fresh fun n1 n2 hn => ?_
    split
    · exact Always.pure (OneShot.quiet_nonceChecks alg gcm k _ _ hn)
    · exact Always.pure quiet_nil

theorem SeqBotan.quiet_testNonce (gcm : Gcm) (r : Reader) :
    Always Quiet (SeqBotan.testNonce gcm false r) := by
  refine Always.bind (always_true _) fun k _ => ?_
  dsimp only
  split
  · exact Always.pure quiet_nil
  · intro s
    have hfresh := OneShot.nonceSource_fresh s
    rw [bind_run]
    split
    · rw [bind_run]
      split
      · exact OneShot.quiet_nonceChecks SeqBotan.alg gcm k _ _ hfresh
      · exact quiet_nil
    · exact quiet_nil

theorem SeqAead.nonceSource_plain (ctr : UInt64) :
    SeqAead.nonceSource false ctr =
      (List.replicate 4 0 ++ (wordBytes ctr).reverse, ctr + 1) := if_neg Bool.false_ne_true

theorem SeqAead.nonceSource_fresh (ctr : UInt64) :
    (SeqAead.nonceSource false ctr).1 ≠
      (SeqAead.nonceSource false (SeqAead.nonceSource false ctr).2).1 := by
  rw [SeqAead.nonceSource_plain, SeqAead.nonceSource_plain]
  dsimp only
  intro heq
  have hbytes := List.reverse_injective (List.append_cancel_left heq)
  have hctr := wordBytes_injective hbytes
  exact absurd (UInt64.left_eq_add.mp hctr) (by decide)

theorem SeqAead.nonceChecks_fresh (gcm : Gcm) (k m1 m2 : Bytes) {n1 n2 : Bytes}
    (hn : n1 ≠ n2) : SeqAead.nonceChecks gcm k n1 n2 m1 m2 =
      [⟨SeqAead.alg, nonceUniqueness, "nonce source repeated a (key,nonce) pair", true⟩] := by
  unfold SeqAead.nonceChecks
  simp only [decide_eq_false hn, Bool.not_false, Bool.false_eq_true, if_false]

theorem SeqAead.quiet_nonceChecks (gcm : Gcm) (k m1 m2 : Bytes) {n1 n2 : Bytes}
    (hn : n1 ≠ n2) : Quiet (SeqAead.nonceChecks gcm k n1 n2 m1 m2) := by
  rw [SeqAead.nonceChecks_fresh gcm k m1 m2 hn]
  intro c hc _
  rw [List.mem_singleton.mp hc]

theorem SeqAead.quiet_testNonce (gcm : Gcm) :
    Always Quiet (SeqAead.testNonce gcm false) := by
  refine Always.bind (always_true _) fun k _ => ?_
  refine Always.bind (always_true _) fun m1 _ => ?_
  refine Always.bind (always_true _) fun m2 _ => Always.pure ?_
  exact SeqAead.quiet_nonceChecks gcm k _ _ (SeqAead.nonceSource_fresh 0)

theorem SeqAead.quiet_testRelease (gcm : Gcm) (r : Reader) :
    Always Quiet (SeqAead.testRelease gcm r) := by
  refine Always.bind (always_true _) fun k _ => ?_
  refine Always.bind (always_true _) fun n _ => ?_
  dsimp only
  have hchecks : ∀ ct : Bytes, Always Quiet (Pure.pure (OneShot.openChecks SeqAead.alg
      "AEAD plaintext used before/without successful tag verification"
      (fun pt m => pt.take m.length = m) (decide ((cmfU8 r).1 &&& 1 ≠ 0))
      ((cmfRest (cmfU8 r).2).1.take 512) (gcm.opened k n ct
        (gcm.tag k n ((cmfRest (cmfU8 r).2).1.take 512))))) := fun ct =>
    Always.pure (OneShot.quiet_openChecks _ _ _ _ _ _)
  split
  · exact Always.pure quiet_nil
  · split
    · exact Always.bind (always_true _) fun word _ => hchecks _
    · exact hchecks _

theorem SeqEvp.ivSource_plain : SeqEvp.ivSource false = cmfRandombytes 16 :=
  if_neg Bool.false_ne_true

theorem SeqEvp.ivSource_length (fault : Bool) :
    Always (fun iv => iv.length = 16) (SeqEvp.ivSource fault) := by
  cases fault with
  | false =>
      rw [SeqEvp.ivSource_plain]
      exact cmfRandombytes_length 16
  | true => exact Always.pure List.length_replicate

theorem SeqEvp.ivSource_fresh (s : UInt64) :
    (SeqEvp.ivSource false s).1 ≠
      (SeqEvp.ivSource false (SeqEvp.ivSource false s).2).1 := by
  rw [SeqEvp.ivSource_plain]
  exact cmfRandombytes_fresh (by decide) (by decide) s

theorem SeqEvp.quiet_testIv {aes : Bytes → Bytes → Bytes}
    (haes : ∀ k, k.length = 32 → BlockCipher 16 (aes k)) (r : Reader) :
    Always Quiet (SeqEvp.testIv aes false r) := by
  refine Always.bind (cmfRandombytes_length 32) fun k hk => ?_
  dsimp only
  split
  · exact Always.pure quiet_nil
  · have hpair : ∀ s, (SeqEvp.ivSource false s).1.length = 16 ∧
        (SeqEvp.ivSource false (SeqEvp.ivSource false s).2).1.length = 16 ∧
        (SeqEvp.ivSource false s).1 ≠ (SeqEvp.ivSource false (SeqEvp.ivSource false s).2).1 :=
      fun s => ⟨SeqEvp.ivSource_length false s, SeqEvp.ivSource_length false _,
        SeqEvp.ivSource_fresh s⟩
    refine Always.bind_bind (R := fun iv1 iv2 : Bytes => iv1.length = 16 ∧ iv2.length = 16 ∧
      iv1 ≠ iv2) hpair fun iv1 iv2 hiv => Always.pure ?_
    rcases hiv with ⟨h1, h2, hne⟩
    have hdiffer : SeqEvp.cbcEnc aes k iv1 ((cmfRest r).1.take 256) ≠
        SeqEvp.cbcEnc aes k iv2 ((cmfRest r).1.take 256) := fun heq =>
      hne (cbc_iv_injective (haes k hk) (by decide) h1 h2 heq)
    intro c hc _
    rw [List.mem_singleton.mp hc]
    simp only [hdiffer, and_false, decide_false, Bool.not_false]

theorem SeqEvp.quiet_testCtxLifecycle (r : Reader) :
    Always Quiet (SeqEvp.testCtxLifecycle r) := by
  refine Always.bind (always_true _) fun _ _ => ?_
  exact Always.bind (always_true _) fun _ _ => Always.pure quiet_nil

/-! ## Fault builds -/

def Caught (oracle : String) (checks : List Check) : Prop :=
  ∃ c, violation checks = some c ∧ c.oracle = oracle

theorem caught_cons {c : Check} {rest : List Check} (hc : c.holds = false) :
    Caught c.oracle (c :: rest) := by
  refine ⟨c, ?_, rfl⟩
  rw [violation, List.find?_cons_of_pos (by rw [hc]; rfl)]

theorem leaks_same_nonce (gcm : Gcm) (k n : Bytes) {m1 m2 : Bytes} {len : ℕ}
    (h1 : len ≤ m1.length) (h2 : len ≤ m2.length) :
    leaks (gcm.encrypt k n m1) (gcm.encrypt k n m2) m1 m2 len = true := by
  rw [leaks, List.all_eq_true]
  intro i hi
  have hlt := List.mem_range.mp hi
  exact decide_eq_true (xorStream_cancel (gcm.keystream k n) (by omega) (by omega))

theorem caught_selectTest {oracle : String} {test other : Reader → Draw (List Check)}
    {data : Bytes} (hdata : 2 ≤ data.length) (htest : Always (Caught oracle) (test ⟨data, 1⟩)) :
    Caught oracle (selectTest true test other data) := by
  have hfirst : 0 < data.length := by omega
  have hreader : (cmfU8 (cmfReaderInit data)).2 = ⟨data, 1⟩ := by
    rw [cmfU8, cmfReaderInit, if_pos hfirst]
  rw [selectTest, if_neg (by omega)]
  dsimp only
  rw [if_pos rfl, hreader]
  exact htest (cmfPrngSeed data)

theorem OneShot.nonceSource_fault :
    Always (fun n => n = List.replicate OneShot.nonceLen 0) (OneShot.nonceSource true) :=
  Always.pure rfl

theorem OneShot.caught_nonceChecks (alg : String) (gcm : Gcm) (k n : Bytes) {m1 m2 : Bytes}
    (hlen : m1.length = m2.length) :
    Caught nonceUniqueness (OneShot.nonceChecks alg gcm k n n m1 m2) := by
  rw [OneShot.nonceChecks, if_pos rfl,
    leaks_same_nonce gcm k n le_rfl hlen.le]
  exact caught_cons rfl

section

variable {gcm : Gcm} (hsealed : ∀ k n m, gcm.sealed k n m = true)

include hsealed

theorem OneShot.caught_testNonce (alg : String) {r : Reader} (hr : 2 ≤ (cmfRest r).1.length) :
    Always (Caught nonceUniqueness) (OneShot.testNonce alg gcm true r) := by
  refine Always.bind (always_true _) fun k _ => ?_
  dsimp only
  rw [if_neg (by omega)]
  refine Always.bind OneShot.nonceSource_fault fun n1 h1 => ?_
  refine Always.bind OneShot.nonceSource_fault fun n2 h2 => ?_
  rw [if_pos ⟨hsealed _ _ _, hsealed _ _ _⟩, h1, h2]
  exact Always.pure (OneShot.caught_nonceChecks alg gcm k _ (List.length_modify _ _ _).symm)

theorem SeqBotan.caught_testNonce {r : Reader} (hr : 2 ≤ (cmfRest r).1.length) :
    Always (Caught nonceUniqueness) (SeqBotan.testNonce gcm true r) := by
  refine Always.bind (always_true _) fun k _ => ?_
  dsimp only
  rw [if_neg (by omega)]
  refine Always.bind OneShot.nonceSource_fault fun n1 h1 => ?_
  rw [if_pos (hsealed _ _ _)]
  refine Always.bind OneShot.nonceSource_fault fun n2 h2 => ?_
  rw [if_pos (hsealed _ _ _), h1, h2]
  exact Always.pure
    (OneShot.caught_nonceChecks SeqBotan.alg gcm k _ (List.length_modify _ _ _).symm)

end

theorem SeqAead.caught_testNonce (gcm : Gcm) :
    Always (Caught nonceUniqueness) (SeqAead.testNonce gcm true) := by
  refine Always.bind (always_true _) fun k _ => ?_
  refine Always.bind (always_true _) fun m1 _ => ?_
  refine Always.bind (always_true _) fun m2 _ => Always.pure ?_
  exact caught_cons rfl

theorem SeqEvp.ivSource_fault :
    Always (fun iv => iv = List.replicate 16 0) (SeqEvp.ivSource true) := Always.pure rfl

theorem SeqEvp.caught_testIv (aes : Bytes → Bytes → Bytes) {r : Reader}
    (hr : 1 ≤ (cmfRest r).1.length) :
    Always (Caught ivUnpredictability) (SeqEvp.testIv aes true r) := by
  refine Always.bind (always_true _) fun k _ => ?_
  dsimp only
  have hm : (cmfRest r).1.take 256 ≠ [] := by
    intro hnil
    have hlen := congrArg List.length hnil
    rw [List.length_take, List.length_nil] at hlen
    omega
  rw [if_neg hm]
  refine Always.bind SeqEvp.ivSource_fault fun iv1 h1 => ?_
  refine Always.bind SeqEvp.ivSource_fault fun iv2 h2 => Always.pure ?_
  rw [h1, h2]
  apply caught_cons
  rw [decide_eq_true ⟨rfl, rfl⟩, Bool.not_true]

/-! ## Exactness -/

inductive Harness where
  | seqAead
  | seqBoringSSL
  | seqAwsLc
  | seqWolfSSL
  | seqBotan
  | seqEvp
  deriving DecidableEq, Repr

def Harness.run (gcm : Gcm) (aes : Bytes → Bytes → Bytes) : Harness → Bool → Bytes → List Check
  | .seqAead => SeqAead.llvmFuzzerTestOneInput gcm
  | .seqBoringSSL => SeqBoringSSL.llvmFuzzerTestOneInput gcm
  | .seqAwsLc => SeqAwsLc.llvmFuzzerTestOneInput gcm
  | .seqWolfSSL => SeqWolfSSL.llvmFuzzerTestOneInput gcm
  | .seqBotan => SeqBotan.llvmFuzzerTestOneInput gcm
  | .seqEvp => SeqEvp.llvmFuzzerTestOneInput aes

def Harness.oracle : Harness → String
  | .seqEvp => ivUnpredictability
  | _ => nonceUniqueness

/-- The bytes a message needs for the check: `seq_aead` draws its own. -/
def Harness.minMessage : Harness → ℕ
  | .seqAead => 0
  | .seqEvp => 1
  | _ => 2

/-- The inputs that reach the check of a fault build. -/
def Harness.Reaches (h : Harness) (data : Bytes) : Prop :=
  2 ≤ data.length ∧ h.minMessage ≤ (data.drop 1).length

theorem quiet_run {gcm : Gcm} {aes : Bytes → Bytes → Bytes}
    (haes : ∀ k, k.length = 32 → BlockCipher 16 (aes k)) (h : Harness) (data : Bytes) :
    Quiet (h.run gcm aes false data) := by
  cases h with
  | seqAead =>
      exact quiet_selectTest (fun _ => SeqAead.quiet_testNonce gcm)
        (SeqAead.quiet_testRelease gcm) data
  | seqBoringSSL =>
      exact quiet_selectTest (OneShot.quiet_testNonce _ gcm)
        (OneShot.quiet_testOpen (OneShot.quiet_openChecks _ _ _)) data
  | seqAwsLc =>
      exact quiet_selectTest (OneShot.quiet_testNonce _ gcm)
        (OneShot.quiet_testOpen (OneShot.quiet_openChecks _ _ _)) data
  | seqWolfSSL =>
      refine quiet_selectTest (OneShot.quiet_testNonce _ gcm)
        (OneShot.quiet_testOpen fun tamper m opening => ?_) data
      split
      · exact quiet_nil
      · exact OneShot.quiet_openChecks _ _ _ tamper m opening
  | seqBotan =>
      exact quiet_selectTest (SeqBotan.quiet_testNonce gcm)
        (OneShot.quiet_testOpen (OneShot.quiet_openChecks _ _ _)) data
  | seqEvp => exact quiet_selectTest (SeqEvp.quiet_testIv haes) SeqEvp.quiet_testCtxLifecycle data

theorem caught_run {gcm : Gcm} (hsealed : ∀ k n m, gcm.sealed k n m = true)
    (aes : Bytes → Bytes → Bytes) (h : Harness) {data : Bytes} (hdata : h.Reaches data) :
    Caught h.oracle (h.run gcm aes true data) := by
  rcases hdata with ⟨hsize, hmin⟩
  cases h with
  | seqAead =>
      rw [Harness.run, SeqAead.llvmFuzzerTestOneInput]
      exact caught_selectTest hsize (SeqAead.caught_testNonce gcm)
  | seqBoringSSL =>
      exact caught_selectTest hsize (OneShot.caught_testNonce hsealed _ hmin)
  | seqAwsLc =>
      exact caught_selectTest hsize (OneShot.caught_testNonce hsealed _ hmin)
  | seqWolfSSL =>
      exact caught_selectTest hsize (OneShot.caught_testNonce hsealed _ hmin)
  | seqBotan =>
      exact caught_selectTest hsize (SeqBotan.caught_testNonce hsealed hmin)
  | seqEvp =>
      exact caught_selectTest hsize (SeqEvp.caught_testIv aes hmin)

theorem nonceOracles_exact (gcm : Gcm) (aes : Bytes → Bytes → Bytes)
    (haes : ∀ k, k.length = 32 → BlockCipher 16 (aes k))
    (hsealed : ∀ k n m, gcm.sealed k n m = true) (h : Harness) (data : Bytes) :
    (∀ c, violation (h.run gcm aes false data) = some c → ¬ AboutNonce c) ∧
      (h.Reaches data → ∃ c, violation (h.run gcm aes true data) = some c ∧
        c.oracle = h.oracle) := by
  constructor
  · intro c hc habout
    have hholds := quiet_run haes h data c (List.mem_of_find?_eq_some hc) habout
    have hfails := List.find?_some hc
    rw [hholds] at hfails
    exact absurd hfails (by decide)
  · intro hdata
    exact caught_run hsealed aes h hdata

/-- Key and nonce as the keystream, the message as its tag. -/
def xorGcm : Gcm where
  keystream := fun k n i => k.getD i 0 ^^^ n.getD i 0
  tag := fun _ _ m => m
  sealed := fun _ _ _ => true
  opened := fun k n ct tag =>
    let pt := xorStream (fun i => k.getD i 0 ^^^ n.getD i 0) ct
    if pt = tag then .plaintext pt else .rejected

def xorBlock (k b : Bytes) : Bytes := xorBytes b (k.take 16)

theorem xorBlock_blockCipher (k : Bytes) (hk : k.length = 32) : BlockCipher 16 (xorBlock k) := by
  have hkey : (k.take 16).length = 16 := by
    rw [List.length_take, hk]
    rfl
  constructor
  · intro b hb
    rw [xorBlock, xorBytes_length, hb, hkey, Nat.min_self]
  · intro b b' hb hb' heq
    exact xorBytes_cancel (hb.trans hkey.symm) (hb'.trans hkey.symm) heq

theorem nonceOracles_exact_xorBlock :
    (∀ c, violation (Harness.seqEvp.run xorGcm xorBlock false [0, 1, 2]) = some c →
        ¬ AboutNonce c) ∧
      ∃ c, violation (Harness.seqEvp.run xorGcm xorBlock true [0, 1, 2]) = some c ∧
        c.oracle = ivUnpredictability :=
  have hexact := nonceOracles_exact xorGcm xorBlock xorBlock_blockCipher
    (fun _ _ _ => rfl) Harness.seqEvp [0, 1, 2]
  ⟨hexact.1, hexact.2 ⟨by decide, by decide⟩⟩

end Seq
end CMFuzz
