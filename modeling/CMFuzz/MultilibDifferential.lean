import CMFuzz.BlockModes
import CMFuzz.ReaderRuns
import CMFuzz.VoteRuling

/-!
# The in-process differential harness

`diff_multilib_harness` computes one primitive with OpenSSL, libsodium,
Mbed-TLS and Crypto++ and compares every result with the first.  The last
sections set this oracle against the rulings of the subprocess runner on the
same answers.  The libraries are functions that the harness calls.
-/

namespace CMFuzz
namespace Multilib

open BlockModes
open ByteCodec
open Engine
open Runner (Agree Ruling ruling)
open Wire (CString)

/-! ## Primitives and libraries -/

inductive Lib where
  | openssl
  | libsodium
  | mbedtls
  | cryptopp
  deriving DecidableEq, Repr

instance : Fintype Lib where
  elems := {.openssl, .libsodium, .mbedtls, .cryptopp}
  complete l := by cases l <;> decide

def Lib.name : Lib → String
  | .openssl => "openssl"
  | .libsodium => "libsodium"
  | .mbedtls => "mbedtls"
  | .cryptopp => "cryptopp"

inductive Primitive where
  | sha256
  | sha512
  | hmac256
  | chachapoly
  | aesgcm
  | sha1
  | sha3_256
  | sha3_512
  | hmac512
  | hkdf256
  deriving DecidableEq, Repr

/-- `switch (op)`, where `op` is below 10. -/
def Primitive.ofOp : ℕ → Primitive
  | 0 => .sha256
  | 1 => .sha512
  | 2 => .hmac256
  | 3 => .chachapoly
  | 4 => .aesgcm
  | 5 => .sha1
  | 6 => .sha3_256
  | 7 => .sha3_512
  | 8 => .hmac512
  | _ => .hkdf256

def Primitive.title : Primitive → String
  | .sha256 => "SHA-256"
  | .sha512 => "SHA-512"
  | .hmac256 => "HMAC-SHA256"
  | .chachapoly => "ChaCha20-Poly1305"
  | .aesgcm => "AES-256-GCM"
  | .sha1 => "SHA-1"
  | .sha3_256 => "SHA3-256"
  | .sha3_512 => "SHA3-512"
  | .hmac512 => "HMAC-SHA512"
  | .hkdf256 => "HKDF-SHA256"

inductive Call where
  | digest (m : Bytes)
  | mac (key m : Bytes)
  | kdf (salt ikm info : Bytes) (len : ℕ)
  | aead (key nonce m aad : Bytes)
  deriving DecidableEq, Repr

structure Libraries where
  compute : Lib → Primitive → Call → Bytes
  /-- `crypto_aead_aes256gcm_is_available`. -/
  aesAvailable : Bool

/-- What `rs` lists after OpenSSL. -/
def others (aesAvailable : Bool) : Primitive → List Lib
  | .sha256 => [.libsodium, .mbedtls, .cryptopp]
  | .sha512 => [.libsodium, .mbedtls, .cryptopp]
  | .hmac256 => [.libsodium, .mbedtls, .cryptopp]
  | .chachapoly => [.libsodium, .mbedtls, .cryptopp]
  | .aesgcm => [.mbedtls, .cryptopp] ++ if aesAvailable then [.libsodium] else []
  | .sha1 => [.mbedtls, .cryptopp]
  | .sha3_256 => [.cryptopp]
  | .sha3_512 => [.cryptopp]
  | .hmac512 => [.libsodium, .mbedtls, .cryptopp]
  | .hkdf256 => [.mbedtls, .cryptopp]

/-- `CMF_DIFF_FAULT` corrupts the SHA-256 of Crypto++. -/
def Libraries.result (libs : Libraries) (fault : Bool) (prim : Primitive) (call : Call)
    (l : Lib) : Bytes :=
  if fault = true ∧ prim = .sha256 ∧ l = .cryptopp then
    (libs.compute l prim call).modify 0 (· ^^^ 0xff)
  else libs.compute l prim call

/-! ## The harness -/

/-- `agree` and `hexcmp_fail`. -/
def agree (prim : String) : List (Lib × Bytes) → List Check
  | [] => []
  | first :: rest => rest.map fun r =>
      ⟨prim, "DIFF_mismatch", first.1.name ++ " vs " ++ r.1.name ++ " disagree", r.2 = first.2⟩

def hkdfInfo : Bytes := [0x63, 0x6d, 0x66, 0x75, 0x7a, 0x7a]

/-- The arguments that the test of a primitive passes to each library. -/
def Primitive.call (key nonce p aad msg : Bytes) : Primitive → Call
  | .sha256 => .digest p
  | .sha512 => .digest p
  | .hmac256 => .mac key p
  | .chachapoly => .aead key nonce msg aad
  | .aesgcm => .aead key nonce msg aad
  | .sha1 => .digest p
  | .sha3_256 => .digest p
  | .sha3_512 => .digest p
  | .hmac512 => .mac key p
  | .hkdf256 => .kdf (key.take 16) p hkdfInfo 42

def keyMaterial : SplitMix.Draw (Bytes × Bytes) := do
  let key ← cmfRandombytes 32
  let nonce ← cmfRandombytes 12
  pure (key, nonce)

/-- `LLVMFuzzerTestOneInput` up to the test. -/
def chosen (data : Bytes) : Option (Primitive × Call) :=
  if data.length < 8 then none
  else
    let (op, r) := cmfU8 (cmfReaderInit data)
    let (split, r) := cmfU8 r
    let (key, nonce) := (keyMaterial (cmfPrngSeed data)).1
    let p := (cmfRest r).1
    let adn := if p.length ≠ 0 then split.toNat % (p.length + 1) else 0
    let adn := if p.length < adn then p.length else adn
    let prim := Primitive.ofOp (op.toNat % 10)
    some (prim, prim.call key nonce p (p.take adn) (p.drop adn))

def Libraries.results (libs : Libraries) (fault : Bool) (prim : Primitive) (call : Call) :
    List (Lib × Bytes) :=
  (.openssl :: others libs.aesAvailable prim).map fun l => (l, libs.result fault prim call l)

def llvmFuzzerTestOneInput (libs : Libraries) (fault : Bool) (data : Bytes) : List Check :=
  match chosen data with
  | none => []
  | some (prim, call) => agree prim.title (libs.results fault prim call)

/-! ## Reports -/

def mismatch (prim : Primitive) (l : Lib) : Check :=
  ⟨prim.title, "DIFF_mismatch", "openssl" ++ " vs " ++ l.name ++ " disagree", false⟩

theorem others_ne_nil (aesAvailable : Bool) (prim : Primitive) :
    others aesAvailable prim ≠ [] := by
  cases prim <;> exact List.cons_ne_nil _ _

theorem others_nodup (aesAvailable : Bool) (prim : Primitive) :
    (others aesAvailable prim).Nodup := by
  cases aesAvailable <;> cases prim <;> decide

section

variable {libs : Libraries} {fault : Bool} {prim : Primitive} {call : Call}

/-- The first library that differs from OpenSSL is reported. -/
theorem violation_agree :
    violation (agree prim.title (libs.results fault prim call)) =
      ((others libs.aesAvailable prim).find? fun l =>
        libs.result fault prim call l ≠ libs.result fault prim call .openssl).map
          (mismatch prim) := by
  rw [violation, Libraries.results, List.map_cons, agree, List.map_map, List.find?_map]
  have hpred : (fun c : Check => !c.holds) ∘ ((fun r : Lib × Bytes =>
      (⟨prim.title, "DIFF_mismatch", Lib.openssl.name ++ " vs " ++ r.1.name ++ " disagree",
        r.2 = libs.result fault prim call .openssl⟩ : Check)) ∘
      fun l => (l, libs.result fault prim call l)) = fun l =>
        decide (libs.result fault prim call l ≠ libs.result fault prim call .openssl) := by
    funext l
    exact (decide_not).symm
  rw [hpred]
  cases hfind : (others libs.aesAvailable prim).find? fun l =>
      decide (libs.result fault prim call l ≠ libs.result fault prim call .openssl) with
  | none => rfl
  | some l =>
      have hne := List.find?_some hfind
      have heq : decide (libs.result fault prim call l =
          libs.result fault prim call .openssl) = false :=
        decide_eq_false (of_decide_eq_true hne)
      rw [Option.map_some, Option.map_some, Function.comp_apply, mismatch, heq]
      rfl

theorem violation_agree_eq_none_iff :
    violation (agree prim.title (libs.results fault prim call)) = none ↔
      ∀ l ∈ others libs.aesAvailable prim,
        libs.result fault prim call l = libs.result fault prim call .openssl := by
  rw [violation_agree, Option.map_eq_none_iff, List.find?_eq_none]
  apply forall₂_congr
  intro l _
  rw [decide_eq_true_iff, not_not]

/-! ## Votes -/

/-- What the libraries would reply to the runner, whose reference is OpenSSL. -/
def Libraries.ballot (libs : Libraries) (fault : Bool) (prim : Primitive) (call : Call) (l : Lib) :
    Option CString :=
  if l ∈ others libs.aesAvailable prim then some (hexEncode (libs.result fault prim call l))
  else none

def Libraries.poll (libs : Libraries) (fault : Bool) (prim : Primitive) (call : Call) :
    Poll (Option Lib) CString :=
  .withReference (hexEncode (libs.result fault prim call .openssl)) (libs.ballot fault prim call)

theorem ballot_of_mem {l : Lib} (hl : l ∈ others libs.aesAvailable prim) :
    libs.ballot fault prim call l = some (hexEncode (libs.result fault prim call l)) := if_pos hl

theorem ballot_of_not_mem {l : Lib} (hl : l ∉ others libs.aesAvailable prim) :
    libs.ballot fault prim call l = none := if_neg hl

theorem none_mem_poll : none ∈ (libs.poll fault prim call).seats := by
  rw [Libraries.poll, Poll.withReference]
  exact Finset.none_mem_insertNone

theorem some_mem_poll {l : Lib} :
    some l ∈ (libs.poll fault prim call).seats ↔ l ∈ others libs.aesAvailable prim := by
  rw [Libraries.poll, Poll.some_mem_withReference]
  by_cases hl : l ∈ others libs.aesAvailable prim
  · rw [ballot_of_mem hl]
    exact iff_of_true rfl hl
  · rw [ballot_of_not_mem hl]
    exact iff_of_false Bool.false_ne_true hl

theorem poll_vote {l : Lib} (hl : l ∈ others libs.aesAvailable prim) :
    (libs.poll fault prim call).vote (some l) = hexEncode (libs.result fault prim call l) := by
  show (libs.ballot fault prim call l).getD _ = _
  rw [ballot_of_mem hl]
  rfl

theorem poll_card :
    (libs.poll fault prim call).seats.card = (others libs.aesAvailable prim).length + 1 := by
  have hseats : (libs.poll fault prim call).seats =
      Finset.insertNone (others libs.aesAvailable prim).toFinset := by
    ext seat
    cases seat with
    | none => exact iff_of_true none_mem_poll Finset.none_mem_insertNone
    | some l => rw [some_mem_poll, Finset.some_mem_insertNone, List.mem_toFinset]
  rw [hseats, Finset.card_insertNone, List.toFinset_card_of_nodup (others_nodup _ _)]

theorem agree_poll_iff {op : ℕ} (hop : ¬ (op = 13 ∨ op = 14)) :
    Agree op (libs.poll fault prim call) ↔ ∀ l ∈ others libs.aesAvailable prim,
      libs.result fault prim call l = libs.result fault prim call .openssl := by
  rw [Libraries.poll, Runner.agree_withReference_iff]
  simp only [if_neg hop]
  constructor
  · intro hall l hl
    exact hexEncode_injective (hall l _ (ballot_of_mem hl))
  · intro hall l reply hreply
    by_cases hl : l ∈ others libs.aesAvailable prim
    · rw [ballot_of_mem hl, Option.mem_def] at hreply
      rw [← Option.some.inj hreply, hall l hl]
    · rw [ballot_of_not_mem hl, Option.mem_def] at hreply
      exact nomatch hreply

/-- A ruling that trusts OpenSSL charges whoever differs from it. -/
theorem charged_of_differs {op : ℕ} (hop : ¬ (op = 13 ∨ op = 14)) {l : Lib}
    (hl : l ∈ others libs.aesAvailable prim)
    (hne : libs.result fault prim call l ≠ libs.result fault prim call .openssl)
    (htrusted : none ∉ (ruling op (libs.poll fault prim call)).charged)
    (hresolved : (ruling op (libs.poll fault prim call)).unresolved = false) :
    some l ∈ (ruling op (libs.poll fault prim call)).charged := by
  have hvote : (libs.poll fault prim call).vote (some l) ≠
      (libs.poll fault prim call).vote none := by
    rw [poll_vote hl]
    exact fun h => hne (hexEncode_injective h)
  by_cases htwo : (libs.poll fault prim call).seats.card = 2
  · rw [Runner.ruling_pair hop htwo]
    exact Poll.mem_opponents.mpr ⟨some_mem_poll.mpr hl, hvote⟩
  · by_cases hmaj : ∃ x, (libs.poll fault prim call).Majority x
    · rcases hmaj with ⟨x, hx⟩
      rw [Runner.ruling_majority hop htwo hx] at htrusted ⊢
      have hnone : (libs.poll fault prim call).vote none = x := by
        by_contra hother
        exact htrusted (Poll.mem_opponents.mpr ⟨none_mem_poll, hother⟩)
      exact Poll.mem_opponents.mpr ⟨some_mem_poll.mpr hl, hnone ▸ hvote⟩
    · rw [Runner.ruling_unresolved hop htwo hmaj] at hresolved
      exact absurd hresolved (Ne.symm Bool.false_ne_true)

end

/-- The harness is silent exactly when the runner would rule that all voters
agree.  What it reports is the first library that differs from OpenSSL, which
the ruling charges unless it charges OpenSSL or finds no majority. -/
theorem multilib_refines_ruling (libs : Libraries) (fault : Bool) (data : Bytes)
    {prim : Primitive} {call : Call} (hchosen : chosen data = some (prim, call)) {op : ℕ}
    (hop : ¬ (op = 13 ∨ op = 14)) :
    let r := ruling op (libs.poll fault prim call)
    (violation (llvmFuzzerTestOneInput libs fault data) = none ↔
      r.charged = ∅ ∧ r.unresolved = false) ∧
    ∀ c, violation (llvmFuzzerTestOneInput libs fault data) = some c →
      ∃ before l after, others libs.aesAvailable prim = before ++ l :: after ∧
        c = mismatch prim l ∧
        libs.result fault prim call l ≠ libs.result fault prim call .openssl ∧
        (∀ l' ∈ before, libs.result fault prim call l' = libs.result fault prim call .openssl) ∧
        (none ∉ r.charged → r.unresolved = false → some l ∈ r.charged) := by
  have hrun : llvmFuzzerTestOneInput libs fault data =
      agree prim.title (libs.results fault prim call) := by
    rw [llvmFuzzerTestOneInput, hchosen]
  rw [hrun]
  constructor
  · rw [violation_agree_eq_none_iff, ← agree_poll_iff hop]
    exact Runner.agree_iff_ruling none_mem_poll
  · intro c hc
    rw [violation_agree] at hc
    rcases Option.map_eq_some_iff.mp hc with ⟨l, hfind, rfl⟩
    rcases List.find?_eq_some_iff_append.mp hfind with ⟨hne, before, after, hsplit, hbefore⟩
    have hdiffers := of_decide_eq_true hne
    have hl : l ∈ others libs.aesAvailable prim := List.mem_of_find?_eq_some hfind
    refine ⟨before, l, after, hsplit, rfl, hdiffers, ?_, charged_of_differs hop hl hdiffers⟩
    intro l' hl'
    have hsame := hbefore l' hl'
    rw [Bool.not_eq_true', decide_eq_false_iff_not, not_not] at hsame
    exact hsame

/-- One library returns another byte than all the others. -/
def oneOdd (odd : Lib) : Libraries where
  compute := fun l _ _ => if l = odd then [1] else [0]
  aesAvailable := true

theorem multilib_refines_ruling_cryptopp :
    let r := ruling 15 ((oneOdd .cryptopp).poll false .sha1 (.digest [7, 7, 7, 7, 7, 7]))
    ¬ (r.charged = ∅ ∧ r.unresolved = false) :=
  fun h => absurd ((multilib_refines_ruling (oneOdd .cryptopp) false [5, 0, 7, 7, 7, 7, 7, 7]
    rfl (by decide)).1.mpr h) (by decide)

/-- Where OpenSSL alone is wrong, three or more libraries outvote it in the
ruling, while the harness names the library that comes right behind it. -/
theorem openssl_error_names_another (libs : Libraries) (fault : Bool) (data : Bytes)
    {prim : Primitive} {call : Call} (hchosen : chosen data = some (prim, call)) {op : ℕ}
    (hop : ¬ (op = 13 ∨ op = 14)) (hmany : 2 ≤ (others libs.aesAvailable prim).length) {v : Bytes}
    (hothers : ∀ l ∈ others libs.aesAvailable prim, libs.result fault prim call l = v)
    (hwrong : libs.result fault prim call .openssl ≠ v) :
    ruling op (libs.poll fault prim call) = ⟨{none}, false⟩ ∧
      violation (llvmFuzzerTestOneInput libs fault data) =
        (others libs.aesAvailable prim).head?.map (mismatch prim) := by
  constructor
  · have hseats : ∀ l, some l ∈ (libs.poll fault prim call).seats →
        (libs.poll fault prim call).vote (some l) = hexEncode v := by
      intro l hl
      rw [poll_vote (some_mem_poll.mp hl), hothers l (some_mem_poll.mp hl)]
    have hopponents : (libs.poll fault prim call).opponents (hexEncode v) = {none} := by
      ext seat
      rw [Poll.mem_opponents, Finset.mem_singleton]
      constructor
      · rintro ⟨hmem, hdiffers⟩
        cases seat with
        | none => rfl
        | some l => exact absurd (hseats l hmem) hdiffers
      · rintro rfl
        exact ⟨none_mem_poll, fun h => hwrong (hexEncode_injective h)⟩
    have hcount := (libs.poll fault prim call).card_supporters_add_card_opponents (hexEncode v)
    rw [hopponents, Finset.card_singleton, poll_card] at hcount
    have hmajority : (libs.poll fault prim call).Majority (hexEncode v) := by
      rw [Poll.Majority, poll_card]
      omega
    have htwo : (libs.poll fault prim call).seats.card ≠ 2 := by
      rw [poll_card]
      omega
    rw [Runner.ruling_majority hop htwo hmajority, hopponents]
  · rw [llvmFuzzerTestOneInput, hchosen]
    refine violation_agree.trans ?_
    congr 1
    cases hlist : others libs.aesAvailable prim with
    | nil => exact absurd hlist (others_ne_nil _ _)
    | cons l rest =>
        have hl := hothers l (hlist ▸ List.mem_cons_self)
        have hdiffers : libs.result fault prim call l ≠ libs.result fault prim call .openssl :=
          fun h => hwrong (h.symm.trans hl)
        exact List.find?_cons_of_pos (decide_eq_true hdiffers)

theorem openssl_error_names_another_sha1 :
    ruling 15 ((oneOdd .openssl).poll false .sha1 (.digest [7, 7, 7, 7, 7, 7])) =
        ⟨{none}, false⟩ ∧
      violation (llvmFuzzerTestOneInput (oneOdd .openssl) false [5, 0, 7, 7, 7, 7, 7, 7]) =
        some (mismatch .sha1 .mbedtls) :=
  openssl_error_names_another (oneOdd .openssl) false [5, 0, 7, 7, 7, 7, 7, 7] (v := [0])
    rfl (by decide) (by decide) (by decide) (by decide)

/-! ## The self-test -/

theorem ofOp_eq_sha256_iff (n : ℕ) : Primitive.ofOp n = .sha256 ↔ n = 0 := by
  rw [Primitive.ofOp.eq_def]
  split <;> simp_all

theorem result_plain (libs : Libraries) (prim : Primitive) (call : Call) (l : Lib) :
    libs.result false prim call l = libs.compute l prim call :=
  if_neg fun h => Bool.false_ne_true h.1

theorem chosen_primitive (data : Bytes) :
    (chosen data).map Prod.fst = if data.length < 8 then none
      else some (Primitive.ofOp ((data.getD 0 0).toNat % 10)) := by
  rw [chosen]
  split
  · rfl
  · rcases two_reads (show 2 ≤ data.length by omega) with ⟨hfirst, hsecond⟩
    simp only [hfirst, hsecond, Option.map_some]

/-- Libraries that compute the same functions are never reported, and the build
that corrupts one of them is reported on the inputs that choose SHA-256. -/
theorem multilib_self_test (libs : Libraries)
    (hsame : ∀ l prim call, libs.compute l prim call = libs.compute .openssl prim call)
    (hdigest : ∀ call, libs.compute .openssl .sha256 call ≠ []) (data : Bytes) :
    violation (llvmFuzzerTestOneInput libs false data) = none ∧
      violation (llvmFuzzerTestOneInput libs true data) =
        if 8 ≤ data.length ∧ (data.getD 0 0).toNat % 10 = 0 then some (mismatch .sha256 .cryptopp)
        else none := by
  have hprim := chosen_primitive data
  cases hchosen : chosen data with
  | none =>
      have hshort : data.length < 8 := by
        by_contra hlong
        rw [hchosen, if_neg hlong] at hprim
        exact nomatch hprim
      rw [llvmFuzzerTestOneInput, llvmFuzzerTestOneInput, hchosen, if_neg fun h => by omega]
      exact ⟨rfl, rfl⟩
  | some pair =>
      rcases pair with ⟨prim, call⟩
      have hsize : ¬ data.length < 8 := by
        intro hshort
        rw [hchosen, if_pos hshort] at hprim
        exact nomatch hprim
      rw [hchosen, if_neg hsize, Option.map_some, Option.some.injEq] at hprim
      rw [llvmFuzzerTestOneInput, llvmFuzzerTestOneInput, hchosen]
      constructor
      · apply violation_agree_eq_none_iff.mpr
        intro l _
        rw [result_plain, result_plain, hsame]
      · by_cases hzero : (data.getD 0 0).toNat % 10 = 0
        · rw [if_pos ⟨not_lt.mp hsize, hzero⟩]
          have hsha : prim = .sha256 := hprim.trans ((ofOp_eq_sha256_iff _).mpr hzero)
          refine violation_agree.trans ?_
          have hcorrupt : (libs.compute .openssl .sha256 call).modify 0 (· ^^^ 0xff) ≠
              libs.compute .openssl .sha256 call :=
            modify_xor_ne (List.length_pos_iff.mpr (hdigest call)) (by decide)
          rw [hsha]
          simp [others, Libraries.result, hsame, hcorrupt]
        · rw [if_neg fun h => hzero h.2]
          apply violation_agree_eq_none_iff.mpr
          have hother : prim ≠ .sha256 :=
            fun h => hzero ((ofOp_eq_sha256_iff _).mp (hprim.symm.trans h))
          intro l _
          rw [Libraries.result, Libraries.result, if_neg fun h => hother h.2.1,
            if_neg fun h => hother h.2.1, hsame]

theorem multilib_self_test_zeros :
    violation (llvmFuzzerTestOneInput ⟨fun _ _ _ => [0], true⟩ true [0, 0, 0, 0, 0, 0, 0, 0]) =
      some (mismatch .sha256 .cryptopp) :=
  (multilib_self_test ⟨fun _ _ _ => [0], true⟩ (fun _ _ _ => rfl)
    (fun _ => List.cons_ne_nil _ _) [0, 0, 0, 0, 0, 0, 0, 0]).2.trans (if_pos (by decide))

end Multilib
end CMFuzz
