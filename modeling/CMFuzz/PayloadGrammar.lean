import CMFuzz.BufferAccess
import CMFuzz.VectorGeneration

/-!
# The grammar of verify payloads

`cmf_verify_parse` accepts the payloads `BE16(|pub|) || pub || BE16(|sig|) ||
sig || msg` and no others, and reads no byte behind the end it is told.
-/

namespace CMFuzz
namespace Wire

open ByteCodec
open Buffer
open SplitMix

/-! ## Accepted payloads -/

theorem be16_lt (hi lo : UInt8) : be16 hi lo < 65536 := by
  have hhi := hi.toNat_lt
  have hlo := lo.toNat_lt
  rw [be16_eq]
  omega

theorem putBe16_be16 (hi lo : UInt8) : putBe16 (be16 hi lo) = [hi, lo] := by
  have hlo := lo.toNat_lt
  have hlow : be16 hi lo &&& 0xFF = be16 hi lo % 256 := by
    simpa using Nat.and_two_pow_sub_one_eq_mod (be16 hi lo) 8
  have hbyte : ∀ {m : ℕ} {b : UInt8}, m % 256 = b.toNat → UInt8.ofNat m = b := by
    intro m b hm
    apply UInt8.toNat_inj.mp
    rw [UInt8.toNat_ofNat', hm]
  have hhi := hi.toNat_lt
  rw [putBe16, hlow, be16_eq, Nat.shiftRight_eq_div_pow, hbyte (b := hi) (by omega),
    hbyte (b := lo) (by omega)]

theorem drop_eq_pair {p : Bytes} {off : ℕ} (hoff : off + 2 ≤ p.length) :
    p.drop off = [p.getD off 0, p.getD (off + 1) 0] ++ p.drop (off + 2) := by
  have hfirst : off < p.length := by omega
  have hsecond : off + 1 < p.length := by omega
  rw [List.drop_eq_getElem_cons hfirst, List.drop_eq_getElem_cons hsecond,
    List.getD_eq_getElem?_getD, List.getElem?_eq_getElem hfirst, List.getD_eq_getElem?_getD,
    List.getElem?_eq_getElem hsecond]
  rfl

theorem verifyPayload_of_parse {p pub sig msg : Bytes}
    (hparse : cmfVerifyParse p = some (pub, sig, msg)) :
    pub.length ≤ 65535 ∧ sig.length ≤ 65535 ∧ p = verifyPayload pub sig msg := by
  rw [cmfVerifyParse] at hparse
  split at hparse
  · cases hparse
  · rename_i hshort
    dsimp only at hparse
    have hpl := be16_lt (p.getD 0 0) (p.getD 1 0)
    have hhead := putBe16_be16 (p.getD 0 0) (p.getD 1 0)
    generalize be16 (p.getD 0 0) (p.getD 1 0) = pl at hparse hpl hhead
    split at hparse
    · cases hparse
    · rename_i hpub
      have hsl := be16_lt (p.getD (2 + pl) 0) (p.getD (2 + pl + 1) 0)
      have hmiddle := putBe16_be16 (p.getD (2 + pl) 0) (p.getD (2 + pl + 1) 0)
      generalize be16 (p.getD (2 + pl) 0) (p.getD (2 + pl + 1) 0) = sl at hparse hsl hmiddle
      split at hparse
      · cases hparse
      · rename_i hsig
        simp only [Option.some.injEq, Prod.mk.injEq] at hparse
        rcases hparse with ⟨hpubEq, hsigEq, hmsgEq⟩
        have hpubLen : pub.length = pl := by
          rw [← hpubEq, List.length_take, List.length_drop]
          omega
        have hsigLen : sig.length = sl := by
          rw [← hsigEq, List.length_take, List.length_drop]
          omega
        have hrest : p.drop (2 + pl + 2) = sig ++ msg := by
          rw [← hsigEq, ← hmsgEq, ← List.drop_drop (i := sl), List.take_append_drop]
        have hfields : p.drop (2 + pl) = putBe16 sl ++ (sig ++ msg) := by
          rw [drop_eq_pair (by omega), hrest, hmiddle]
        have hbody : p.drop 2 = pub ++ (putBe16 sl ++ (sig ++ msg)) := by
          rw [← hfields, ← hpubEq, ← List.drop_drop (i := pl), List.take_append_drop]
        have hall : p.drop 0 = _ := drop_eq_pair (by omega)
        rw [List.drop_zero, Nat.zero_add, Nat.zero_add, hbody, ← hhead] at hall
        refine ⟨by omega, by omega, ?_⟩
        rw [verifyPayload, hpubLen, hsigLen]
        exact hall

theorem cmfVerifyParse_eq_some_iff {p pub sig msg : Bytes} :
    cmfVerifyParse p = some (pub, sig, msg) ↔
      pub.length ≤ 65535 ∧ sig.length ≤ 65535 ∧ p = verifyPayload pub sig msg := by
  constructor
  · exact verifyPayload_of_parse
  · rintro ⟨hpub, hsig, rfl⟩
    exact cmfVerifyParse_verifyPayload hpub hsig msg

/-! ## Reads -/

/-- `cmf_verify_parse` on memory: the places it points `pub`, `sig` and `msg` to,
and the reads that led there. -/
def cmfVerifyParseAt (p : ℕ → UInt8) (plen : ℕ) : Option (Span × Span × Span) × List ℕ :=
  if plen < 2 then (none, [])
  else
    let pl := be16 (p 0) (p 1)
    let off := 2
    if off + pl + 2 > plen then (none, [0, 1])
    else
      let pub := ⟨off, pl⟩
      let off := off + pl
      let sl := be16 (p off) (p (off + 1))
      let reads := [0, 1, off, off + 1]
      let off := off + 2
      if off + sl > plen then (none, reads)
      else
        let sig := ⟨off, sl⟩
        let off := off + sl
        (some (pub, sig, ⟨off, plen - off⟩), reads)

theorem cmfVerifyParseAt_reads (p : ℕ → UInt8) (plen : ℕ) :
    ∀ i ∈ (cmfVerifyParseAt p plen).2, i < plen := by
  intro i hi
  rw [cmfVerifyParseAt] at hi
  split at hi
  · cases hi
  · dsimp only at hi
    split at hi
    · simp only [List.mem_cons, List.not_mem_nil, or_false] at hi
      omega
    · split at hi
      · simp only [List.mem_cons, List.not_mem_nil, or_false] at hi
        omega
      · simp only [List.mem_cons, List.not_mem_nil, or_false] at hi
        omega

theorem cmfVerifyParseAt_spans {p : ℕ → UInt8} {plen : ℕ} {pub sig msg : Span}
    (hparse : (cmfVerifyParseAt p plen).1 = some (pub, sig, msg)) :
    pub.off = 2 ∧ sig.off = pub.stop + 2 ∧ msg.off = sig.stop ∧ msg.stop = plen := by
  rw [cmfVerifyParseAt] at hparse
  split at hparse
  · cases hparse
  · dsimp only at hparse
    split at hparse
    · cases hparse
    · split at hparse
      · cases hparse
      · rename_i hsig
        simp only [Option.some.injEq, Prod.mk.injEq] at hparse
        rcases hparse with ⟨rfl, rfl, rfl⟩
        refine ⟨rfl, rfl, rfl, ?_⟩
        rw [Span.stop, Nat.add_sub_cancel' (not_lt.mp hsig)]

def spanBytes (p : Bytes) (s : Span) : Bytes := (p.drop s.off).take s.len

/-- Only the first `plen` bytes matter, and they are parsed as a byte string is. -/
theorem cmfVerifyParseAt_eq {mem : ℕ → UInt8} {p : Bytes}
    (hmem : ∀ i < p.length, mem i = p.getD i 0) :
    (cmfVerifyParseAt mem p.length).1.map
        (fun parts => (spanBytes p parts.1, spanBytes p parts.2.1, spanBytes p parts.2.2)) =
      cmfVerifyParse p := by
  rw [cmfVerifyParseAt, cmfVerifyParse]
  split
  · rfl
  · rename_i hshort
    dsimp only
    rw [hmem 0 (by omega), hmem 1 (by omega)]
    split
    · rfl
    · rename_i hpub
      rw [hmem _ (by omega), hmem _ (by omega)]
      split
      · rfl
      · rename_i hsig
        have hmsg : spanBytes p ⟨2 + be16 (p.getD 0 0) (p.getD 1 0) + 2 +
            be16 (p.getD (2 + be16 (p.getD 0 0) (p.getD 1 0)) 0)
              (p.getD (2 + be16 (p.getD 0 0) (p.getD 1 0) + 1) 0), p.length -
            (2 + be16 (p.getD 0 0) (p.getD 1 0) + 2 +
              be16 (p.getD (2 + be16 (p.getD 0 0) (p.getD 1 0)) 0)
                (p.getD (2 + be16 (p.getD 0 0) (p.getD 1 0) + 1) 0))⟩ = p.drop _ :=
          List.take_of_length_le (by rw [List.length_drop])
        rw [Option.map_some, hmsg]
        rfl

/-! ## The grammar -/

/-- A parse of memory that holds `p` stays inside it and finds what is parsed of
`p`. -/
structure ParsesInside (p : Bytes) (mem : ℕ → UInt8) : Prop where
  reads : ∀ i ∈ (cmfVerifyParseAt mem p.length).2, i < p.length
  result : (cmfVerifyParseAt mem p.length).1.map
      (fun parts => (spanBytes p parts.1, spanBytes p parts.2.1, spanBytes p parts.2.2)) =
    cmfVerifyParse p
  parts : ∀ pub sig msg, (cmfVerifyParseAt mem p.length).1 = some (pub, sig, msg) →
    pub.stop ≤ p.length ∧ sig.stop ≤ p.length ∧ msg.stop = p.length

theorem parsesInside {mem : ℕ → UInt8} {p : Bytes} (hmem : ∀ i < p.length, mem i = p.getD i 0) :
    ParsesInside p mem where
  reads := cmfVerifyParseAt_reads mem p.length
  result := cmfVerifyParseAt_eq hmem
  parts pub sig msg hparse := by
    rcases cmfVerifyParseAt_spans hparse with ⟨_, hsig, hmsg, hstop⟩
    have hsigStop : sig.stop = sig.off + sig.len := rfl
    have hmsgStop : msg.stop = msg.off + msg.len := rfl
    exact ⟨by omega, by omega, hstop⟩

theorem cmfVerifyParse_isSome_iff (p : Bytes) :
    (cmfVerifyParse p).isSome = true ↔ ∃ pub sig msg : Bytes,
      pub.length ≤ 65535 ∧ sig.length ≤ 65535 ∧ p = verifyPayload pub sig msg := by
  rw [Option.isSome_iff_exists]
  constructor
  · rintro ⟨⟨pub, sig, msg⟩, hparse⟩
    exact ⟨pub, sig, msg, verifyPayload_of_parse hparse⟩
  · rintro ⟨pub, sig, msg, hpayload⟩
    exact ⟨(pub, sig, msg), cmfVerifyParse_eq_some_iff.mpr hpayload⟩

theorem makePayload_parses {κ : Type} (scheme : Runner.Signer κ) (rhsFirst : ℕ → Bool) (i : ℕ)
    (cached : Option κ) :
    Always (fun made : Option κ × Option Runner.Payload => ∀ p ∈ made.2,
        cmfVerifyParse p.bytes = some (p.pub, p.sig, p.msg) ∧
          ∃ key, scheme.exportKey key = some p.pub ∧ p.verdict = scheme.verify key p.sig p.msg)
      (Runner.makePayload scheme rhsFirst i cached) := by
  intro s p hp
  rcases Runner.makePayload_signed scheme rhsFirst i cached s p hp with ⟨key, hsigned⟩
  exact ⟨Runner.cmfVerifyParse_bytes p, key, hsigned.pub_eq, hsigned.verdict_eq⟩

/-- `cmf_verify_parse` takes exactly the payloads of the grammar apart, each in
the one way there is, without a read behind the end; what the runner packs is
among them. -/
theorem verify_payload_grammar :
    (∀ p : Bytes,
      ((cmfVerifyParse p).isSome = true ↔ ∃ pub sig msg : Bytes,
        pub.length ≤ 65535 ∧ sig.length ≤ 65535 ∧ p = verifyPayload pub sig msg) ∧
      (∀ pub sig msg : Bytes, pub.length ≤ 65535 → sig.length ≤ 65535 →
        p = verifyPayload pub sig msg → cmfVerifyParse p = some (pub, sig, msg)) ∧
      (∀ pub sig msg pub' sig' msg' : Bytes, pub.length ≤ 65535 → sig.length ≤ 65535 →
        p = verifyPayload pub sig msg → pub'.length ≤ 65535 → sig'.length ≤ 65535 →
        p = verifyPayload pub' sig' msg' → pub = pub' ∧ sig = sig' ∧ msg = msg') ∧
      (∀ pub sig msg : Bytes, cmfVerifyParse p = some (pub, sig, msg) →
        4 + pub.length + sig.length + msg.length = p.length) ∧
      ∀ mem : ℕ → UInt8, (∀ i < p.length, mem i = p.getD i 0) → ParsesInside p mem) ∧
    ∀ (κ : Type) (ssl : Runner.OpenSSL κ) (rhsFirst : ℕ → Bool) (i : ℕ) (cached : Option κ)
      (s : UInt64),
      (∀ p ∈ (Runner.ecdsaMakePayload ssl rhsFirst i cached s).1.2,
        cmfVerifyParse p.bytes = some (p.pub, p.sig, p.msg) ∧
          ∃ key, ssl.ecdsa.exportKey key = some p.pub ∧
            p.verdict = ssl.ecdsa.verify key p.sig p.msg) ∧
      ∀ p ∈ (Runner.rsaMakePayload ssl rhsFirst i cached s).1.2,
        cmfVerifyParse p.bytes = some (p.pub, p.sig, p.msg) ∧
          ∃ key, ssl.rsaPss.exportKey key = some p.pub ∧
            p.verdict = ssl.rsaPss.verify key p.sig p.msg := by
  constructor
  · intro p
    refine ⟨cmfVerifyParse_isSome_iff p, ?_, ?_, ?_, fun mem hmem => parsesInside hmem⟩
    · intro pub sig msg hpub hsig hp
      exact cmfVerifyParse_eq_some_iff.mpr ⟨hpub, hsig, hp⟩
    · intro pub sig msg pub' sig' msg' hpub hsig hp hpub' hsig' hp'
      have hparse := cmfVerifyParse_eq_some_iff.mpr ⟨hpub, hsig, hp⟩
      have hparse' := cmfVerifyParse_eq_some_iff.mpr ⟨hpub', hsig', hp'⟩
      rw [hparse, Option.some.injEq, Prod.mk.injEq, Prod.mk.injEq] at hparse'
      exact hparse'
    · intro pub sig msg hparse
      rcases verifyPayload_of_parse hparse with ⟨_, _, hp⟩
      rw [hp, verifyPayload_length]
  · intro κ ssl rhsFirst i cached s
    exact ⟨makePayload_parses ssl.ecdsa rhsFirst i cached s,
      makePayload_parses ssl.rsaPss rhsFirst i cached s⟩

theorem verify_payload_grammar_seven :
    cmfVerifyParse (verifyPayload [7] [8, 9] []) = some ([7], [8, 9], []) ∧
      ∀ i ∈ (cmfVerifyParseAt (fun i => (verifyPayload [7] [8, 9] []).getD i 0)
        (verifyPayload [7] [8, 9] []).length).2, i < 7 := by
  have hgrammar := verify_payload_grammar.1 (verifyPayload [7] [8, 9] [])
  exact ⟨hgrammar.2.1 [7] [8, 9] [] (by decide) (by decide) rfl,
    (hgrammar.2.2.2.2 _ fun _ _ => rfl).reads⟩

end Wire
end CMFuzz
