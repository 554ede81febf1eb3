import CMFuzz.BridgeDispatch
import CMFuzz.ComputeBounds
import CMFuzz.RequestRoundTrip
import CMFuzz.RunnerMain
import CMFuzz.ViolationLog

/-!
# Fault builds

The backends that are built to fail, and what a run with one of them alone
reports.  The C programs, Java and Python flip the first byte of every output;
Go and Rust spoil their first reply.
-/

namespace CMFuzz
namespace Runner

open ByteCodec
open Compute
open LineStream
open RuntimeText
open SplitMix
open Wire

variable {κ : Type}

/-! ## Programs on the request file -/

theorem emitVector_blob (ssl : OpenSSL κ) (rhsFirst : ℕ → Bool) (i : ℕ) (keys : Keys κ) :
    Always (fun made : Keys κ × Emitted => made.2.blob ≠ [])
      (emitVector ssl rhsFirst i keys) := by
  have hverify : ∀ op made, (emitVerify op made).blob ≠ [] := by
    intro op made
    apply List.ne_nil_of_length_pos
    simp [emitVerify, headerLen]
  have hcompute : ∀ c : ComputeBlob, c.blob ≠ [] := by
    intro c
    apply List.ne_nil_of_length_pos
    simp [ComputeBlob.blob]
  refine Always.bind (always_true next) fun r _ => ?_
  dsimp only
  generalize r.toNat % cmfNumOps = op
  split
  · exact Always.bind (always_true _) fun made _ => Always.pure (hverify op made.2)
  · split
    · exact Always.bind (always_true _) fun made _ => Always.pure (hverify op made.2)
    · refine Always.bind (P := fun e : Emitted => e.blob ≠ []) ?_
        fun e he => Always.pure he
      exact Always.bind (always_true _) fun c _ => Always.pure (hcompute c)

theorem replyLoop_requests {ρ : Type*} (render : Bool → Computed → Bytes)
    (reply : ρ → Computed) (requests : List ρ) :
    replyLoop render true (requests.map fun r => some (reply r)) =
      unlines 10 (requests.mapIdx fun k r => render (decide (k = 0)) (reply r)) := by
  have hall : (requests.map fun r => some (reply r)).filterMap id = requests.map reply := by
    simp [List.filterMap_map]
  rw [replyLoop_eq, hall, mapIdx_map]
  rfl

section

variable {vectors : List Emitted} (hop : ∀ e ∈ vectors, e.op < cmfNumOps)

include hop

theorem goMain_requestFile (fault : Bool) (dispatch : ℤ → Bytes → Computed) :
    GoBridge.main fault dispatch (requestFile vectors) =
      unlines 10 (vectors.mapIdx fun k e =>
        spoilFirst fault (decide (k = 0)) (dispatch e.op e.blob)) := by
  have hread : (lines 10 (requestFile vectors)).map
      (fun line => (GoBridge.readRequest line).answer dispatch) =
        vectors.map fun e => some (dispatch e.op e.blob) := by
    rw [lines_requestFile hop, List.map_map]
    refine List.map_congr_left fun e he => ?_
    rw [Function.comp_apply, GoBridge.readRequest_requestLine (hop e he), Request.answer]
  rw [GoBridge.main, hread, replyLoop_requests]

theorem decodedLines_requestFile (utf8 : Charset) :
    decodedLines utf8 (lines 10 (requestFile vectors)) =
      vectors.map fun e => requestText e.op e.blob ++ [10] := by
  have hdecode : ∀ e ∈ vectors, utf8.decode (requestLine e.op e.blob) =
      some (requestText e.op e.blob ++ [10]) := by
    intro e he
    rw [utf8.decode_transparent.ascii (requestLine_ascii (hop e he)), requestLine_toNat]
  rw [lines_requestFile hop, decodedLines_eq, List.filterMap_map, ← List.filterMap_eq_map]
  · exact List.filterMap_congr hdecode
  · intro line hline
    obtain ⟨e, he, rfl⟩ := List.mem_map.mp hline
    rw [hdecode e he]
    rfl

theorem rustMain_requestFile (utf8 : Charset) (fault : Bool)
    (dispatch : ℤ → Bytes → Computed) :
    RustBridge.main utf8 fault dispatch (requestFile vectors) =
      unlines 10 (vectors.mapIdx fun k e =>
        spoilFirst fault (decide (k = 0)) (dispatch e.op e.blob)) := by
  have hread : (decodedLines utf8 (lines 10 (requestFile vectors))).map
      (fun line => (RustBridge.readRequest line).answer dispatch) =
        vectors.map fun e => some (dispatch e.op e.blob) := by
    rw [decodedLines_requestFile hop, List.map_map]
    refine List.map_congr_left fun e he => ?_
    rw [Function.comp_apply, RustBridge.readRequest_requestText (hop e he), Request.answer]
  rw [RustBridge.main, hread, replyLoop_requests]

theorem requestFile_ascii : ∀ b ∈ requestFile vectors, b < 128 := by
  intro b hb
  obtain ⟨e, he, hline⟩ := List.mem_flatMap.mp hb
  exact requestLine_ascii (hop e he) b hline

omit hop in
theorem requestFile_toNat :
    (requestFile vectors).map UInt8.toNat =
      unlines 10 (vectors.map fun e => requestText e.op e.blob) := by
  rw [requestFile, List.map_flatMap, unlines, List.flatMap_map]
  exact List.flatMap_congr fun e _ => requestLine_toNat e.op e.blob

theorem lines_requestFile_toNat :
    lines 10 ((requestFile vectors).map UInt8.toNat) =
      vectors.map fun e => requestText e.op e.blob ++ [10] := by
  rw [requestFile_toNat, lines_unlines, List.map_map]
  · rfl
  · intro text htext
    obtain ⟨e, he, rfl⟩ := List.mem_map.mp htext
    exact newline_not_mem_requestText (hop e he) e.blob

theorem universalLines_requestFile :
    universalLines ((requestFile vectors).map UInt8.toNat) =
      vectors.map fun e => requestText e.op e.blob := by
  rw [requestFile_toNat]
  induction vectors with
  | nil => rfl
  | cons e rest ih =>
      have hrest := ih fun e he => hop e (List.mem_cons_of_mem _ he)
      rw [List.map_cons, unlines_cons, universalLines_append_lf,
        universalLines_request (hop e List.mem_cons_self), hrest]
      rfl

variable (hblob : ∀ e ∈ vectors, e.blob ≠ [])

include hblob

theorem javaMain_requestFile (charset : Charset) (unicodeDigit : ℕ → ℕ → Option ℕ)
    (fault : Bool) (compute : ℤ → Bytes → Computed) :
    JavaBridge.main charset unicodeDigit fault compute (requestFile vectors) =
      unlines 10 (vectors.map fun e => ((compute e.op e.blob).inject fault).text) := by
  have hread : (universalLines (charset.replace (requestFile vectors))).map
      (fun line => (JavaBridge.readRequest unicodeDigit line).answer compute) =
        vectors.map fun e => some (compute e.op e.blob) := by
    rw [charset.replace_ascii (requestFile_ascii hop), universalLines_requestFile hop,
      List.map_map]
    refine List.map_congr_left fun e he => ?_
    rw [Function.comp_apply, JavaBridge.readRequest_requestText unicodeDigit (hop e he)
      (hblob e he), Request.answer]
  rw [JavaBridge.main, hread, replyLoop_requests, mapIdx_const]

theorem pyMain_requestFile (charset : Charset) (unicodeDigit : ℕ → ℕ → Option ℕ)
    (fault : Bool) (compute : ℤ → Bytes → Computed) :
    PyBridge.main charset unicodeDigit fault compute (requestFile vectors) =
      some (unlines 10
        (vectors.map fun e => ((compute e.op e.blob).inject fault).text)) := by
  have hread : (lines 10 ((requestFile vectors).map UInt8.toNat)).map
      (fun line => (PyBridge.readRequest unicodeDigit line).answer compute) =
        vectors.map fun e => some (compute e.op e.blob) := by
    rw [lines_requestFile_toNat hop, List.map_map]
    refine List.map_congr_left fun e he => ?_
    rw [Function.comp_apply, PyBridge.readRequest_requestText unicodeDigit (hop e he)
      (hblob e he), Request.answer]
  rw [PyBridge.main, charset.decode_transparent.ascii (requestFile_ascii hop),
    Option.map_some, hread, replyLoop_requests, mapIdx_const]

end

/-! ## One backend that wrote these replies -/

theorem runnerMain_replies (ssl : OpenSSL κ) (rhsFirst : ℕ → Bool)
    (exec : CString → Bytes → Bytes) (program : CString) (n : ℕ) (seed : UInt64)
    (arg : BackendArg) {replies : List Computed}
    (hexec : exec arg.path (requestFile (genVectors ssl rhsFirst seed n)) =
      unlines 10 (replies.map Computed.text)) :
    runnerMain ssl rhsFirst exec program n seed [arg.text] =
      outcome (replyCampaign (genVectors ssl rhsFirst seed n) replies arg.name) := by
  rw [runnerMain_single, hexec]
  rfl

section

variable {ssl : OpenSSL κ} {vectors : List Emitted} {replies : List Computed}
variable (hfaithful : ∀ e ∈ vectors, e.Faithful ssl)
variable (hlen : replies.length = vectors.length) (name : CString)

include hfaithful hlen

theorem replyCampaign_flags_iff (i : ℕ) :
    (outcome (replyCampaign vectors replies name)).Flags i ↔
      ∃ e r, vectors[i]? = some e ∧ replies[i]? = some r ∧ ¬ MatchesReply r e := by
  have hN : (replyCampaign vectors replies name).N = vectors.length := List.length_map _
  rw [flags_iff_not_agree fun i => Campaign.answering_card_le _ i (by decide), hN]
  by_cases hi : i < vectors.length
  · have hi' : i < replies.length := hlen ▸ hi
    rw [agree_iff_matchesReply hfaithful hlen name hi, List.getElem?_eq_getElem hi,
      List.getElem?_eq_getElem hi']
    simp [hi]
  · rw [List.getElem?_eq_none (by omega)]
    simp [hi]

theorem replyCampaign_status_iff :
    (outcome (replyCampaign vectors replies name)).status = some 0 ↔
      ∀ (i : ℕ) e r, vectors[i]? = some e → replies[i]? = some r → MatchesReply r e := by
  have hN : (replyCampaign vectors replies name).N = vectors.length := List.length_map _
  rw [outcome_status_iff_agree fun i _ => Campaign.answering_card_le _ i (by decide), hN]
  constructor
  · intro hall i e r he hr
    obtain ⟨hi, rfl⟩ := List.getElem?_eq_some_iff.mp he
    obtain ⟨_, rfl⟩ := List.getElem?_eq_some_iff.mp hr
    exact (agree_iff_matchesReply hfaithful hlen name hi).mp (hall i hi)
  · intro hall i hi
    have hi' : i < replies.length := hlen ▸ hi
    exact (agree_iff_matchesReply hfaithful hlen name hi).mpr
      (hall i _ _ (List.getElem?_eq_getElem hi) (List.getElem?_eq_getElem hi'))

end

section

variable {ssl : OpenSSL κ} {vectors : List Emitted} {replies : List Computed}
variable (hfaithful : ∀ e ∈ vectors, e.Faithful ssl) {g : ℕ → Emitted → Computed}
variable (hreplies : ∀ i : ℕ, replies[i]? = vectors[i]?.map (g i)) (name : CString)

include hfaithful hreplies

omit hfaithful in
theorem length_of_replies : replies.length = vectors.length := by
  have hnone : ∀ i : ℕ, replies.length ≤ i ↔ vectors.length ≤ i := by
    intro i
    rw [← List.getElem?_eq_none_iff, hreplies, Option.map_eq_none_iff,
      List.getElem?_eq_none_iff]
  exact le_antisymm ((hnone _).mpr le_rfl) ((hnone _).mp le_rfl)

/-- A backend that replies `g i e` to vector `i`. -/
theorem replyCampaign_flags_of (i : ℕ) :
    (outcome (replyCampaign vectors replies name)).Flags i ↔
      ∃ e, vectors[i]? = some e ∧ ¬ MatchesReply (g i e) e := by
  rw [replyCampaign_flags_iff hfaithful (length_of_replies hreplies)]
  apply exists_congr
  intro e
  constructor
  · rintro ⟨r, he, hr, hcharged⟩
    rw [hreplies, he, Option.map_some, Option.some.injEq] at hr
    exact ⟨he, hr ▸ hcharged⟩
  · rintro ⟨he, hcharged⟩
    exact ⟨g i e, he, by rw [hreplies, he, Option.map_some], hcharged⟩

theorem replyCampaign_status_of :
    (outcome (replyCampaign vectors replies name)).status = some 0 ↔
      ∀ (i : ℕ) e, vectors[i]? = some e → MatchesReply (g i e) e := by
  rw [replyCampaign_status_iff hfaithful (length_of_replies hreplies)]
  constructor
  · intro hall i e he
    exact hall i e _ he (by rw [hreplies, he, Option.map_some])
  · intro hall i e r he hr
    rw [hreplies, he, Option.map_some, Option.some.injEq] at hr
    exact hr ▸ hall i e he

end

/-- Only a run that overflows its counter could hide a single flag. -/
theorem status_of_flags {c : Campaign 1} (honly : ∀ i, (outcome c).Flags i → i = 0)
    (hflags : (outcome c).Flags 0) : (outcome c).status = some 1 := by
  obtain ⟨hN, hfirst⟩ := (flags_iff_failures c 0).mp hflags
  have hconst : ∀ n, 0 < n → n ≤ c.N → (stateAt c n).failures = (stateAt c 1).failures := by
    intro n hpos
    induction n, hpos using Nat.le_induction with
    | base => exact fun _ => rfl
    | succ n hn ih =>
        intro hle
        have hquiet : ¬ (outcome c).Flags n := fun h => by
          have := honly n h
          omega
        rw [flags_iff_failures, not_and, not_not] at hquiet
        exact (hquiet hle).trans (ih (by omega))
  have hfinal : (final c).failures = (stateAt c 1).failures := hconst c.N hN le_rfl
  have hcount : (stateAt c 1).failures ≤ 3 := by
    have happ : (stateAt c 1).failures = (stateAt c 0).failures +
        (c.rulingAt 0).charged.card + (c.rulingAt 0).unresolved.toNat :=
      (stateAt_applied c 0).failures
    have hcard : (c.rulingAt 0).charged.card ≤ 2 :=
      Finset.card_le_univ (c.rulingAt 0).charged
    have hsplit := Bool.toNat_le (c.rulingAt 0).unresolved
    have hzero : (stateAt c 0).failures = 0 := rfl
    omega
  rw [outcome_status_of_le c (by rw [hfinal]; simp only [intMax]; omega), hfinal,
    if_neg fun h => hfirst (h.trans rfl)]

/-! ## Flipped outputs -/

/-- The backends whose fault build flips the first byte of every output. -/
inductive FlipBuild where
  | cli (program : Cli)
  | java (charset : Charset) (unicodeDigit : ℕ → ℕ → Option ℕ)
  | python (charset : Charset) (unicodeDigit : ℕ → ℕ → Option ℕ)

namespace FlipBuild

def main (b : FlipBuild) (lib : Library) (fault : Bool) (stdin : Bytes) : Bytes :=
  match b with
  | .cli program => cliMain fault (fun v => (program.handle lib v).result) stdin
  | .java charset unicodeDigit =>
      JavaBridge.main charset unicodeDigit fault (JavaBridge.compute lib) stdin
  | .python charset unicodeDigit =>
      (PyBridge.main charset unicodeDigit fault (PyBridge.reply lib) stdin).getD []

def reply (b : FlipBuild) (lib : Library) (e : Emitted) : Computed :=
  match b with
  | .cli program => (program.handle lib e.vec).result
  | .java _ _ => JavaBridge.compute lib e.op e.blob
  | .python _ _ => PyBridge.reply lib e.op e.blob

theorem main_requestFile (b : FlipBuild) (lib : Library) (fault : Bool)
    {vectors : List Emitted} (hop : ∀ e ∈ vectors, e.op < cmfNumOps)
    (hblob : ∀ e ∈ vectors, e.blob ≠ []) :
    b.main lib fault (requestFile vectors) =
      unlines 10 ((vectors.map fun e => (b.reply lib e).inject fault).map
        Computed.text) := by
  cases b with
  | cli program => exact cliMain_requestFile hop fault _
  | java charset unicodeDigit =>
      have hmain := javaMain_requestFile hop hblob charset unicodeDigit fault
        (JavaBridge.compute lib)
      rw [List.map_map]
      exact hmain
  | python charset unicodeDigit =>
      have hmain := pyMain_requestFile hop hblob charset unicodeDigit fault
        (PyBridge.reply lib)
      rw [List.map_map, main, hmain]
      rfl

theorem verdictByte_cases (accepted : Bool) :
    verdictByte accepted = [0x00] ∨ verdictByte accepted = [0x01] := by
  cases accepted
  · exact Or.inl rfl
  · exact Or.inr rfl

theorem cli_verdict {cli : Cli} {lib : Library} {v : CmfVec} (hop : v.op = 13 ∨ v.op = 14)
    {out : Bytes} (hout : (cli.handle lib v).result = .output out) :
    out = [0x00] ∨ out = [0x01] := by
  have hhandling := cli.handling lib v
  generalize cli.handle lib v = h at hhandling hout
  cases hhandling with
  | abstains => cases hout
  | computes haead hother => omega
  | encrypts haead =>
      exfalso
      rcases hop with hop | hop <;> rw [hop] at haead <;> revert haead <;>
        cases cli <;> decide
  | exchanges hother => omega
  | judges verify =>
      rw [← Computed.output.inj hout]
      split
      · exact Or.inr rfl
      · exact Or.inl rfl

theorem java_verdict {check : Bytes → Bytes → Bytes → Option Bool} {payload out : Bytes}
    (hout : JavaBridge.verify check payload = .output out) :
    out = [0x00] ∨ out = [0x01] := by
  unfold JavaBridge.verify at hout
  split at hout
  · cases hout
  · split at hout
    · cases hout
    · rw [← Computed.output.inj hout]
      exact verdictByte_cases _

theorem py_verdict {check : Bytes → Bytes → Bytes → Option Bool} {payload out : Bytes}
    (hout : PyBridge.verify check payload = .output out) :
    out = [0x00] ∨ out = [0x01] := by
  unfold PyBridge.verify at hout
  split at hout
  · cases hout
  · rw [← Computed.output.inj hout]
    exact verdictByte_cases _

theorem reply_verdict (b : FlipBuild) (lib : Library) {e : Emitted}
    (hop : e.op = 13 ∨ e.op = 14) {out : Bytes} (hout : b.reply lib e = .output out) :
    out = [0x00] ∨ out = [0x01] := by
  cases b with
  | cli program =>
      have hvop : e.vec.op = e.op := cmfVecFields_op _ _
      exact cli_verdict (by omega) hout
  | java charset unicodeDigit =>
      have hcompute : JavaBridge.compute lib e.op e.blob = .output out := hout
      unfold JavaBridge.compute at hcompute
      split at hcompute
      · cases hcompute
      · rcases hop with h | h <;> rw [h] at hcompute <;> exact java_verdict hcompute
  | python charset unicodeDigit =>
      have hreply : PyBridge.reply lib e.op e.blob = .output out := hout
      unfold PyBridge.reply at hreply
      split at hreply
      · cases hreply
      · unfold PyBridge.compute at hreply
        rcases hop with h | h <;> rw [h] at hreply <;> exact py_verdict hreply

end FlipBuild

theorem foldSecret_some_injective : Function.Injective fun x => foldSecret (some x) := by
  intro x y heq
  simp only [foldSecret, Option.some.injEq] at heq
  split at heq
  · next hx =>
      split at heq
      · next hy => exact hx.trans hy.symm
      · cases heq
  · split at heq
    · cases heq
    · exact Option.some.inj heq

theorem flip_ne (b : UInt8) : b ^^^ 0xFF ≠ b := by
  intro h
  have hxor : b ^^^ (b ^^^ 0xFF) = b ^^^ b := congrArg (b ^^^ ·) h
  rw [← UInt8.xor_assoc, UInt8.xor_self, UInt8.zero_xor] at hxor
  exact absurd hxor (by decide)

/-- A flipped reply is charged exactly where the honest one was an output and
the comparison is not between rejects.  No fold can hide the flip: an output
folds to a value of its own, also where that value is the error. -/
theorem not_matches_inject_iff {ssl : OpenSSL κ} {e : Emitted} (he : e.Faithful ssl)
    {r : Computed} (hr : MatchesReply r e)
    (hverdict : e.op = 13 ∨ e.op = 14 → ∀ out, r = .output out →
      out = [0x00] ∨ out = [0x01]) :
    ¬ MatchesReply (r.inject true) e ↔ ∃ out, r = .output out ∧ out ≠ [] ∧
      (e.op = 13 ∨ e.op = 14 → e.reference = .verdict true) := by
  cases r with
  | failure => exact iff_of_false (not_not_intro hr) (by simp)
  | notImplemented => exact iff_of_false (not_not_intro hr) (by simp)
  | output out =>
      cases out with
      | nil => exact iff_of_false (not_not_intro hr) (by simp)
      | cons b rest =>
          have hinject : (Computed.output (b :: rest)).inject true =
              .output ((b ^^^ 0xFF) :: rest) := rfl
          have hne : (b ^^^ 0xFF) :: rest ≠ b :: rest := fun h =>
            flip_ne b (List.cons.inj h).1
          have hvop : e.vec.op = e.op := cmfVecFields_op _ _
          rw [hinject]
          simp only [MatchesReply, reduceCtorEq, false_or] at hr ⊢
          have href := he.reference_of
          generalize e.reference = reference at hr href ⊢
          have hjudged : ∀ accepted, reference = .verdict accepted →
              (e.op = 13 ∨ e.op = 14) →
              (¬ (Computed.output ((b ^^^ 0xFF) :: rest) = .output [0x01] ↔
                accepted = true) ↔ ∃ out, Computed.output (b :: rest) = .output out ∧
                out ≠ [] ∧ (e.op = 13 ∨ e.op = 14 → reference = .verdict true)) := by
            intro accepted haccepted hop
            have hflip : Computed.output ((b ^^^ 0xFF) :: rest) ≠ .output [0x01] := by
              intro h
              obtain ⟨hbyte, hrest⟩ := List.cons.inj (Computed.output.inj h)
              rcases hverdict hop _ rfl with h | h <;> rw [(List.cons.inj h).1] at hbyte <;>
                exact absurd hbyte (by decide)
            subst haccepted
            simp [hflip, hop]
          cases href with
          | computed hcompute hmsg =>
              have hop : ¬ (e.op = 13 ∨ e.op = 14) := by omega
              refine iff_of_true ?_ ⟨_, rfl, by simp, fun h => absurd h hop⟩
              dsimp only at hr ⊢
              split at hr
              · next h12 =>
                  rw [if_pos h12, ← hr]
                  exact fun h => hne (foldSecret_some_injective h)
              · next h12 =>
                  rw [if_neg h12, ← hr]
                  exact fun h => hne (Option.some.inj h)
          | signed scheme hscheme => exact hjudged _ rfl (by omega)
          | unsigned hop => exact hjudged _ rfl (by omega)

theorem text_eq_hexEncode_iff {r : Computed} {out : Bytes} :
    r.text = hexEncode out ↔ r = .output out := by
  by_cases hna : r = .notImplemented
  · subst hna
    exact iff_of_false (hexEncode_ne_sentinel out).1.symm (by simp)
  · have hout : hexEncode out = resultText (some out) := rfl
    rw [Computed.text_eq_resultText hna, hout, resultText_injective.eq_iff]
    cases r with
    | output out' => simp [Computed.result]
    | failure => simp [Computed.result]
    | notImplemented => exact absurd rfl hna

/-- A line of the honest backend. -/
theorem FlipBuild.honest_line (b : FlipBuild) (lib : Library) {vectors : List Emitted}
    (hop : ∀ e ∈ vectors, e.op < cmfNumOps) (hblob : ∀ e ∈ vectors, e.blob ≠ []) {i : ℕ}
    {e : Emitted} (he : vectors[i]? = some e) (out : Bytes) :
    (lines 10 (b.main lib false (requestFile vectors)))[i]? = some (hexEncode out ++ [10]) ↔
      b.reply lib e = .output out := by
  have hlines : lines 10 (b.main lib false (requestFile vectors)) =
      vectors.map fun e => (b.reply lib e).text ++ [10] := by
    rw [b.main_requestFile lib false hop hblob, lines_replies, List.map_map]
    simp only [Computed.inject_false]
    rfl
  rw [hlines, List.getElem?_map, he, Option.map_some, Option.some.injEq,
    List.append_cancel_right_eq, text_eq_hexEncode_iff]

theorem genVectors_blob (ssl : OpenSSL κ) (rhsFirst : ℕ → Bool) (seed : UInt64) (n : ℕ) :
    ∀ e ∈ genVectors ssl rhsFirst seed n, e.blob ≠ [] :=
  (emitFrom_always (emitVector_blob ssl rhsFirst) n 0 ⟨none, none⟩ seed).2

/-- Where the honest backend agrees on every vector, its fault build is flagged
at exactly the non-empty outputs that are not rejects. -/
theorem flipBuild_flags (ssl : OpenSSL κ) (rhsFirst : ℕ → Bool) (program : CString) (n : ℕ)
    (seed : UInt64) (arg : BackendArg) (b : FlipBuild) (lib : Library)
    (hagree : (runnerMain ssl rhsFirst (fun _ => b.main lib false) program n seed
      [arg.text]).status = some 0) :
    let vectors := genVectors ssl rhsFirst seed n
    let honest := lines 10 (b.main lib false (requestFile vectors))
    let run := runnerMain ssl rhsFirst (fun _ => b.main lib true) program n seed [arg.text]
    ∀ i : ℕ,
      (run.Flags i ↔ ∃ e out, vectors[i]? = some e ∧ out ≠ [] ∧
        honest[i]? = some (hexEncode out ++ [10]) ∧
        (e.op = 13 ∨ e.op = 14 → e.reference = .verdict true)) ∧
      ∀ e out, vectors[i]? = some e → e.op = 12 →
        honest[i]? = some (hexEncode out ++ [10]) →
        (out = List.replicate cmfX25519Len 0 ∨
          out = 0xFF :: List.replicate (cmfX25519Len - 1) 0) → run.Flags i := by
  intro vectors honest run
  have hfaithful := (genVectors_faithful ssl rhsFirst seed n).2
  have hop : ∀ e ∈ vectors, e.op < cmfNumOps := fun e he => (hfaithful e he).op_lt
  have hblob := genVectors_blob ssl rhsFirst seed n
  have hmain := fun fault => b.main_requestFile lib fault hop hblob
  have hreplies : ∀ fault (i : ℕ), (vectors.map fun e => (b.reply lib e).inject fault)[i]? =
      vectors[i]?.map fun e => (b.reply lib e).inject fault := fun fault i => List.getElem?_map
  have hmatch : ∀ e ∈ vectors, MatchesReply (b.reply lib e) e := by
    rw [runnerMain_replies ssl rhsFirst _ program n seed arg (hmain false),
      replyCampaign_status_of hfaithful (hreplies false)] at hagree
    intro e he
    obtain ⟨i, hi, rfl⟩ := List.getElem_of_mem he
    have hmatches := hagree i _ (List.getElem?_eq_getElem hi)
    rwa [Computed.inject_false] at hmatches
  have hcharged : ∀ (i : ℕ) e, vectors[i]? = some e →
      (¬ MatchesReply ((b.reply lib e).inject true) e ↔ ∃ out, b.reply lib e = .output out ∧
        out ≠ [] ∧ (e.op = 13 ∨ e.op = 14 → e.reference = .verdict true)) := by
    intro i e he
    have hmem := List.mem_of_getElem? he
    exact not_matches_inject_iff (hfaithful e hmem) (hmatch e hmem) fun h out =>
      b.reply_verdict lib h
  have hflags : ∀ i : ℕ, run.Flags i ↔ ∃ e out, vectors[i]? = some e ∧ out ≠ [] ∧
      honest[i]? = some (hexEncode out ++ [10]) ∧
      (e.op = 13 ∨ e.op = 14 → e.reference = .verdict true) := by
    intro i
    have hrun : run = outcome (replyCampaign vectors
        (vectors.map fun e => (b.reply lib e).inject true) arg.name) :=
      runnerMain_replies ssl rhsFirst _ program n seed arg (hmain true)
    rw [hrun, replyCampaign_flags_of hfaithful (hreplies true)]
    apply exists_congr
    intro e
    constructor
    · rintro ⟨he, hcaught⟩
      obtain ⟨out, hout, hne, haccept⟩ := (hcharged i e he).mp hcaught
      exact ⟨out, he, hne, (b.honest_line lib hop hblob he out).mpr hout, haccept⟩
    · rintro ⟨out, he, hne, hline, haccept⟩
      have hout := (b.honest_line lib hop hblob he out).mp hline
      exact ⟨he, (hcharged i e he).mpr ⟨out, hout, hne, haccept⟩⟩
  intro i
  refine ⟨hflags i, fun e out he h12 hline hout => (hflags i).mpr ?_⟩
  refine ⟨e, out, he, ?_, hline, fun h => by omega⟩
  rcases hout with rfl | rfl
  · exact List.ne_nil_of_length_pos (by simp)
  · exact List.cons_ne_nil _ _

def soleBackend : BackendArg := ⟨ascii "b", ascii "p", by decide⟩

/-- The only vector of seed 11 is an exchange whose secret is all zero. -/
theorem flipBuild_flags_zeroSecret :
    (runnerMain zeroSSL (fun _ => false)
      (fun _ => (FlipBuild.cli .nettle).main zeroLibrary true) [] 1 11
      [soleBackend.text]).Flags 0 := by
  have hagree : (runnerMain zeroSSL (fun _ => false)
      (fun _ => (FlipBuild.cli .nettle).main zeroLibrary false) [] 1 11
      [soleBackend.text]).status = some 0 := by decide +kernel
  have hflags := flipBuild_flags zeroSSL (fun _ => false) [] 1 11 soleBackend
    (.cli .nettle) zeroLibrary hagree 0
  refine hflags.2 _ (List.replicate cmfX25519Len 0) (List.getElem?_eq_getElem ?_) ?_ ?_
    (Or.inl rfl)
  · decide +kernel
  · decide +kernel
  · decide +kernel

/-! ## Spoiled first replies -/

/-- The backends whose fault build spoils the first reply. -/
inductive SpoilBuild where
  | go
  | rust (utf8 : Charset)

namespace SpoilBuild

def main (b : SpoilBuild) (lib : Library) (fault : Bool) (stdin : Bytes) : Bytes :=
  match b with
  | .go => GoBridge.main fault (GoBridge.dispatch lib) stdin
  | .rust utf8 => RustBridge.main utf8 fault (RustBridge.dispatch lib) stdin

def reply (b : SpoilBuild) (lib : Library) (e : Emitted) : Computed :=
  match b with
  | .go => GoBridge.dispatch lib e.op e.blob
  | .rust _ => RustBridge.dispatch lib e.op e.blob

end SpoilBuild

namespace SpoilBuild

theorem main_requestFile (b : SpoilBuild) (lib : Library) (fault : Bool)
    {vectors : List Emitted} (hop : ∀ e ∈ vectors, e.op < cmfNumOps) :
    b.main lib fault (requestFile vectors) =
      unlines 10 ((vectors.mapIdx fun k e =>
        Computed.spoil (fault && decide (k = 0)) (b.reply lib e)).map Computed.text) := by
  have hrender : ∀ dispatch : ℤ → Bytes → Computed,
      (vectors.mapIdx fun k e =>
        spoilFirst fault (decide (k = 0)) (dispatch e.op e.blob)) =
      (vectors.mapIdx fun k e =>
        Computed.spoil (fault && decide (k = 0)) (dispatch e.op e.blob)).map
          Computed.text := by
    intro dispatch
    apply List.ext_getElem
    · simp
    · intro k _ _
      simp [spoilFirst_eq]
  cases b with
  | go => exact (goMain_requestFile hop fault _).trans (congrArg _ (hrender _))
  | rust utf8 => exact (rustMain_requestFile hop utf8 fault _).trans (congrArg _ (hrender _))

theorem attempt_ne_notImplemented {room : ℕ} (call : Buffer.Filled room) :
    attempt call ≠ .notImplemented := by
  unfold attempt
  split <;> simp

theorem go_notImplemented_iff (lib : Library) (v : GoBridge.Vec) {op : ℕ}
    (hop : v.op = op) (haead : ¬ (op = 3 ∨ op = 4)) :
    GoBridge.compute lib v = .notImplemented ↔ 15 ≤ op := by
  have hjudge : GoBridge.ecdsaVerify lib v.msg ≠ .notImplemented ∧
      GoBridge.rsaPSSVerify lib v.msg ≠ .notImplemented := by
    constructor
    · unfold GoBridge.ecdsaVerify
      split <;> simp
    · unfold GoBridge.rsaPSSVerify
      split <;> simp
  unfold GoBridge.compute
  split
  case h_8 => exact iff_of_false (attempt_ne_notImplemented _) (by omega)
  case h_10 => exact iff_of_false (by split <;> simp) (by omega)
  case h_11 =>
    refine iff_of_false ?_ (by omega)
    split
    · simp
    · exact attempt_ne_notImplemented _
  case h_12 => exact iff_of_false hjudge.1 (by omega)
  case h_13 => exact iff_of_false hjudge.2 (by omega)
  case h_14 =>
    refine iff_of_true rfl ?_
    simp only [imp_false] at *
    omega
  all_goals exact iff_of_false (by simp) (by omega)

theorem rust_notImplemented_iff (lib : Library) (blob : Bytes) {op : ℕ}
    (haead : ¬ (op = 3 ∨ op = 4)) :
    RustBridge.dispatch lib op blob = .notImplemented ↔ 15 ≤ op := by
  have hjudge : ∀ payload, RustBridge.ecdsaP256Verify lib payload ≠ .notImplemented ∧
      RustBridge.rsaPssVerify lib payload ≠ .notImplemented := by
    intro payload
    constructor
    · unfold RustBridge.ecdsaP256Verify
      split <;> simp
    · unfold RustBridge.rsaPssVerify
      split <;> simp
  unfold RustBridge.dispatch
  rw [if_neg (by exact_mod_cast haead)]
  dsimp only
  split
  case h_8 => exact iff_of_false (attempt_ne_notImplemented _) (by omega)
  case h_10 =>
    refine iff_of_false ?_ (by omega)
    unfold RustBridge.ed25519Sign
    split <;> simp
  case h_11 =>
    refine iff_of_false ?_ (by omega)
    unfold RustBridge.x25519Op
    split <;> simp
  case h_12 => exact iff_of_false (hjudge _).1 (by omega)
  case h_13 => exact iff_of_false (hjudge _).2 (by omega)
  case h_14 =>
    refine iff_of_true rfl ?_
    simp only [imp_false] at *
    omega
  all_goals exact iff_of_false (by simp) (by omega)

theorem reply_notImplemented_iff (b : SpoilBuild) (lib : Library) (e : Emitted) :
    b.reply lib e = .notImplemented ↔ 15 ≤ e.op := by
  by_cases haead : e.op = 3 ∨ e.op = 4
  · have haead' : (e.op : ℤ) = 3 ∨ (e.op : ℤ) = 4 := by exact_mod_cast haead
    refine iff_of_false ?_ (by omega)
    cases b with
    | go =>
        show GoBridge.dispatch lib e.op e.blob ≠ .notImplemented
        rw [GoBridge.dispatch, if_pos haead']
        split
        · simp
        · exact attempt_ne_notImplemented _
    | rust utf8 =>
        show RustBridge.dispatch lib e.op e.blob ≠ .notImplemented
        rw [RustBridge.dispatch, if_pos haead']
        split
        · simp
        · exact attempt_ne_notImplemented _
  · cases b with
    | go =>
        show GoBridge.dispatch lib e.op e.blob = .notImplemented ↔ 15 ≤ e.op
        rw [GoBridge.dispatch, if_neg (by exact_mod_cast haead)]
        refine go_notImplemented_iff lib _ ?_ haead
        unfold GoBridge.parseVec
        dsimp only
        split <;> rfl
    | rust utf8 => exact rust_notImplemented_iff lib e.blob haead

end SpoilBuild

theorem EvpMd.le_size (md : EvpMd) : 16 ≤ md.size := by
  cases md <;> decide

/-- The bridges implement no op whose result could be a single byte. -/
theorem refCompute_length_ge {ssl : OpenSSL κ} {v : CmfVec} (hop : v.op ≤ 12) {o : Bytes}
    (ho : refCompute ssl v = some o) : 16 ≤ o.length := by
  have hfixed : ∀ {n}, o.length = n → 16 ≤ n → 16 ≤ o.length := by
    omega
  have haead : ∀ ci k n a, ssl.aead ci k n a v.msg = some o → 16 ≤ o.length :=
    fun ci k n a h => hfixed (ssl.aead_length ci k n a v.msg o h) (Nat.le_add_left _ _)
  unfold refCompute at ho
  split at ho
  case h_3 => exact hfixed (ssl.hmac_length _ _ _ _ ho) (EvpMd.le_size _)
  case h_4 => exact haead _ _ _ _ ho
  case h_5 => exact haead _ _ _ _ ho
  case h_8 => exact hfixed (ssl.xof_length _ _ _ _ ho) (by decide)
  case h_9 => exact hfixed (ssl.xof_length _ _ _ _ ho) (by decide)
  case h_10 => exact hfixed (ssl.hkdf_length _ _ _ _ _ ho) (by decide)
  case h_11 => exact hfixed (ssl.pbkdf2_length _ _ _ _ _ ho) (by decide)
  case h_12 => exact hfixed (ssl.ed25519Sign_length _ _ _ ho) (by decide)
  case h_13 => exact hfixed (ssl.x25519_length _ _ _ ho) (by decide)
  case h_26 => cases ho
  all_goals first
    | exact hfixed (ssl.digest_length _ _ _ ho) (EvpMd.le_size _)
    | omega

theorem not_matches_spoil_iff {ssl : OpenSSL κ} {e : Emitted} (he : e.Faithful ssl)
    {r : Computed} (hr : r = .notImplemented ↔ 15 ≤ e.op) :
    ¬ MatchesReply (r.spoil true) e ↔
      e.op ≤ 14 ∧ (e.op = 13 ∨ e.op = 14 → e.reference = .verdict true) := by
  by_cases hna : r = .notImplemented
  · have hlarge := hr.mp hna
    subst hna
    exact iff_of_false (not_not_intro (Or.inl rfl)) fun h => by omega
  · have hsmall : e.op ≤ 14 := by
      have hle := mt hr.mpr hna
      omega
    have hspoil : r.spoil true = .output [0xFF] := if_pos ⟨rfl, hna⟩
    have hvop : e.vec.op = e.op := cmfVecFields_op _ _
    rw [hspoil]
    simp only [MatchesReply, reduceCtorEq, false_or, hsmall, true_and]
    have href := he.reference_of
    generalize e.reference = reference at href ⊢
    have hjudged : ∀ accepted, reference = .verdict accepted → (e.op = 13 ∨ e.op = 14) →
        (¬ (Computed.output [0xFF] = .output [0x01] ↔ accepted = true) ↔
          (e.op = 13 ∨ e.op = 14 → reference = .verdict true)) := by
      intro accepted haccepted hop
      subst haccepted
      simp [hop]
    cases href with
    | computed hcompute hmsg =>
        have hop : ¬ (e.op = 13 ∨ e.op = 14) := by omega
        have hne : ∀ out, refCompute ssl e.vec = some out → out ≠ [0xFF] := by
          rintro out hout rfl
          exact absurd (refCompute_length_ge (by omega) hout) (by decide)
        refine iff_of_true ?_ fun h => absurd h hop
        have hplain : foldSecret (Computed.output [0xFF]).result = some [0xFF] := by decide
        dsimp only
        split
        · intro hfold
          rw [hplain] at hfold
          unfold foldSecret at hfold
          split at hfold
          · cases hfold
          · exact hne _ hfold.symm rfl
        · exact fun h => hne _ h.symm rfl
    | signed scheme hscheme => exact hjudged _ rfl (by omega)
    | unsigned hop => exact hjudged _ rfl (by omega)

/-- The spoiled first reply is caught exactly when the first vector is of an op
the bridge implements, and no reject of a verify op. -/
theorem spoilBuild_caught (ssl : OpenSSL κ) (rhsFirst : ℕ → Bool) (program : CString)
    (n : ℕ) (seed : UInt64) (arg : BackendArg) (b : SpoilBuild) (lib : Library)
    (hagree : (runnerMain ssl rhsFirst (fun _ => b.main lib false) program n seed
      [arg.text]).status = some 0) :
    let vectors := genVectors ssl rhsFirst seed n
    let run := runnerMain ssl rhsFirst (fun _ => b.main lib true) program n seed [arg.text]
    ((∃ i, run.Flags i) ∧ run.status = some 1) ↔
      ∃ e, vectors[0]? = some e ∧ e.op ≤ 14 ∧
        (e.op = 13 ∨ e.op = 14 → e.reference = .verdict true) := by
  intro vectors run
  have hfaithful := (genVectors_faithful ssl rhsFirst seed n).2
  have hop : ∀ e ∈ vectors, e.op < cmfNumOps := fun e he => (hfaithful e he).op_lt
  have hmain := fun fault => b.main_requestFile lib fault hop
  have hreplies : ∀ fault (i : ℕ), (vectors.mapIdx fun k e =>
      (b.reply lib e).spoil (fault && decide (k = 0)))[i]? =
      vectors[i]?.map fun e => (b.reply lib e).spoil (fault && decide (i = 0)) :=
    fun fault i => List.getElem?_mapIdx
  rw [runnerMain_replies ssl rhsFirst _ program n seed arg (hmain false),
    replyCampaign_status_of hfaithful (hreplies false)] at hagree
  have hrun : run = outcome (replyCampaign vectors (vectors.mapIdx fun k e =>
      (b.reply lib e).spoil (true && decide (k = 0))) arg.name) :=
    runnerMain_replies ssl rhsFirst _ program n seed arg (hmain true)
  have hflags : ∀ i : ℕ, run.Flags i ↔ ∃ e, vectors[i]? = some e ∧
      ¬ MatchesReply ((b.reply lib e).spoil (decide (i = 0))) e := by
    intro i
    rw [hrun]
    exact replyCampaign_flags_of hfaithful (hreplies true) arg.name i
  have honly : ∀ i, run.Flags i → i = 0 := by
    intro i hi
    by_contra hne
    obtain ⟨e, he, hcharged⟩ := (hflags i).mp hi
    rw [decide_eq_false hne] at hcharged
    exact hcharged (hagree i e he)
  have hfirst : run.Flags 0 ↔ ∃ e, vectors[0]? = some e ∧ e.op ≤ 14 ∧
      (e.op = 13 ∨ e.op = 14 → e.reference = .verdict true) := by
    rw [hflags 0]
    refine exists_congr fun e => and_congr_right fun he => ?_
    exact not_matches_spoil_iff (hfaithful e (List.mem_of_getElem? he))
      (b.reply_notImplemented_iff lib e)
  rw [← hfirst]
  constructor
  · rintro ⟨⟨i, hi⟩, _⟩
    rwa [honly i hi] at hi
  · intro hi
    refine ⟨⟨0, hi⟩, ?_⟩
    rw [hrun] at honly hi ⊢
    exact status_of_flags honly hi

/-- The first vector of seed 335 is a digest. -/
theorem spoilBuild_caught_digest :
    (runnerMain zeroSSL (fun _ => false) (fun _ => SpoilBuild.go.main zeroLibrary true)
      [] 1 335 [soleBackend.text]).status = some 1 := by
  have hagree : (runnerMain zeroSSL (fun _ => false)
      (fun _ => SpoilBuild.go.main zeroLibrary false) [] 1 335
      [soleBackend.text]).status = some 0 := by decide +kernel
  have hcaught := spoilBuild_caught zeroSSL (fun _ => false) [] 1 335 soleBackend .go
    zeroLibrary hagree
  refine (hcaught.mpr ⟨_, List.getElem?_eq_getElem ?_, ?_, ?_⟩).2
  · decide +kernel
  · decide +kernel
  · decide +kernel

/-- The first op of seed 238 is 22, which both bridges abstain from, and the
second one is 10: the fault is spent on the first reply and never seen. -/
theorem spoilBuild_missed :
    let vectors := genVectors zeroSSL (fun _ => false) 238 2
    let run := fun b fault => runnerMain zeroSSL (fun _ => false)
      (fun _ => SpoilBuild.main b zeroLibrary fault) [] 2 238 [soleBackend.text]
    let answers := fun b =>
      (lines 10 (SpoilBuild.main b zeroLibrary false (requestFile vectors))).filter
        fun line => line ≠ ascii "NA" ++ [10] ∧ line ≠ ascii "ERR" ++ [10]
    ((run .go false).status = some 0 ∧ answers .go ≠ [] ∧ (run .go true).status = some 0) ∧
      (run (.rust .usAscii) false).status = some 0 ∧ answers (.rust .usAscii) ≠ [] ∧
        (run (.rust .usAscii) true).status = some 0 := by
  decide +kernel

end Runner
end CMFuzz
