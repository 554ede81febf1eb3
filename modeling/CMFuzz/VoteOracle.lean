import CMFuzz.MajorityPoll
import CMFuzz.ReplyCollection

/-!
# The majority-vote oracle of the runner

After all replies are collected, every vector is put to a vote of the OpenSSL
reference and the backends that answered it.  The voters stand in arrays of
16 entries.  Verify ops compare accept bits with the reference; two voters
are compared with each other; of three or more, the first value with the most
votes is the truth if more than half of the voters hold it.  The summary
reports each backend, and the exit status tells whether anything diverged.
-/

namespace CMFuzz
namespace Runner

open ByteCodec
open LineStream
open Wire

/-! ## Campaigns -/

/-- One vector as the oracle sees it: `ops[i]`, and the reference result
before folding. -/
structure Row where
  op : ℕ
  reference : CString
  deriving DecidableEq, Repr, Inhabited

structure Backend where
  name : CString
  stdout : Bytes
  deriving DecidableEq, Repr

structure Campaign (nb : ℕ) where
  rows : List Row
  backend : Fin nb → Backend

namespace Campaign

variable {nb : ℕ} (c : Campaign nb)

def N : ℕ := c.rows.length

def op (i : ℕ) : ℕ := (c.rows.getD i default).op

def refhex (i : ℕ) : CString := foldOp (c.op i) (c.rows.getD i default).reference

def bname (b : Fin nb) : CString := (c.backend b).name

def column (b : Fin nb) : Column :=
  collectReplies (c.rows.map Row.op) (c.backend b).stdout

def bprod (b : Fin nb) : ℕ := (c.column b).bprod

def bna (b : Fin nb) : ℕ := (c.column b).bna

end Campaign

/-! ## Messages -/

inductive Message where
  | verifyMismatch (name : CString) (i op : ℕ) (reference value : CString)
  | pairMismatch (name : CString) (i op : ℕ) (reference value : CString)
  | noConsensus (nv i op : ℕ) (ballots : List (CString × CString))
  | minority (name : CString) (i op : ℕ) (majority value : CString)
  | answered (name : CString) (bprod N bna bdiv : ℕ)
  | producedOnly (name : CString) (bprod N : ℕ)
  | repliedNaToAll (name : CString) (N : ℕ)
  | outvoted (refOutlier : ℕ)
  | diverged (failures : ℕ)
  | allAgree
  | usage (program : CString)
  | badSpec (spec : CString)
  deriving DecidableEq, Repr

def violation (oracle : String) (detail : CString) (i op : ℕ) : CString :=
  ascii "CMF_VIOLATION alg=DIFF-subproc oracle=" ++ ascii oracle ++ ascii " detail=\"" ++
    detail ++ ascii " at vec #" ++ decimal i ++ ascii " op=" ++ decimal op ++ ascii "\"\n"

def versus (left leftValue right rightValue : CString) : CString :=
  ascii "  " ++ left ++ ascii "=" ++ leftValue ++ ascii "  " ++ right ++ ascii "=" ++
    rightValue ++ ascii "\n"

def short (s : CString) : CString := s.take 48

def Message.text : Message → CString
  | verifyMismatch name i op reference value =>
      violation "VERIFY_mismatch"
          (ascii "openssl(authority) vs " ++ name ++ ascii " disagree") i op ++
        versus (ascii "openssl") reference name value
  | pairMismatch name i op reference value =>
      violation "DIFF_mismatch" (ascii "openssl vs " ++ name ++ ascii " disagree") i op ++
        versus (ascii "openssl") (short reference) name (short value)
  | noConsensus nv i op ballots =>
      violation "DIFF_noconsensus"
          (ascii "no majority among " ++ decimal nv ++ ascii " voters") i op ++
        ballots.flatMap fun ballot =>
          ascii "  " ++ ballot.1 ++ ascii "=" ++ short ballot.2 ++ ascii "\n"
  | minority name i op majority value =>
      violation "DIFF_mismatch" (name ++ ascii " is minority vs majority") i op ++
        versus (ascii "majority") (short majority) name (short value)
  | answered name bprod N bna bdiv =>
      ascii "[diff-subproc] " ++ name ++ ascii ": answered " ++ decimal bprod ++
        ascii "/" ++ decimal N ++ ascii ", NA " ++ decimal bna ++ ascii ", diverged " ++
        decimal bdiv ++ ascii "\n"
  | producedOnly name bprod N =>
      ascii "[diff-subproc] WARNING: " ++ name ++ ascii " produced only " ++
        decimal bprod ++ ascii "/" ++ decimal N ++ ascii " outputs\n"
  | repliedNaToAll name N =>
      ascii "[diff-subproc] WARNING: " ++ name ++ ascii " replied NA to all " ++
        decimal N ++ ascii " vectors (no differential coverage)\n"
  | outvoted refOutlier =>
      ascii "[diff-subproc] NOTE: openssl was outvoted on " ++ decimal refOutlier ++
        ascii " vector(s) -- the reference may be the buggy implementation\n"
  | diverged failures =>
      ascii "[diff-subproc] " ++ decimal failures ++ ascii " backend(s) diverged\n"
  | allAgree => ascii "[diff-subproc] all backends agree\n"
  | usage program =>
      ascii "usage: " ++ program ++ ascii " <n> <seed> <name=path> [<name=path>...]\n"
  | badSpec spec => ascii "bad backend spec: " ++ spec ++ ascii "\n"

/-! ## Voters -/

variable {nb : ℕ}

/-- One entry of `vv`, `vn` and `vb`; the reference has no backend. -/
structure Voter (nb : ℕ) where
  value : CString
  name : CString
  backend : Option (Fin nb)
  deriving DecidableEq, Repr

abbrev voterCap : ℕ := 16

def Campaign.Answers (c : Campaign nb) (i : ℕ) (b : Fin nb) : Prop :=
  i < c.bprod b ∧ (c.column b).reply i ≠ ascii "NA"

instance (c : Campaign nb) (i : ℕ) : DecidablePred (c.Answers i) := fun _ =>
  inferInstanceAs (Decidable (_ ∧ _))

def Campaign.refVoter (c : Campaign nb) (i : ℕ) : Voter nb :=
  ⟨c.refhex i, ascii "openssl", none⟩

def Campaign.backendVoter (c : Campaign nb) (i : ℕ) (b : Fin nb) : Voter nb :=
  ⟨(c.column b).reply i, c.bname b, some b⟩

/-- The loop over the backends; it also ends when the arrays are full. -/
def Campaign.collectVoters (c : Campaign nb) (i : ℕ) :
    List (Fin nb) → List (Voter nb) → List (Voter nb)
  | [], voters => voters
  | b :: rest, voters =>
      if voters.length < voterCap then
        if c.Answers i b then c.collectVoters i rest (voters ++ [c.backendVoter i b])
        else c.collectVoters i rest voters
      else voters

def Campaign.voters (c : Campaign nb) (i : ℕ) : List (Voter nb) :=
  c.collectVoters i (List.finRange nb) [c.refVoter i]

/-! ## One vector -/

structure Counters (nb : ℕ) where
  failures : ℕ
  refOutlier : ℕ
  bdiv : Fin nb → ℕ
  log : List Message

def Counters.initial (nb : ℕ) : Counters nb := ⟨0, 0, fun _ => 0, []⟩

def Counters.charge (s : Counters nb) (who : Option (Fin nb)) (m : Message) :
    Counters nb :=
  match who with
  | some b => { s with
      failures := s.failures + 1
      bdiv := Function.update s.bdiv b (s.bdiv b + 1)
      log := s.log ++ [m] }
  | none => { s with
      failures := s.failures + 1
      refOutlier := s.refOutlier + 1
      log := s.log ++ [m] }

def Counters.chargeAll (s : Counters nb) (guilty : Voter nb → Bool)
    (report : Voter nb → Message) (voters : List (Voter nb)) : Counters nb :=
  voters.foldl (fun s v => if guilty v then s.charge v.backend (report v) else s) s

def accepts (value : CString) : Bool := value = ascii "01"

variable (c : Campaign nb) (i : ℕ)

def verifyRound (s : Counters nb) (ref : Voter nb) (others : List (Voter nb)) :
    Counters nb :=
  s.chargeAll (fun v => accepts v.value ≠ accepts ref.value)
    (fun v => .verifyMismatch v.name i (c.op i) ref.value v.value) others

def pairRound (s : Counters nb) (ref other : Voter nb) : Counters nb :=
  if other.value ≠ ref.value then
    s.charge other.backend (.pairMismatch other.name i (c.op i) ref.value other.value)
  else s

/-- Three or more voters: a strict majority charges the minority. -/
def voteRound (s : Counters nb) (voters : List (Voter nb)) (start : CString) :
    Counters nb :=
  let (bestcount, maj) := Poll.plurality (voters.map Voter.value) start
  if bestcount = voters.length then s
  else if bestcount * 2 ≤ voters.length then
    { s with
      failures := s.failures + 1
      log := s.log ++ [.noConsensus voters.length i (c.op i)
        (voters.map fun v => (v.name, v.value))] }
  else
    s.chargeAll (fun v => v.value ≠ maj)
      (fun v => .minority v.name i (c.op i) maj v.value) voters

def step (s : Counters nb) : Counters nb :=
  match c.voters i with
  | [] => s
  | [_] => s
  | ref :: other :: more =>
      if c.op i = 13 ∨ c.op i = 14 then verifyRound c i s ref (other :: more)
      else if more = [] then pairRound c i s ref other
      else voteRound c i s (ref :: other :: more) ref.value

def stateAt : ℕ → Counters nb
  | 0 => Counters.initial nb
  | i + 1 => step c i (stateAt i)

def final : Counters nb := stateAt c c.N

/-! ## Summary and exit status -/

def summaryOf (b : Fin nb) : List Message :=
  [Message.answered (c.bname b) (c.bprod b) c.N (c.bna b) ((final c).bdiv b)] ++
    (if c.bprod b < c.N then [.producedOnly (c.bname b) (c.bprod b) c.N] else []) ++
    (if c.bna b = c.N then [.repliedNaToAll (c.bname b) c.N] else [])

def summary : List Message :=
  (List.finRange nb).flatMap (summaryOf c) ++
    if (final c).refOutlier ≠ 0 then [.outvoted (final c).refOutlier] else []

abbrev intMax : ℕ := 2 ^ 31 - 1

/-- What can be seen of a run; `none` where `int failures` overflows and C
defines no behaviour. -/
structure Outcome where
  status : Option ℕ
  log : List Message
  deriving DecidableEq, Repr

def Outcome.stderr (o : Outcome) : Bytes := o.log.flatMap Message.text

def outcome : Outcome :=
  let failures := (final c).failures
  let log := (final c).log ++ summary c
  if intMax < failures then ⟨none, log⟩
  else if failures ≠ 0 then ⟨some 1, log ++ [.diverged failures]⟩
  else ⟨some 0, log ++ [.allAgree]⟩

theorem outcome_status_eq_zero_iff :
    (outcome c).status = some 0 ↔ (final c).failures = 0 := by
  unfold outcome
  dsimp only
  split
  · next hover => exact iff_of_false (by simp) (by omega)
  · split
    · next hne => exact iff_of_false (by simp) hne
    · next hzero => exact iff_of_true rfl (by simpa using hzero)

theorem outcome_status_of_le (hfit : (final c).failures ≤ intMax) :
    (outcome c).status = some (if (final c).failures = 0 then 0 else 1) := by
  unfold outcome
  rw [if_neg (by omega)]
  by_cases hzero : (final c).failures = 0 <;> simp [hzero]

end Runner
end CMFuzz
