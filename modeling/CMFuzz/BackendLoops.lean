import CMFuzz.BridgeParsers

/-!
# Main loops of the backends

Every backend turns its standard input into reply lines.  The computation
behind a request is a parameter.  The C programs answer each line they read;
the bridges skip the lines on which their readers find nothing, and answer
the others in order.  How much of the input a loop reads as a line depends on
its runtime: universal newlines for Java, line feeds for the others.
-/

namespace CMFuzz

open ByteCodec
open LineStream
open RuntimeText
open Wire

/-! ## Replies -/

inductive Computed where
  | output (out : Bytes)
  | failure
  | notImplemented
  deriving DecidableEq, Repr

def Computed.text : Computed → Bytes
  | .output out => hexEncode out
  | .failure => ascii "ERR"
  | .notImplemented => ascii "NA"

/-- A fault build inverts the first byte of every output. -/
def Computed.inject (fault : Bool) : Computed → Computed
  | .output out => .output (if fault then out.modify 0 (· ^^^ 0xFF) else out)
  | r => r

/-- A fault build of the Go and Rust bridges spoils the first reply instead. -/
def spoilFirst (fault first : Bool) (r : Computed) : Bytes :=
  if fault && first && r.text ≠ ascii "NA" then ascii "ff" else r.text

@[simp] theorem Computed.inject_false (r : Computed) : r.inject false = r := by
  cases r <;> rfl

theorem Computed.mem_text_printable (r : Computed) {c : UInt8} (hc : c ∈ r.text) :
    c ≠ 0 ∧ c ≠ 10 ∧ c ≠ 13 := by
  cases r with
  | output out =>
      obtain ⟨n, hn, rfl⟩ := mem_hexEncode hc
      have hdigit : ∀ n < 16, hexDigit n ≠ 0 ∧ hexDigit n ≠ 10 ∧ hexDigit n ≠ 13 := by
        decide
      exact hdigit n hn
  | failure =>
      have hall : (ascii "ERR").all (fun c => c ≠ 0 ∧ c ≠ 10 ∧ c ≠ 13) = true := by decide
      simpa using List.all_eq_true.mp hall c hc
  | notImplemented =>
      have hall : (ascii "NA").all (fun c => c ≠ 0 ∧ c ≠ 10 ∧ c ≠ 13) = true := by decide
      simpa using List.all_eq_true.mp hall c hc

theorem Computed.newline_not_mem_text (r : Computed) : (10 : UInt8) ∉ r.text :=
  fun hmem => (r.mem_text_printable hmem).2.1 rfl

theorem newline_not_mem_spoilFirst (fault first : Bool) (r : Computed) :
    (10 : UInt8) ∉ spoilFirst fault first r := by
  unfold spoilFirst
  split
  · decide
  · exact r.newline_not_mem_text

def Request.answer (compute : ℤ → Bytes → Computed) : Request → Option Computed
  | .skip => none
  | .malformed => some .failure
  | .parsed op blob => some (compute op blob)

theorem Request.ite_ne_skip_iff {p : Prop} [Decidable p] {r : Request} (hr : r ≠ .skip) :
    (if p then Request.skip else r) ≠ .skip ↔ ¬ p := by
  by_cases hp : p
  · simp [hp]
  · simp [hp, hr]

theorem Request.isSome_answer (compute : ℤ → Bytes → Computed) (r : Request) :
    (r.answer compute).isSome = true ↔ r ≠ .skip := by
  cases r <;> simp [Request.answer]

/-- The output of a loop; `first` holds until the first reply. -/
def replyLoop (render : Bool → Computed → Bytes) :
    Bool → List (Option Computed) → Bytes
  | _, [] => []
  | first, none :: rest => replyLoop render first rest
  | first, some r :: rest => render first r ++ 10 :: replyLoop render false rest

/-! ## Sentinels -/

theorem hexEncode_ne_sentinel (data : Bytes) :
    hexEncode data ≠ ascii "NA" ∧ hexEncode data ≠ ascii "ERR" := by
  have hdigit : ∀ n < 16, hexDigit n ≠ 78 ∧ hexDigit n ≠ 69 := by decide
  constructor
  · intro heq
    have hmem : (78 : UInt8) ∈ hexEncode data := by rw [heq]; decide
    obtain ⟨n, hn, hc⟩ := mem_hexEncode hmem
    exact (hdigit n hn).1 hc.symm
  · intro heq
    have hmem : (69 : UInt8) ∈ hexEncode data := by rw [heq]; decide
    obtain ⟨n, hn, hc⟩ := mem_hexEncode hmem
    exact (hdigit n hn).2 hc.symm

theorem Computed.text_eq_na_iff (r : Computed) :
    r.text = ascii "NA" ↔ r = .notImplemented := by
  cases r with
  | output out => simpa [Computed.text] using (hexEncode_ne_sentinel out).1
  | failure => decide
  | notImplemented => simp [Computed.text]

/-- `"ff"` is the text of an output of one byte. -/
def Computed.spoil (fault : Bool) (r : Computed) : Computed :=
  if fault ∧ r ≠ .notImplemented then .output [0xFF] else r

theorem spoilFirst_eq (fault first : Bool) (r : Computed) :
    spoilFirst fault first r = (Computed.spoil (fault && first) r).text := by
  unfold spoilFirst Computed.spoil
  by_cases hna : r = .notImplemented
  · subst hna
    simp [Computed.text]
  · have htext : r.text ≠ ascii "NA" := fun h => hna (r.text_eq_na_iff.mp h)
    cases fault && first
    · simp
    · simp only [htext, hna, ne_eq, not_false_eq_true, decide_true, Bool.and_true, if_true,
        and_self]
      decide

def Computed.result : Computed → Option Bytes
  | .output out => some out
  | .failure => none
  | .notImplemented => none

def resultText : Option Bytes → CString
  | none => ascii "ERR"
  | some out => hexEncode out

theorem resultText_injective : Function.Injective resultText := by
  intro x y heq
  cases x with
  | none =>
      cases y with
      | none => rfl
      | some out => exact absurd heq.symm (hexEncode_ne_sentinel out).2
  | some out =>
      cases y with
      | none => exact absurd heq (hexEncode_ne_sentinel out).2
      | some out' => exact congrArg some (hexEncode_injective heq)

theorem Computed.text_eq_resultText {r : Computed} (hr : r ≠ .notImplemented) :
    r.text = resultText r.result := by
  cases r with
  | output out => rfl
  | failure => rfl
  | notImplemented => exact absurd rfl hr

/-! ## The loops -/

def cliReply (fault : Bool) (f : CmfVec → Computed) (line : Bytes) : Bytes :=
  match cmfVecParse line with
  | none => ascii "ERR"
  | some v => ((f v).inject fault).text

def cliMain (fault : Bool) (f : CmfVec → Computed) (stdin : Bytes) : Bytes :=
  unlines 10 ((lines 10 stdin).map (cliReply fault f))

def GoBridge.main (fault : Bool) (dispatch : ℤ → Bytes → Computed) (stdin : Bytes) :
    Bytes :=
  replyLoop (spoilFirst fault) true
    ((lines 10 stdin).map fun line => (GoBridge.readRequest line).answer dispatch)

/-- The lines Rust reads: `read_line` fails on the first one that is no UTF-8,
and the failure counts as the end of the input. -/
def decodedLines (utf8 : Charset) : List Bytes → List Text
  | [] => []
  | line :: rest =>
      match utf8.decode line with
      | none => []
      | some text => text :: decodedLines utf8 rest

def RustBridge.main (utf8 : Charset) (fault : Bool) (dispatch : ℤ → Bytes → Computed)
    (stdin : Bytes) : Bytes :=
  replyLoop (spoilFirst fault) true
    ((decodedLines utf8 (lines 10 stdin)).map fun line =>
      (RustBridge.readRequest line).answer dispatch)

section

variable (charset : Charset) (unicodeDigit : ℕ → ℕ → Option ℕ) (fault : Bool)

def JavaBridge.main (compute : ℤ → Bytes → Computed) (stdin : Bytes) : Bytes :=
  replyLoop (fun _ r => (r.inject fault).text) true
    ((universalLines (charset.replace stdin)).map fun line =>
      (JavaBridge.readRequest unicodeDigit line).answer compute)

/-- Outside Windows `sys.stdin` is cut at line feeds only.  `none` stands for the
`UnicodeDecodeError` that ends the program. -/
def PyBridge.main (compute : ℤ → Bytes → Computed) (stdin : Bytes) : Option Bytes :=
  (charset.decode stdin).map fun text =>
    replyLoop (fun _ r => (r.inject fault).text) true
      ((lines 10 text).map fun line =>
        (PyBridge.readRequest unicodeDigit line).answer compute)

end

/-! ## One reply for each answered line -/

theorem replyLoop_eq (render : Bool → Computed → Bytes) (first : Bool)
    (answers : List (Option Computed)) :
    replyLoop render first answers =
      unlines 10 ((answers.filterMap id).mapIdx fun k r =>
        render (first && decide (k = 0)) r) := by
  induction answers generalizing first with
  | nil => rfl
  | cons answer answers ih =>
      cases answer with
      | none => simpa [replyLoop] using ih first
      | some r => simp [replyLoop, ih false, List.mapIdx_cons]

theorem filterMap_eq_map_filter {ρ β : Type*} (read : ρ → Option β) (default : β)
    (requests : List ρ) :
    requests.filterMap read =
      (requests.filter fun r => (read r).isSome).map fun r => (read r).getD default := by
  induction requests with
  | nil => rfl
  | cons r requests ih =>
      cases hread : read r with
      | none => simp [hread, ih]
      | some b => simp [hread, ih]

theorem mapIdx_const {ρ β : Type*} (f : ρ → β) (requests : List ρ) :
    requests.mapIdx (fun _ r => f r) = requests.map f := by
  apply List.ext_getElem <;> simp

theorem mapIdx_map {ρ σ β : Type*} (f : ρ → σ) (g : ℕ → σ → β) (requests : List ρ) :
    (requests.map f).mapIdx g = requests.mapIdx fun k r => g k (f r) := by
  apply List.ext_getElem <;> simp

theorem serves_of_replyLoop {render : Bool → Computed → Bytes}
    (hrender : ∀ first r, (10 : UInt8) ∉ render first r)
    (read : Bytes → Option Computed) {accepts : Bytes → Prop} {answers : Bytes → Bool}
    (hanswers : ∀ line, accepts line → ((read line).isSome = true ↔ answers line = true))
    {server : Bytes → Option Bytes}
    (hserver : ∀ stream, (∀ line ∈ lines 10 stream, accepts line) →
      ∃ replies : List (Option Computed),
        server stream = some (replyLoop render true replies) ∧
        replies.filterMap id = (lines 10 stream).filterMap read) :
    Serves 10 accepts answers server := by
  refine ⟨fun k line => render (decide (k = 0)) ((read line).getD .failure),
    fun k line => hrender _ _, fun stream hstream => ?_⟩
  obtain ⟨replies, hrun, hreplies⟩ := hserver stream hstream
  have hfilter : (lines 10 stream).filter (fun line => (read line).isSome) =
      (lines 10 stream).filter answers := by
    apply List.filter_congr
    intro line hline
    exact Bool.eq_iff_iff.mpr (hanswers line (hstream line hline))
  rw [hrun, replyLoop_eq, hreplies, filterMap_eq_map_filter read .failure, hfilter]
  simp only [Bool.true_and, mapIdx_map]

theorem cliMain_lockstep (fault : Bool) (f : CmfVec → Computed) :
    Lockstep 10 fun stdin => some (cliMain fault f stdin) := by
  refine ⟨fun _ => cliReply fault f, fun _ line => ?_, fun stream _ => ?_⟩
  · show (10 : UInt8) ∉ cliReply fault f line
    unfold cliReply
    split
    · decide
    · exact Computed.newline_not_mem_text _
  · rw [List.filter_eq_self.mpr fun _ _ => rfl, mapIdx_const]
    rfl

/-! ## Go and Rust -/

def GoBridge.nonblank (line : Bytes) : Bool :=
  line.rdropWhile (fun c => c = 13 || c = 10) ≠ []

/-- A line that is not blank has a blank behind at least one character. -/
def GoBridge.WellFormed (line : Bytes) : Prop :=
  GoBridge.nonblank line = true →
    let line := line.rdropWhile fun c => c = 13 || c = 10
    0 < line.idxOf 32 ∧ line.idxOf 32 < line.length

def RustBridge.nonblank (utf8 : Charset) (line : Bytes) : Bool :=
  (utf8.decode line).any fun text => text.rdropWhile (fun c => c = 13 || c = 10) ≠ []

theorem GoBridge.readRequest_ne_skip_iff {line : Bytes}
    (hline : GoBridge.WellFormed line) :
    GoBridge.readRequest line ≠ .skip ↔ GoBridge.nonblank line = true := by
  unfold GoBridge.readRequest
  constructor
  · intro hread
    by_contra hblank
    refine hread (if_neg ?_)
    simpa [GoBridge.nonblank] using hblank
  · intro hnonblank
    have hne : line.rdropWhile (fun c => c = 13 || c = 10) ≠ [] := by
      simpa [GoBridge.nonblank] using hnonblank
    have hsp := hline hnonblank
    dsimp only at hsp ⊢
    rw [if_pos hne, if_pos hsp]
    split <;> simp

theorem GoBridge.main_serves (fault : Bool) (dispatch : ℤ → Bytes → Computed) :
    Serves 10 GoBridge.WellFormed GoBridge.nonblank fun stdin =>
      some (GoBridge.main fault dispatch stdin) := by
  refine serves_of_replyLoop (newline_not_mem_spoilFirst fault)
    (fun line => (GoBridge.readRequest line).answer dispatch) ?_ ?_
  · intro line hline
    rw [Request.isSome_answer]
    exact GoBridge.readRequest_ne_skip_iff hline
  · intro stream _
    exact ⟨_, rfl, by simp [List.filterMap_map]⟩

theorem RustBridge.readRequest_ne_skip_iff (text : Text) :
    RustBridge.readRequest text ≠ .skip ↔
      text.rdropWhile (fun c => c = 13 || c = 10) ≠ [] := by
  unfold RustBridge.readRequest
  apply Request.ite_ne_skip_iff
  split
  · split <;> simp
  · simp

theorem decodedLines_eq (utf8 : Charset) {input : List Bytes}
    (hinput : ∀ line ∈ input, (utf8.decode line).isSome = true) :
    decodedLines utf8 input = input.filterMap utf8.decode := by
  induction input with
  | nil => rfl
  | cons line input ih =>
      have hrest := ih fun l hl => hinput l (List.mem_cons_of_mem line hl)
      obtain ⟨text, htext⟩ := Option.isSome_iff_exists.mp
        (hinput line List.mem_cons_self)
      rw [decodedLines, htext, List.filterMap_cons_some htext, hrest]

theorem RustBridge.main_serves (utf8 : Charset) (fault : Bool)
    (dispatch : ℤ → Bytes → Computed) :
    Serves 10 (fun line => (utf8.decode line).isSome = true)
      (RustBridge.nonblank utf8) fun stdin =>
        some (RustBridge.main utf8 fault dispatch stdin) := by
  refine serves_of_replyLoop (newline_not_mem_spoilFirst fault)
    (fun line => (utf8.decode line).bind fun text =>
      (RustBridge.readRequest text).answer dispatch) ?_ ?_
  · intro line hline
    obtain ⟨text, htext⟩ := Option.isSome_iff_exists.mp hline
    rw [htext, Option.bind_some, Request.isSome_answer,
      RustBridge.readRequest_ne_skip_iff, RustBridge.nonblank, htext]
    simp
  · intro stream hstream
    refine ⟨_, rfl, ?_⟩
    rw [decodedLines_eq utf8 hstream, List.filterMap_map, Function.id_comp,
      List.filterMap_filterMap]

/-! ## Java -/

def dropCr (line : Bytes) : Bytes :=
  if line.getLast? = some 13 then line.dropLast else line

/-- A line without its end, which is a line feed, a carriage return or both. -/
def dropLineEnd (line : Bytes) : Bytes :=
  dropCr (if line.getLast? = some 10 then line.dropLast else line)

theorem dropLineEnd_concat (text : Bytes) : dropLineEnd (text ++ [10]) = dropCr text := by
  simp [dropLineEnd]

theorem dropLineEnd_unterminated {text : Bytes} (htext : (10 : UInt8) ∉ text) :
    dropLineEnd text = dropCr text := by
  have hlast : text.getLast? ≠ some 10 :=
    fun hlast => htext (List.mem_of_mem_getLast? hlast)
  simp [dropLineEnd, hlast]

theorem dropCr_cases (text : Bytes) :
    text = dropCr text ++ [13] ∨ text = dropCr text := by
  unfold dropCr
  split
  · next hlast =>
      left
      exact (List.dropLast_append_getLast? 13 hlast).symm
  · exact Or.inr rfl

section

variable {dec : Bytes → Option Text} (hdec : AsciiTransparent dec)

include hdec

/-- One line cut at a line feed gives one text, which a reader that ignores
empty texts finds behind its end. -/
theorem universalLines_decode_line {β : Type*} {read : Text → Option β}
    (hread : read [] = none) {line : Bytes} {t tail : Text}
    (ht : dec line = some t) (hlf : (10 : UInt8) ∉ line)
    (hcr : (13 : UInt8) ∉ dropCr line) (htail : tail = [10] ∨ tail = []) :
    (universalLines (t ++ tail)).filterMap read =
      ((dec (dropCr line)).bind read).toList := by
  have hlfText : ∀ l u, dec l = some u → (10 : UInt8) ∉ l → 10 ∉ u :=
    fun l u hu => hdec.not_mem l u 10 hu (by decide)
  have hcrText : ∀ l u, dec l = some u → (13 : UInt8) ∉ l → 13 ∉ u :=
    fun l u hu => hdec.not_mem l u 13 hu (by decide)
  have hone : ∀ u, ([u] : List Text).filterMap read = (read u).toList := by
    intro u
    cases hu : read u <;> simp [hu]
  rcases dropCr_cases line with hline | hline
  · have hbody : (10 : UInt8) ∉ dropCr line := by
      intro hmem
      exact hlf (hline ▸ List.mem_append_left _ hmem)
    rw [hline, hdec.concat _ (by decide), Option.map_eq_some_iff] at ht
    obtain ⟨u, hu, rfl⟩ := ht
    have hend : LineEnd (13 :: tail) := by
      rcases htail with rfl | rfl
      · exact Or.inr (Or.inl rfl)
      · exact Or.inr (Or.inr rfl)
    have hcut : universalLines (u ++ 13 :: tail) = [u] :=
      universalLines_append_end (hcrText _ u hu hcr) (hlfText _ u hu hbody) hend
    rw [hu, Option.bind_some, ← hone, ← hcut]
    simp
  · rw [← hline] at hcr ⊢
    have hcr' := hcrText _ t ht hcr
    have hlf' := hlfText _ t ht hlf
    rw [ht, Option.bind_some, ← hone]
    rcases htail with rfl | rfl
    · rw [universalLines_append_end hcr' hlf' (Or.inl rfl)]
    · rw [List.append_nil]
      by_cases hnil : t = []
      · rw [hone, hnil, hread]
        rfl
      · rw [universalLines_unterminated hnil hcr' hlf']

theorem universalLines_decode {β : Type*} (read : Text → Option β)
    (hread : read [] = none) {stream : Bytes}
    (hstream : ∀ line ∈ lines 10 stream,
      (dec line).isSome = true ∧ (13 : UInt8) ∉ dropLineEnd line) :
    ∃ text, dec stream = some text ∧
      (universalLines text).filterMap read =
        (lines 10 stream).filterMap fun line => (dec (dropLineEnd line)).bind read := by
  induction stream using lines_induction (10 : UInt8) with
  | nil => exact ⟨[], hdec.nil, rfl⟩
  | unterminated line hne hlf =>
      rw [lines_eq_singleton hne hlf] at hstream ⊢
      obtain ⟨hsome, hcr⟩ := hstream line (List.mem_singleton_self line)
      obtain ⟨t, ht⟩ := Option.isSome_iff_exists.mp hsome
      rw [dropLineEnd_unterminated hlf] at hcr
      have hcut := universalLines_decode_line hdec hread ht hlf hcr (Or.inr rfl)
      refine ⟨t, ht, ?_⟩
      rw [List.append_nil] at hcut
      rw [hcut]
      simp only [List.filterMap_cons, List.filterMap_nil, dropLineEnd_unterminated hlf]
      cases (dec (dropCr line)).bind read <;> rfl
  | line line rest hlf ih =>
      rw [lines_append_sep hlf] at hstream ⊢
      obtain ⟨hsome, hcr⟩ := hstream _ List.mem_cons_self
      obtain ⟨u, hu, hrest⟩ := ih fun l hl => hstream l (List.mem_cons_of_mem _ hl)
      rw [hdec.concat line (by decide), Option.isSome_map] at hsome
      obtain ⟨t, ht⟩ := Option.isSome_iff_exists.mp hsome
      rw [dropLineEnd_concat] at hcr
      have hcut := universalLines_decode_line hdec hread ht hlf hcr (Or.inl rfl)
      refine ⟨t ++ 10 :: u, ?_, ?_⟩
      · rw [hdec.append line rest 10 (by decide), ht, hu]
        rfl
      · rw [universalLines_append_lf, List.filterMap_append, hcut, hrest]
        simp only [List.filterMap_cons, dropLineEnd_concat]
        cases (dec (dropCr line)).bind read <;> rfl

end

def CrAtEnd (line : Bytes) : Prop := (13 : UInt8) ∉ dropLineEnd line

def JavaBridge.nonblank (charset : Charset) (line : Bytes) : Bool :=
  trim javaSpace (charset.replace (dropLineEnd line)) ≠ []

theorem JavaBridge.readRequest_ne_skip_iff (unicodeDigit : ℕ → ℕ → Option ℕ)
    (text : Text) :
    JavaBridge.readRequest unicodeDigit text ≠ .skip ↔ trim javaSpace text ≠ [] := by
  unfold JavaBridge.readRequest
  apply Request.ite_ne_skip_iff
  split
  · simp
  · split <;> simp

theorem newline_not_mem_inject (fault first : Bool) (r : Computed) :
    (10 : UInt8) ∉ (fun _ r => (Computed.inject fault r).text) first r :=
  (r.inject fault).newline_not_mem_text

theorem JavaBridge.main_serves (charset : Charset) (unicodeDigit : ℕ → ℕ → Option ℕ)
    (fault : Bool) (compute : ℤ → Bytes → Computed) :
    Serves 10 CrAtEnd (JavaBridge.nonblank charset) fun stdin =>
      some (JavaBridge.main charset unicodeDigit fault compute stdin) := by
  refine serves_of_replyLoop (newline_not_mem_inject fault)
    (fun line => (JavaBridge.readRequest unicodeDigit
      (charset.replace (dropLineEnd line))).answer compute) ?_ ?_
  · intro line _
    rw [Request.isSome_answer, JavaBridge.readRequest_ne_skip_iff]
    simp [JavaBridge.nonblank]
  · intro stream hstream
    obtain ⟨text, htext, hcut⟩ := universalLines_decode charset.replace_transparent
      (fun text => (JavaBridge.readRequest unicodeDigit text).answer compute) rfl
      fun line hline => ⟨rfl, hstream line hline⟩
    obtain rfl := Option.some.inj htext
    exact ⟨_, rfl, by simpa [List.filterMap_map] using hcut⟩

/-! ## Python -/

theorem lines_decode {dec : Bytes → Option Text} (hdec : AsciiTransparent dec)
    {β : Type*} (read : Text → Option β) (hread : read [] = none) {stream : Bytes}
    (hstream : ∀ line ∈ lines 10 stream, (dec line).isSome = true) :
    ∃ text, dec stream = some text ∧
      (lines 10 text).filterMap read =
        (lines 10 stream).filterMap fun line => (dec line).bind read := by
  have hlfText : ∀ l u, dec l = some u → (10 : UInt8) ∉ l → 10 ∉ u :=
    fun l u hu => hdec.not_mem l u 10 hu (by decide)
  induction stream using lines_induction (10 : UInt8) with
  | nil => exact ⟨[], hdec.nil, rfl⟩
  | unterminated line hne hlf =>
      rw [lines_eq_singleton hne hlf] at hstream ⊢
      obtain ⟨t, ht⟩ := Option.isSome_iff_exists.mp
        (hstream line (List.mem_singleton_self line))
      refine ⟨t, ht, ?_⟩
      simp only [List.filterMap_cons, List.filterMap_nil, ht, Option.bind_some]
      by_cases hnil : t = []
      · rw [hnil, hread]
        rfl
      · rw [lines_eq_singleton hnil (hlfText line t ht hlf)]
        rfl
  | line line rest hlf ih =>
      rw [lines_append_sep hlf] at hstream ⊢
      obtain ⟨u, hu, hrest⟩ := ih fun l hl => hstream l (List.mem_cons_of_mem _ hl)
      have hconcat : dec (line ++ [10]) = (dec line).map (· ++ [10]) :=
        hdec.concat line (by decide)
      have hsome := hstream _ List.mem_cons_self
      rw [hconcat, Option.isSome_map] at hsome
      obtain ⟨t, ht⟩ := Option.isSome_iff_exists.mp hsome
      refine ⟨t ++ 10 :: u, ?_, ?_⟩
      · rw [hdec.append line rest 10 (by decide), ht, hu]
        rfl
      · rw [lines_append_sep (hlfText line t ht hlf), List.filterMap_cons,
          List.filterMap_cons, hrest, hconcat, ht, Option.map_some, Option.bind_some]

def PyBridge.nonblank (charset : Charset) (line : Bytes) : Bool :=
  (charset.decode line).any fun text => trim pySpace text ≠ []

theorem PyBridge.readRequest_ne_skip_iff (unicodeDigit : ℕ → ℕ → Option ℕ)
    (text : Text) :
    PyBridge.readRequest unicodeDigit text ≠ .skip ↔ trim pySpace text ≠ [] := by
  unfold PyBridge.readRequest
  apply Request.ite_ne_skip_iff
  split
  · simp
  · split <;> simp

theorem PyBridge.main_serves (charset : Charset) (unicodeDigit : ℕ → ℕ → Option ℕ)
    (fault : Bool) (compute : ℤ → Bytes → Computed) :
    Serves 10 (fun line => (charset.decode line).isSome = true)
      (PyBridge.nonblank charset)
      (PyBridge.main charset unicodeDigit fault compute) := by
  refine serves_of_replyLoop (newline_not_mem_inject fault)
    (fun line => (charset.decode line).bind fun text =>
      (PyBridge.readRequest unicodeDigit text).answer compute) ?_ ?_
  · intro line hline
    obtain ⟨text, htext⟩ := Option.isSome_iff_exists.mp hline
    rw [htext, Option.bind_some, Request.isSome_answer,
      PyBridge.readRequest_ne_skip_iff, PyBridge.nonblank, htext]
    simp
  · intro stream hstream
    obtain ⟨text, htext, hcut⟩ := lines_decode charset.decode_transparent
      (fun text => (PyBridge.readRequest unicodeDigit text).answer compute) rfl hstream
    refine ⟨(lines 10 text).map fun line =>
      (PyBridge.readRequest unicodeDigit line).answer compute, ?_, ?_⟩
    · rw [PyBridge.main, htext, Option.map_some]
    · simpa [List.filterMap_map] using hcut

/-! ## All backends -/

structure Backends where
  charset : Charset
  unicodeDigit : ℕ → ℕ → Option ℕ
  fault : Bool
  f : CmfVec → Computed
  compute : ℤ → Bytes → Computed

/-- Every loop answers, in order and with one line each, exactly the lines it
does not find blank.  For the C programs no line is blank.  Left out are input
of Rust and Python that does not decode, carriage returns inside a line of
Java, and lines on which Go finds no op. -/
structure Backends.Serve (b : Backends) : Prop where
  cli : Lockstep 10 fun stdin => some (cliMain b.fault b.f stdin)
  go : Serves 10 GoBridge.WellFormed GoBridge.nonblank fun stdin =>
    some (GoBridge.main b.fault b.compute stdin)
  rust : Serves 10 (fun line => (b.charset.decode line).isSome = true)
    (RustBridge.nonblank b.charset) fun stdin =>
      some (RustBridge.main b.charset b.fault b.compute stdin)
  java : Serves 10 CrAtEnd (JavaBridge.nonblank b.charset) fun stdin =>
    some (JavaBridge.main b.charset b.unicodeDigit b.fault b.compute stdin)
  python : Serves 10 (fun line => (b.charset.decode line).isSome = true)
    (PyBridge.nonblank b.charset)
    (PyBridge.main b.charset b.unicodeDigit b.fault b.compute)

theorem backends_serve (b : Backends) : b.Serve where
  cli := cliMain_lockstep b.fault b.f
  go := GoBridge.main_serves b.fault b.compute
  rust := RustBridge.main_serves b.charset b.fault b.compute
  java := JavaBridge.main_serves b.charset b.unicodeDigit b.fault b.compute
  python := PyBridge.main_serves b.charset b.unicodeDigit b.fault b.compute

/-- The bridges leave an empty line without a reply.  Go skips a line without
a blank as well, Rust stops at a line that is no UTF-8, on which Python fails,
and Java answers a carriage return like a line end. -/
theorem bridges_not_lockstep :
    let reply : ℤ → Bytes → Computed := fun _ _ => .failure
    let go := GoBridge.main false reply
    let rust := RustBridge.main .usAscii false reply
    let java := JavaBridge.main .usAscii (fun _ _ => none) false reply
    let python := PyBridge.main .usAscii (fun _ _ => none) false reply
    (¬ Lockstep 10 (some ∘ go) ∧ ¬ Lockstep 10 (some ∘ rust) ∧
      ¬ Lockstep 10 (some ∘ java) ∧ ¬ Lockstep 10 python) ∧
    go (ascii "x\n") = [] ∧
    rust (0xFF :: ascii "\nx\n") = [] ∧ python (0xFF :: ascii "\nx\n") = none ∧
    java (ascii "x\rx\n") = ascii "ERR\nERR\n" := by
  have hempty : ∀ server : Bytes → Option Bytes, server [10] = some [] →
      ¬ Lockstep 10 server := by
    intro server hserver hlock
    obtain ⟨replies, hrun, hcount⟩ := hlock.reply_count [10]
    obtain rfl := Option.some.inj (hserver.symm.trans hrun)
    exact absurd hcount (by decide)
  refine ⟨⟨hempty _ ?_, hempty _ ?_, hempty _ ?_, hempty _ ?_⟩, ?_⟩
  · decide
  · decide
  · decide
  · decide
  · decide

end CMFuzz
