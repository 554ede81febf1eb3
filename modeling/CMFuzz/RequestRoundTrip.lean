import CMFuzz.ParserAgreement
import CMFuzz.VectorGeneration

/-!
# Request round trip

The request line of the runner is read back by the C parser, by the four
bridges, and by the second AEAD parsers of Go and Rust, and all of them find
the vector the runner itself builds in place.
-/

namespace CMFuzz

open ByteCodec
open LineStream
open RuntimeText
open Wire

/-! ## The text of a request -/

def requestBody (op : ℕ) (blob : Bytes) : Bytes :=
  decimal op ++ 32 :: hexEncode blob

def requestText (op : ℕ) (blob : Bytes) : Text :=
  (requestBody op blob).map UInt8.toNat

theorem requestLine_eq (op : ℕ) (blob : Bytes) :
    requestLine op blob = requestBody op blob ++ [10] := rfl

theorem hexDigit_range :
    ∀ n < 16, 33 ≤ (hexDigit n).toNat ∧ (hexDigit n).toNat < 127 := by decide

theorem hexText_range {data : Bytes} {c : ℕ}
    (hc : c ∈ (hexEncode data).map UInt8.toNat) : 33 ≤ c ∧ c < 127 := by
  obtain ⟨b, hb, rfl⟩ := List.mem_map.mp hc
  obtain ⟨n, hn, rfl⟩ := mem_hexEncode hb
  exact hexDigit_range n hn

theorem decimalText_range {op : ℕ} (hop : op < cmfNumOps) {c : ℕ}
    (hc : c ∈ (decimal op).map UInt8.toNat) : 48 ≤ c ∧ c ≤ 57 := by
  obtain ⟨b, hb, rfl⟩ := List.mem_map.mp hc
  have hdigit := (decimal_op op hop).2 b hb
  simpa [UInt8.le_iff_toNat_le] using hdigit

theorem requestText_eq (op : ℕ) (blob : Bytes) :
    requestText op blob =
      (decimal op).map UInt8.toNat ++ 32 :: (hexEncode blob).map UInt8.toNat := by
  simp [requestText, requestBody]

theorem requestText_range {op : ℕ} (hop : op < cmfNumOps) {blob : Bytes} {c : ℕ}
    (hc : c ∈ requestText op blob) : c = 32 ∨ (33 ≤ c ∧ c < 127) := by
  rw [requestText_eq] at hc
  rcases List.mem_append.mp hc with hdec | hrest
  · have hrange := decimalText_range hop hdec
    omega
  · rcases List.mem_cons.mp hrest with rfl | hhex
    · exact Or.inl rfl
    · exact Or.inr (hexText_range hhex)

theorem requestLine_ascii {op : ℕ} (hop : op < cmfNumOps) {blob : Bytes} :
    ∀ b ∈ requestLine op blob, b < 128 := by
  intro b hb
  rw [requestLine_eq] at hb
  rcases List.mem_append.mp hb with hbody | hend
  · have hrange := requestText_range hop (List.mem_map_of_mem hbody)
    rw [UInt8.lt_iff_toNat_lt]
    show b.toNat < 128
    omega
  · rw [List.mem_singleton.mp hend]
    decide

theorem requestLine_toNat (op : ℕ) (blob : Bytes) :
    (requestLine op blob).map UInt8.toNat = requestText op blob ++ [10] := by
  simp [requestLine_eq, requestText]

theorem splitOnce_requestText {op : ℕ} (hop : op < cmfNumOps) (blob : Bytes) :
    splitOnce 32 (requestText op blob) =
      some ((decimal op).map UInt8.toNat, (hexEncode blob).map UInt8.toNat) := by
  rw [requestText_eq]
  apply splitOnce_append
  intro hmem
  have hrange := decimalText_range hop hmem
  omega

theorem requestText_ne_nil (op : ℕ) (blob : Bytes) : requestText op blob ≠ [] := by
  rw [requestText_eq]
  simp

theorem decimal_ne_nil : ∀ op < cmfNumOps, decimal op ≠ [] := by decide

theorem decimal_length_le : ∀ op < cmfNumOps, (decimal op).length ≤ 2 := by decide

theorem newline_not_mem_requestText {op : ℕ} (hop : op < cmfNumOps) (blob : Bytes) :
    10 ∉ requestText op blob := by
  intro hmem
  have hrange := requestText_range hop hmem
  omega

theorem universalLines_request {op : ℕ} (hop : op < cmfNumOps) (blob : Bytes) :
    universalLines (requestText op blob ++ [10]) = [requestText op blob] := by
  apply universalLines_append_end _ (newline_not_mem_requestText hop blob) (Or.inl rfl)
  intro hmem
  have hrange := requestText_range hop hmem
  omega

/-! ## Trimming -/

theorem whiteSpace_printable {c : ℕ} (hc : c = 32 ∨ (33 ≤ c ∧ c < 127))
    (hspace : whiteSpace c = true) : c = 32 := by
  simp only [whiteSpace, Bool.or_eq_true, Bool.and_eq_true, decide_eq_true_eq] at hspace
  omega

theorem pySpace_printable {c : ℕ} (hc : c = 32 ∨ (33 ≤ c ∧ c < 127))
    (hspace : pySpace c = true) : c = 32 := by
  simp only [pySpace, whiteSpace, Bool.or_eq_true, Bool.and_eq_true,
    decide_eq_true_eq] at hspace
  omega

theorem javaSpace_printable {c : ℕ} (hc : c = 32 ∨ (33 ≤ c ∧ c < 127))
    (hspace : javaSpace c = true) : c = 32 := by
  simp only [javaSpace, decide_eq_true_eq] at hspace
  omega

theorem trim_printable {space : ℕ → Bool}
    (hspace : ∀ c, c = 32 ∨ (33 ≤ c ∧ c < 127) → space c = true → c = 32)
    {text : Text} (htext : ∀ c ∈ text, 33 ≤ c ∧ c < 127) :
    trim space text = text := by
  have hblank : 32 ∉ text := by
    intro hmem
    have hrange := htext 32 hmem
    omega
  apply trim_eq_self
  · exact fun c hc => hspace c (Or.inr (htext c hc))
  · exact fun hhead => hblank (List.mem_of_mem_head? hhead)
  · exact fun hlast => hblank (List.mem_of_mem_getLast? hlast)

theorem trim_requestText {space : ℕ → Bool}
    (hspace : ∀ c, c = 32 ∨ (33 ≤ c ∧ c < 127) → space c = true → c = 32)
    {op : ℕ} (hop : op < cmfNumOps) {blob : Bytes} (hblob : blob ≠ []) :
    trim space (requestText op blob) = requestText op blob := by
  have hdec : (decimal op).map UInt8.toNat ≠ [] := by
    simpa using decimal_ne_nil op hop
  have hhex : (hexEncode blob).map UInt8.toNat ≠ [] := by
    obtain ⟨b, rest, rfl⟩ := List.exists_cons_of_ne_nil hblob
    simp
  apply trim_eq_self
  · exact fun c hc => hspace c (requestText_range hop hc)
  · intro hhead
    rw [requestText_eq, List.head?_append_of_ne_nil _ hdec] at hhead
    have hrange := decimalText_range hop (List.mem_of_mem_head? hhead)
    omega
  · intro hlast
    rw [requestText_eq, List.getLast?_append_of_ne_nil _ (by simp),
      List.getLast?_cons, Option.some.injEq,
      List.getLast?_eq_some_getLast hhex, Option.getD_some] at hlast
    have hrange := hexText_range (List.getLast_mem hhex)
    omega

/-! ## Numbers -/

theorem parseDigits_congr {digit digit' : ℕ → Option ℕ} (radix : ℕ) {text : Text}
    (hdigit : ∀ c ∈ text, digit c = digit' c) :
    parseDigits digit radix text = parseDigits digit' radix text := by
  have hfold : ∀ start, text.foldlM (fun n c => (digit c).map (radix * n + ·)) start =
      text.foldlM (fun n c => (digit' c).map (radix * n + ·)) start := by
    induction text with
    | nil => exact fun start => rfl
    | cons c text ih =>
        intro start
        rw [List.foldlM_cons, List.foldlM_cons, hdigit c List.mem_cons_self]
        congr 1
        funext n
        exact ih (fun d hd => hdigit d (List.mem_cons_of_mem c hd)) n
  unfold parseDigits
  rw [hfold]

theorem parseSigned_congr {digit digit' : ℕ → Option ℕ} (radix : ℕ) {text : Text}
    (hdigit : ∀ c ∈ text, digit c = digit' c) :
    parseSigned digit radix text = parseSigned digit' radix text := by
  unfold parseSigned
  split
  · rw [parseDigits_congr radix fun c hc => hdigit c (List.mem_cons_of_mem _ hc)]
  · rw [parseDigits_congr radix fun c hc => hdigit c (List.mem_cons_of_mem _ hc)]
  · rw [parseDigits_congr radix hdigit]

theorem parseSigned_decimal : ∀ op < cmfNumOps,
    parseSigned (asciiDigit 10) 10 ((decimal op).map UInt8.toNat) = some (op : ℤ) := by
  decide

theorem inInt32_op {op : ℕ} (hop : op < cmfNumOps) : inInt32 op = true := by
  have hlt : op < 27 := hop
  simp only [inInt32, Bool.and_eq_true, decide_eq_true_eq]
  omega

theorem goAtoi_decimal {op : ℕ} (hop : op < cmfNumOps) :
    goAtoi ((decimal op).map UInt8.toNat) = op := by
  have hlt : op < 27 := hop
  rw [goAtoi_of_parse (parseSigned_decimal op hop)]
  omega

theorem parseI32_decimal {op : ℕ} (hop : op < cmfNumOps) :
    parseI32 ((decimal op).map UInt8.toNat) = some (op : ℤ) := by
  unfold parseI32
  rw [parseSigned_decimal op hop]
  simp [Option.filter, inInt32_op hop]

section

variable (unicodeDigit : ℕ → ℕ → Option ℕ)

theorem digitOf_decimal {op : ℕ} (hop : op < cmfNumOps) :
    ∀ c ∈ (decimal op).map UInt8.toNat,
      digitOf unicodeDigit 10 c = asciiDigit 10 c := by
  intro c hc
  have hrange := decimalText_range hop hc
  unfold digitOf
  rw [if_pos (by omega)]

theorem javaParseInt_decimal {op : ℕ} (hop : op < cmfNumOps) :
    javaParseInt unicodeDigit 10 ((decimal op).map UInt8.toNat) = some (op : ℤ) := by
  unfold javaParseInt
  rw [parseSigned_congr 10 (digitOf_decimal unicodeDigit hop),
    parseSigned_decimal op hop]
  simp [Option.filter, inInt32_op hop]

theorem dropUnderscores_eq_self (digit : ℕ → Option ℕ) {text : Text}
    (htext : 95 ∉ text) : dropUnderscores digit text = text := by
  induction text with
  | nil => rfl
  | cons c text ih =>
      simp only [List.mem_cons, not_or] at htext
      rw [dropUnderscores, ih htext.2]
      rintro d rest heq
      exact htext.2 (by simp [heq])

theorem pyInt_decimal {op : ℕ} (hop : op < cmfNumOps) :
    pyInt unicodeDigit ((decimal op).map UInt8.toNat) = some (op : ℤ) := by
  have hrange : ∀ c ∈ (decimal op).map UInt8.toNat, 48 ≤ c ∧ c ≤ 57 :=
    fun c hc => decimalText_range hop hc
  have htrim : trim whiteSpace ((decimal op).map UInt8.toNat) =
      (decimal op).map UInt8.toNat :=
    trim_printable (fun c => whiteSpace_printable) fun c hc => by
      have := hrange c hc
      omega
  have hscore : 95 ∉ (decimal op).map UInt8.toNat := by
    intro hmem
    have := hrange 95 hmem
    omega
  have hlimit : ¬ ((decimal op).map UInt8.toNat).countP
      (fun c => (digitOf unicodeDigit 10 c).isSome) > maxStrDigits := by
    have hcount := List.countP_le_length
      (p := fun c => (digitOf unicodeDigit 10 c).isSome)
      (l := (decimal op).map UInt8.toNat)
    have hlen := decimal_length_le op hop
    simp only [List.length_map] at hcount
    simp only [maxStrDigits]
    omega
  unfold pyInt
  dsimp only
  rw [htrim, dropUnderscores_eq_self _ hscore, if_neg hlimit,
    parseSigned_congr 10 (digitOf_decimal unicodeDigit hop), parseSigned_decimal op hop]

theorem digitOf_hexDigit {n : ℕ} (hn : n < 16) :
    digitOf unicodeDigit 16 (hexDigit n).toNat = some n := by
  have hrange := hexDigit_range n hn
  unfold digitOf asciiDigit
  rw [if_pos (by omega), symbolValue_hexDigit n hn]
  simp [Option.filter, hn]

theorem javaParseInt_hexPair {m n : ℕ} (hm : m < 16) (hn : n < 16) :
    javaParseInt unicodeDigit 16 [(hexDigit m).toNat, (hexDigit n).toNat] =
      some ((16 * m + n : ℕ) : ℤ) := by
  have hsign : ∀ k < 16, (hexDigit k).toNat ≠ 43 ∧ (hexDigit k).toNat ≠ 45 := by
    decide
  have hparse : parseSigned (digitOf unicodeDigit 16) 16
      [(hexDigit m).toNat, (hexDigit n).toNat] = some ((16 * m + n : ℕ) : ℤ) := by
    rw [parseSigned]
    · simp [parseDigits, digitOf_hexDigit unicodeDigit hm,
        digitOf_hexDigit unicodeDigit hn]
    · exact fun rest heq => (hsign m hm).1 (List.cons.inj heq).1
    · exact fun rest heq => (hsign m hm).2 (List.cons.inj heq).1
  have hrange : inInt32 ((16 * m + n : ℕ) : ℤ) = true := by
    simp only [inInt32, Bool.and_eq_true, decide_eq_true_eq]
    omega
  unfold javaParseInt
  rw [hparse]
  simp only [Option.filter, hrange]
  rfl

theorem hexdec_hexEncode (data : Bytes) :
    JavaBridge.hexdec unicodeDigit ((hexEncode data).map UInt8.toNat) = some data := by
  induction data with
  | nil => rfl
  | cons b data ih =>
      have hpair := javaParseInt_hexPair unicodeDigit (shiftRight_four_lt b)
        (and_fifteen_lt b)
      have hjoin := join_halves b
      rw [← Nat.shiftLeft_add_eq_or_of_lt (and_fifteen_lt b), Nat.shiftLeft_eq,
        Nat.mul_comm] at hjoin
      have hbyte : (((16 * (b.toNat >>> 4) + (b.toNat &&& 15) : ℕ) : ℤ) % 256).toNat =
          16 * (b.toNat >>> 4) + (b.toNat &&& 15) := by
        have hhi := shiftRight_four_lt b
        have hlo := and_fifteen_lt b
        omega
      simp only [hexEncode_cons, List.map_cons, JavaBridge.hexdec, hpair, ih,
        Option.bind_eq_bind, Option.bind_some, hbyte]
      exact congrArg (fun c => some (c :: data)) hjoin

end

/-! ## Reading a request -/

theorem GoBridge.readRequest_requestLine {op : ℕ} (hop : op < cmfNumOps)
    (blob : Bytes) :
    GoBridge.readRequest (requestLine op blob) = .parsed op blob := by
  have htrim : (requestLine op blob).rdropWhile (fun c => c = 13 || c = 10) =
      requestBody op blob := by
    rw [requestLine_eq, List.rdropWhile_concat_pos _ _ _ (by decide),
      List.rdropWhile_eq_self_iff]
    intro hne hend
    have hrange := requestText_range hop
      (List.mem_map_of_mem (List.getLast_mem hne))
    simp only [Bool.or_eq_true, decide_eq_true_eq] at hend
    rcases hend with heq | heq <;> rw [heq] at hrange <;> simp at hrange
  have hblank : (32 : UInt8) ∉ decimal op := not_mem_decimal_op hop (by decide)
  have hsp : (requestBody op blob).idxOf 32 = (decimal op).length := by
    rw [requestBody, List.idxOf_append_of_notMem hblank, List.idxOf_cons_self,
      Nat.add_zero]
  have hpos : 0 < (decimal op).length :=
    List.length_pos_iff.mpr (decimal_ne_nil op hop)
  have hlt : (decimal op).length < (requestBody op blob).length := by
    simp [requestBody]
  have hnum : (requestBody op blob).take (decimal op).length = decimal op :=
    List.take_left' rfl
  have hhex : (requestBody op blob).drop ((decimal op).length + 1) = hexEncode blob := by
    rw [← List.drop_drop, requestBody, List.drop_left' rfl, List.drop_one,
      List.tail_cons]
  have hne : requestBody op blob ≠ [] := List.ne_nil_of_length_pos (by omega)
  unfold GoBridge.readRequest
  simp only [htrim, hsp, hnum, hhex, goAtoi_decimal hop, hexDecode_hexEncode]
  rw [if_pos hne, if_pos ⟨hpos, hlt⟩]

theorem RustBridge.readRequest_requestText {op : ℕ} (hop : op < cmfNumOps)
    (blob : Bytes) :
    RustBridge.readRequest (requestText op blob ++ [10]) = .parsed op blob := by
  have htrim : (requestText op blob ++ [10]).rdropWhile (fun c => c = 13 || c = 10) =
      requestText op blob := by
    rw [List.rdropWhile_concat_pos _ _ _ (by decide), List.rdropWhile_eq_self_iff]
    intro hne hend
    have hrange := requestText_range hop (List.getLast_mem hne)
    simp only [Bool.or_eq_true, decide_eq_true_eq] at hend
    omega
  have hop' : trim whiteSpace ((decimal op).map UInt8.toNat) =
      (decimal op).map UInt8.toNat :=
    trim_printable (fun c => whiteSpace_printable) fun c hc => by
      have := decimalText_range hop hc
      omega
  have hhex : trim whiteSpace ((hexEncode blob).map UInt8.toNat) =
      (hexEncode blob).map UInt8.toNat :=
    trim_printable (fun c => whiteSpace_printable) fun c hc => hexText_range hc
  unfold RustBridge.readRequest
  simp only [htrim, if_neg (requestText_ne_nil op blob), splitOnce_requestText hop,
    hop', hhex, parseI32_decimal hop, hexDecode_hexEncode]

theorem JavaBridge.readRequest_requestText (unicodeDigit : ℕ → ℕ → Option ℕ)
    {op : ℕ} (hop : op < cmfNumOps) {blob : Bytes} (hblob : blob ≠ []) :
    JavaBridge.readRequest unicodeDigit (requestText op blob) = .parsed op blob := by
  have htrim := trim_requestText (fun c => javaSpace_printable) hop hblob
  unfold JavaBridge.readRequest
  simp only [htrim, if_neg (requestText_ne_nil op blob), splitOnce_requestText hop,
    javaParseInt_decimal unicodeDigit hop, hexdec_hexEncode]

theorem PyBridge.readRequest_requestText (unicodeDigit : ℕ → ℕ → Option ℕ)
    {op : ℕ} (hop : op < cmfNumOps) {blob : Bytes} (hblob : blob ≠ []) :
    PyBridge.readRequest unicodeDigit (requestText op blob ++ [10]) = .parsed op blob := by
  have htrim : trim pySpace (requestText op blob ++ [10]) = requestText op blob := by
    rw [trim_concat (by decide)]
    exact trim_requestText (fun c => pySpace_printable) hop hblob
  unfold PyBridge.readRequest
  simp only [htrim, if_neg (requestText_ne_nil op blob), splitOnce_requestText hop,
    pyInt_decimal unicodeDigit hop, fromhex_hexEncode]

/-! ## The round trip -/

/-- Every decoder recovers `op` and `f` from the request line printed for
them, as far as it keeps the field. -/
structure RoundTrips (charset : Charset) (unicodeDigit : ℕ → ℕ → Option ℕ)
    (op : ℕ) (f : BlobFields) : Prop where
  cVecParse : cmfVecParse (requestLine op f.join) = some { f with op := op }
  runner : Runner.localVec op f.join f.aad.length f.msg.length = { f with op := op }
  go_request : GoBridge.readRequest (requestLine op f.join) = .parsed op f.join
  go_parseVec : GoBridge.parseVec op f.join = ⟨op, f.key, f.msg, f.aad⟩
  go_aead : GoBridge.aeadFromBlob f.join = some (f.key, f.nonce, f.aad, f.msg)
  rust_request : (charset.decode (requestLine op f.join)).map RustBridge.readRequest =
    some (.parsed op f.join)
  rust_parseVec : RustBridge.parseVec f.join = ⟨f.key, f.msg, f.aad⟩
  rust_aead : RustBridge.aeadFromBlob f.join = some (f.key, f.nonce, f.aad, f.msg)
  java_request : (universalLines (charset.replace (requestLine op f.join))).map
    (JavaBridge.readRequest unicodeDigit) = [.parsed op f.join]
  java_parse : JavaBridge.parse f.join = some ⟨f.key, f.nonce, f.aad, f.msg⟩
  py_request : (charset.decode (requestLine op f.join)).map
    (fun text => (lines 10 text).map (PyBridge.readRequest unicodeDigit)) =
      some [.parsed op f.join]
  py_parse : PyBridge.parse f.join = ⟨f.key, f.nonce, f.aad, f.msg⟩

theorem request_roundTrips (charset : Charset) (unicodeDigit : ℕ → ℕ → Option ℕ)
    {op : ℕ} (hop : op ≤ 26) (f : BlobFields) (haad : f.aad.length ≤ 65535) :
    RoundTrips charset unicodeDigit op f := by
  have hop' : op < cmfNumOps := Nat.lt_succ_of_le hop
  have hsplit : splitBlob f.join = some f := splitBlob_join f (by omega)
  have hblob : f.join ≠ [] := by
    apply List.ne_nil_of_length_pos
    rw [BlobFields.join_length]
    simp only [headerLen]
    omega
  have hdecode : charset.decode (requestLine op f.join) =
      some (requestText op f.join ++ [10]) := by
    rw [charset.decode_transparent.ascii (requestLine_ascii hop'), requestLine_toNat]
  have hreplace : charset.replace (requestLine op f.join) =
      requestText op f.join ++ [10] := by
    rw [charset.replace_ascii (requestLine_ascii hop'), requestLine_toNat]
  exact {
    cVecParse := by
      rw [cmfVecParse_requestLine hop', cmfVecFields, hsplit]
    runner := Runner.localVec_join op f
    go_request := GoBridge.readRequest_requestLine hop' f.join
    go_parseVec := GoBridge.parseVec_of_split hsplit op
    go_aead := GoBridge.aeadFromBlob_of_split hsplit
    rust_request := by
      rw [hdecode, Option.map_some, RustBridge.readRequest_requestText hop']
    rust_parseVec := RustBridge.parseVec_of_split hsplit
    rust_aead := RustBridge.aeadFromBlob_of_split hsplit
    java_request := by
      rw [hreplace, universalLines_request hop', List.map_singleton,
        JavaBridge.readRequest_requestText unicodeDigit hop' hblob]
    java_parse := JavaBridge.parse_of_split hsplit
    py_request := by
      rw [hdecode, Option.map_some,
        lines_append_sep (newline_not_mem_requestText hop' f.join), lines_nil,
        List.map_singleton, PyBridge.readRequest_requestText unicodeDigit hop' hblob]
    py_parse := PyBridge.parse_of_split hsplit }

def sampleFields : BlobFields where
  key := List.replicate cmfKeylen 0x0f
  nonce := List.replicate cmfNoncelen 0xf0
  aad := [0xab]
  msg := [0x00, 0xff]
  key_length := List.length_replicate
  nonce_length := List.length_replicate

theorem request_roundTrips_sample :
    RoundTrips Charset.usAscii (fun _ _ => none) 26 sampleFields :=
  request_roundTrips Charset.usAscii (fun _ _ => none) (by decide) sampleFields
    (by decide)

end CMFuzz
