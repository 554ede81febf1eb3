import CMFuzz.RuntimeText
import CMFuzz.WireProtocol

/-!
# The parsers of the Go, Rust, Java and Python bridges

Each bridge repeats the C parsers in its own language: it cuts a request line
into op and blob, splits the blob into fields, and unpacks verify payloads.
Go and Rust split the blob a second time for the two AEAD ops, because their
first parser drops the nonce.  Every definition follows its own source.
-/

namespace CMFuzz

open ByteCodec
open LineStream
open RuntimeText
open Wire

/-- What a main loop makes of one line of text. -/
inductive Request where
  | skip
  | malformed
  | parsed (op : ℤ) (blob : Bytes)
  deriving DecidableEq

def slice (p : Bytes) (lo hi : ℕ) : Bytes := (p.take hi).drop lo

/-! ## Go -/

namespace GoBridge

structure Vec where
  op : ℤ
  key : Bytes
  msg : Bytes
  aad : Bytes
  deriving DecidableEq

abbrev keyLen : ℕ := 32
abbrev nonceLen : ℕ := 12

def readRequest (line : Bytes) : Request :=
  -- strings.TrimRight(line, "\r\n")
  let line := line.rdropWhile fun c => c = 13 || c = 10
  if line ≠ [] then
    let sp := line.idxOf 32
    -- sp > 0, where an absent blank gives -1
    if 0 < sp ∧ sp < line.length then
      let op := goAtoi ((line.take sp).map UInt8.toNat)
      match hexDecode ((line.drop (sp + 1)).map UInt8.toNat) with
      | none => .malformed
      | some blob => .parsed op blob
    else .skip
  else .skip

def parseVec (op : ℤ) (blob : Bytes) : Vec :=
  let need := keyLen + nonceLen + 2
  if blob.length < need then { op, key := [], msg := blob, aad := [] }
  else
    let key := blob.take keyLen
    let p := blob.drop (keyLen + nonceLen)
    let aadlen := be16 (p.getD 0 0) (p.getD 1 0)
    let rest := blob.drop need
    let aadlen := if aadlen > rest.length then rest.length else aadlen
    { op, key, aad := rest.take aadlen, msg := rest.drop aadlen }

/-- Key, nonce, aad and message that `aeadFromBlob` passes to `Seal`; `none`
where it replies `"ERR"`. -/
def aeadFromBlob (blob : Bytes) : Option (Bytes × Bytes × Bytes × Bytes) :=
  let need := keyLen + nonceLen + 2
  if blob.length < need then none
  else
    let key := blob.take keyLen
    let nonce := slice blob keyLen (keyLen + nonceLen)
    let p := blob.drop (keyLen + nonceLen)
    let aadlen := be16 (p.getD 0 0) (p.getD 1 0)
    let rest := blob.drop need
    let aadlen := if aadlen > rest.length then rest.length else aadlen
    some (key, nonce, rest.take aadlen, rest.drop aadlen)

def parseVerifyPayload (p : Bytes) : Option (Bytes × Bytes × Bytes) :=
  if p.length < 2 then none
  else
    let pl := be16 (p.getD 0 0) (p.getD 1 0)
    let off := 2
    if off + pl + 2 > p.length then none
    else
      let pub := slice p off (off + pl)
      let off := off + pl
      let sl := be16 (p.getD off 0) (p.getD (off + 1) 0)
      let off := off + 2
      if off + sl > p.length then none
      else
        let sig := slice p off (off + sl)
        let off := off + sl
        some (pub, sig, p.drop off)

end GoBridge

/-! ## Rust -/

namespace RustBridge

structure Vec where
  key : Bytes
  msg : Bytes
  aad : Bytes
  deriving DecidableEq

def readRequest (line : Text) : Request :=
  let l := line.rdropWhile fun c => c = 13 || c = 10
  if l = [] then .skip
  else match splitOnce 32 l with
    | some (ops, hexs) =>
        match parseI32 (trim whiteSpace ops), hexDecode (trim whiteSpace hexs) with
        | some op, some blob => .parsed op blob
        | _, _ => .malformed
    | none => .malformed

def parseVec (blob : Bytes) : Vec :=
  let need := cmfKeylen + cmfNoncelen + 2
  if blob.length < need then { key := [], msg := blob, aad := [] }
  else
    let key := slice blob 0 cmfKeylen
    let p := blob.drop (cmfKeylen + cmfNoncelen)
    let aadlen := be16 (p.getD 0 0) (p.getD 1 0)
    let rest := blob.drop need
    let aadlen := min aadlen rest.length
    { key, aad := slice rest 0 aadlen, msg := rest.drop aadlen }

/-- Key, nonce, aad and message that `aead_from_blob` encrypts; `none` where
it replies `"ERR"`. -/
def aeadFromBlob (blob : Bytes) : Option (Bytes × Bytes × Bytes × Bytes) :=
  let need := cmfKeylen + cmfNoncelen + 2
  if blob.length < need then none
  else
    let key := slice blob 0 cmfKeylen
    let nonce := slice blob cmfKeylen (cmfKeylen + cmfNoncelen)
    let p := blob.drop (cmfKeylen + cmfNoncelen)
    let aadlen := min (be16 (p.getD 0 0) (p.getD 1 0)) (blob.length - need)
    let rest := blob.drop need
    some (key, nonce, slice rest 0 aadlen, rest.drop aadlen)

def parseVerifyPayload (p : Bytes) : Option (Bytes × Bytes × Bytes) :=
  if p.length < 2 then none
  else
    let pl := be16 (p.getD 0 0) (p.getD 1 0)
    let off := 2
    if off + pl + 2 > p.length then none
    else
      let pubk := slice p off (off + pl)
      let off := off + pl
      let sl := be16 (p.getD off 0) (p.getD (off + 1) 0)
      let off := off + 2
      if off + sl > p.length then none
      else
        let sig := slice p off (off + sl)
        let off := off + sl
        some (pubk, sig, p.drop off)

end RustBridge

/-! ## Java -/

namespace JavaBridge

structure Vec where
  key : Bytes
  nonce : Bytes
  aad : Bytes
  msg : Bytes
  deriving DecidableEq

section

variable (unicodeDigit : ℕ → ℕ → Option ℕ)

/-- `hexdec`: a last unpaired symbol is ignored, and a pair is whatever
`parseInt` reads in radix 16, a sign included. -/
def hexdec : Text → Option Bytes
  | a :: b :: rest => do
      let v ← javaParseInt unicodeDigit 16 [a, b]
      let data ← hexdec rest
      some (UInt8.ofNat (v % 256).toNat :: data)
  | _ => some []

/-- One iteration of the reading loop of `main`, up to `compute`; every
exception of the `try` block is a malformed request. -/
def readRequest (line : Text) : Request :=
  let line := trim javaSpace line
  if line = [] then .skip
  else match splitOnce 32 line with
    | none => .malformed
    | some (ops, hexs) =>
        match javaParseInt unicodeDigit 10 ops, hexdec unicodeDigit hexs with
        | some op, some blob => .parsed op blob
        | _, _ => .malformed

end

/-- `slice`, with `none` for the exception of `System.arraycopy`. -/
def slice (a : Bytes) (off len : ℕ) : Option Bytes :=
  if off + len ≤ a.length then some ((a.drop off).take len) else none

def parse (blob : Bytes) : Option Vec := do
  let need := cmfKeylen + cmfNoncelen + 2
  if blob.length < need then
    some {
      key := List.replicate cmfKeylen 0
      nonce := List.replicate cmfNoncelen 0
      aad := []
      msg := blob }
  else
    let key ← slice blob 0 cmfKeylen
    let nonce ← slice blob cmfKeylen cmfNoncelen
    let p := cmfKeylen + cmfNoncelen
    let aadlen := be16 (← blob[p]?) (← blob[p + 1]?)
    let rest := blob.length - need
    let aadlen := if aadlen > rest then rest else aadlen
    let aad ← slice blob need aadlen
    let msg ← slice blob (need + aadlen) (rest - aadlen)
    some { key, nonce, aad, msg }

/-- `parseVerify`; the array accesses and slices throw past the end. -/
def parseVerify (p : Bytes) : Option (Bytes × Bytes × Bytes) := do
  let pl := be16 (← p[0]?) (← p[1]?)
  let off := 2
  let pub ← slice p off pl
  let off := off + pl
  let sl := be16 (← p[off]?) (← p[off + 1]?)
  let off := off + 2
  let sig ← slice p off sl
  let off := off + sl
  let msg ← slice p off (p.length - off)
  some (pub, sig, msg)

end JavaBridge

/-! ## Python -/

namespace PyBridge

structure Vec where
  key : Bytes
  nonce : Bytes
  aad : Bytes
  msg : Bytes
  deriving DecidableEq

/-- One iteration of the reading loop of `main`, up to `compute`; the caught
`ValueError` is a malformed request. -/
def readRequest (unicodeDigit : ℕ → ℕ → Option ℕ) (line : Text) : Request :=
  let line := trim pySpace line
  if line = [] then .skip
  else match splitOnce 32 line with
    | none => .malformed
    | some (ops, hexs) =>
        match pyInt unicodeDigit ops, fromhex hexs with
        | some op, some blob => .parsed op blob
        | _, _ => .malformed

def parse (blob : Bytes) : Vec :=
  let need := cmfKeylen + cmfNoncelen + 2
  if blob.length < need then { key := [], nonce := [], aad := [], msg := blob }
  else
    let key := slice blob 0 cmfKeylen
    let nonce := slice blob cmfKeylen (cmfKeylen + cmfNoncelen)
    let p := blob.drop (cmfKeylen + cmfNoncelen)
    let aadlen := be16 (p.getD 0 0) (p.getD 1 0)
    let rest := p.drop 2
    let aadlen := if aadlen > rest.length then rest.length else aadlen
    { key, nonce, aad := slice rest 0 aadlen, msg := rest.drop aadlen }

/-- `parse_verify`: indexing past the end raises, slicing past the end yields
what is there. -/
def parseVerify (payload : Bytes) : Option (Bytes × Bytes × Bytes) := do
  if payload.length < 2 then none
  else
    let pl := be16 (← payload[0]?) (← payload[1]?)
    let off := 2
    let pub := slice payload off (off + pl)
    let off := off + pl
    let sl := be16 (← payload[off]?) (← payload[off + 1]?)
    let off := off + 2
    let sig := slice payload off (off + sl)
    let off := off + sl
    some (pub, sig, payload.drop off)

end PyBridge

end CMFuzz
