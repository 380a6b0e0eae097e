import Monoloop.Lib.Utf8

/-!
# The sentence segmenter

Text arrives in fragments of any size. The segmenter keeps what has not been
completed in an assembly buffer, looks for the first sentence end in it after
every push, and gives out each sentence with the number of bytes it took from
the buffer. At a clean end what is left becomes a last sentence.

The scan is over bytes and every index is a byte offset; a slice of the buffer
at an offset inside a character stops the program, which is `none` here. The
bracket counters are the source's 32-bit ones, with the arithmetic of a release
build.
-/

namespace Monoloop.Interpreter

open Utf8

abbrev Str := List Char

/-- One completed sentence from the segmenter, with buffer consumption. -/
structure CompletedSentence where
  content : Str
  /-- Bytes of the content region, through the terminator. -/
  contentBytes : Nat
  /-- Bytes removed from the assembly buffer: the content region and the white
  space after it. -/
  bytesConsumed : Nat
  deriving DecidableEq, Repr

structure SentenceSegmenter where
  buf : Str
  deriving DecidableEq, Repr

def SentenceSegmenter.new : SentenceSegmenter := { buf := [] }

def SentenceSegmenter.bufferedBytes (s : SentenceSegmenter) : Nat := (bytes s.buf).length

/-! ## Looking back from a dot -/

/-- The start of the run of bytes satisfying `p` that ends just before `i`. -/
def runStart (p : UInt8 → Bool) (bs : List UInt8) : Nat → Nat
  | 0 => 0
  | i + 1 => if (bs[i]?).any p then runStart p bs i else i + 1

def isAsciiDigit (b : UInt8) : Bool := 0x30 ≤ b && b ≤ 0x39

def isAsciiUppercase (b : UInt8) : Bool := 0x41 ≤ b && b ≤ 0x5a

def isAsciiLowercase (b : UInt8) : Bool := 0x61 ≤ b && b ≤ 0x7a

def isAsciiAlphabetic (b : UInt8) : Bool := isAsciiLowercase b || isAsciiUppercase b

/-- `bytes.get(i.wrapping_sub(1))`: nothing stands before the first byte. -/
def byteBefore (bs : List UInt8) : Nat → Option UInt8
  | 0 => none
  | i + 1 => bs[i]?

def prevIsSentenceLetter (bs : List UInt8) (dotIdx : Nat) : Bool :=
  (byteBefore bs dotIdx).any isAsciiAlphabetic

/-- What may follow the dot of a list marker: white space, the end of the
buffer, or the start of a marked-up item. -/
def followsMarker : Option UInt8 → Bool
  | none => true
  | some b => isAsciiWhitespace b || b = 0x2a || b = 0x5f || b = 0x60 || b = 0x5b

/-- `1.` or `12.` at the start of a line or after white space. -/
def looksLikeOrderedListMarker (bs : List UInt8) (dotIdx : Nat) : Bool :=
  let start := runStart isAsciiDigit bs dotIdx
  let digitLen := dotIdx - start
  if start = dotIdx then false
  else if ¬ (1 ≤ digitLen ∧ digitLen ≤ 3) then false
  else if 0 < start ∧ ¬ (byteBefore bs start).any isAsciiWhitespace then false
  else followsMarker bs[dotIdx + 1]?

def isOnlyListMarker (s : Str) : Bool :=
  let b := bytes (trim s)
  if b.getLast? = some 0x2e then looksLikeOrderedListMarker b (b.length - 1) else false

def abbrevs : List String :=
  ["Mr", "Mrs", "Ms", "Dr", "Prof", "Sr", "Jr", "vs", "etc", "Inc", "Ltd", "St"]

def eqIgnoreAsciiCase (a b : Str) : Bool := a.map Char.toLower = b.map Char.toLower

/-- `str::contains`. -/
def contains (s pat : Str) : Bool := s.tails.any (pat.isPrefixOf ·)

/-- `&s[a..b]`. -/
def slice (s : Str) (a b : Nat) : Option Str := do
  let (upTo, _) ← splitAt s b
  let (_, part) ← splitAt upTo a
  some part

/-- The word of letters before a dot, when it is short: a single letter, or one
of the known abbreviations. -/
def endsInAbbreviation (s : Str) (bs : List UInt8) (dotIdx : Nat) : Option Bool :=
  if (byteBefore bs dotIdx).any isAsciiAlphabetic then
    let start := runStart isAsciiAlphabetic bs dotIdx
    let len := dotIdx - start
    if 1 ≤ len ∧ len ≤ 3 then
      if len = 1 then some true
      else (slice s start dotIdx).map
        (fun word => abbrevs.any (fun a => eqIgnoreAsciiCase a.toList word))
    else some false
  else some false

/-- The dot belongs to something that looks like an address or a path. -/
def endsInAddress (s : Str) (bs : List UInt8) (dotIdx : Nat) : Option Bool :=
  let t := runStart (fun b => !isAsciiWhitespace b) bs dotIdx
  let end_ := min (dotIdx + 1) bs.length
  (slice s t end_).map (fun token =>
    contains token "://".toList || contains token "www.".toList || contains token "/".toList)

def looksLikeAbbreviationOrDecimal (s : Str) (bs : List UInt8) (dotIdx : Nat) : Option Bool := do
  if (byteBefore bs dotIdx).any isAsciiDigit && (bs[dotIdx + 1]?).any isAsciiDigit then
    some true
  else if ← endsInAbbreviation s bs dotIdx then
    some true
  else endsInAddress s bs dotIdx

/-! ## The scan -/

structure ScanState where
  inCodeSpan : Bool := false
  paren : Int32 := 0
  bracket : Int32 := 0
  brace : Int32 := 0
  deriving DecidableEq, Repr

/-- What one turn of the scan comes to: an end, or the state for the next byte. -/
inductive Turn where
  | found (end_ : Nat)
  | next (st : ScanState)
  deriving DecidableEq, Repr

/-- The byte after a terminator decides: white space and closing marks end the
sentence, an upper-case letter does so after a dot that ends a word. -/
def endsSentence (c : Char) (bs : List UInt8) (i : Nat) : Bool :=
  match bs[i + 1]? with
  -- terminator at buffer end: wait for more
  | none => false
  | some b =>
      if isAsciiWhitespace b then true
      else if b = 0x22 || b = 0x27 || b = 0x29 || b = 0x5d then true
      else c = '.' && isAsciiUppercase b && prevIsSentenceLetter bs i

/-- A terminator at `i`: brackets, list markers, abbreviations and addresses
keep the sentence open. -/
def terminatorTurn (s : Str) (bs : List UInt8) (st : ScanState) (i : Nat) (c : Char) :
    Option Turn := do
  if 0 < st.paren ∨ 0 < st.bracket ∨ 0 < st.brace then
    some (.next st)
  else if c = '.' ∧ looksLikeOrderedListMarker bs i then
    some (.next st)
  else if c = '.' ∧ (← looksLikeAbbreviationOrDecimal s bs i) then
    some (.next st)
  else if endsSentence c bs i then
    some (.found (i + 1))
  else
    some (.next st)

/-- A double newline closes what stands before it, unless that is nothing or
only a list marker. -/
def paragraphTurn (s : Str) (bs : List UInt8) (st : ScanState) (i : Nat) : Option Turn := do
  if bs[i + 1]? = some 0x0a then
    let (upTo, _) ← splitAt s i
    let before := trim upTo
    if before ≠ [] ∧ ¬ isOnlyListMarker before then
      some (.found i)
    else
      some (.next st)
  else
    some (.next st)

/-- One turn of the scan's loop, at byte `b` of index `i`. -/
def scanByte (s : Str) (bs : List UInt8) (st : ScanState) (i : Nat) (b : UInt8) : Option Turn :=
  let c := charOf b
  if c = '\x60' then some (.next { st with inCodeSpan := !st.inCodeSpan })
  else if st.inCodeSpan then some (.next st)
  else
    match c with
    | '(' => some (.next { st with paren := st.paren + 1 })
    | ')' => some (.next { st with paren := max (st.paren - 1) 0 })
    | '[' => some (.next { st with bracket := st.bracket + 1 })
    | ']' => some (.next { st with bracket := max (st.bracket - 1) 0 })
    | '\x7b' => some (.next { st with brace := st.brace + 1 })
    | '\x7d' => some (.next { st with brace := max (st.brace - 1) 0 })
    | '.' => terminatorTurn s bs st i c
    | '!' => terminatorTurn s bs st i c
    | '?' => terminatorTurn s bs st i c
    | '\n' => paragraphTurn s bs st i
    | _ => some (.next st)

/-- The scan from index `i`, the last argument being the bytes from there on. -/
def scanFrom (s : Str) (bs : List UInt8) (st : ScanState) (i : Nat) :
    List UInt8 → Option (Option Nat)
  | [] => some none
  | b :: rest => do
      match ← scanByte s bs st i b with
      | .found e => some (some e)
      | .next st => scanFrom s bs st (i + 1) rest

/-- Find exclusive end index of the first complete sentence, if any. -/
def findSentenceEnd (s : Str) : Option (Option Nat) :=
  scanFrom s (bytes s) {} 0 (bytes s)

/-! ## The drain -/

/-- One turn of the drain: the sentence up to `end_` and the buffer after it and
after the white space that follows. -/
def drainTurn (buf : Str) (end_ : Nat) : Option (Option CompletedSentence × Str) := do
  let (raw, _) ← splitAt buf end_
  let content := trimEnd raw
  let contentBytes := (bytes content).length
  let consume := end_ + (((bytes buf).drop end_).takeWhile isAsciiWhitespace).length
  let (_, rest) ← splitAt buf consume
  if content ≠ [] then
    some (some { content, contentBytes, bytesConsumed := consume }, rest)
  else
    some (none, rest)

/-- The drain's loop. Fuel that runs out is `none`, as a failed slice is. -/
def drainLoop : Nat → Str → Option (List CompletedSentence × Str)
  | 0, _ => none
  | fuel + 1, buf => do
      match ← findSentenceEnd buf with
      | none => some ([], buf)
      | some e =>
          let (sentence, rest) ← drainTurn buf e
          let (out, rest) ← drainLoop fuel rest
          some (sentence.toList ++ out, rest)

def drainComplete (buf : Str) (sealRemainder : Bool) :
    Option (List CompletedSentence × Str) := do
  let (out, buf) ← drainLoop ((bytes buf).length + 1) buf
  if sealRemainder ∧ trim buf ≠ [] then
    let content := trim buf
    let last := { content, contentBytes := (bytes content).length,
                  bytesConsumed := (bytes buf).length }
    some (out ++ [last], [])
  else
    some (out, buf)

namespace SentenceSegmenter

/-- Push text and return newly completed sentences, in order. -/
def push (s : SentenceSegmenter) (text : Str) :
    Option (List CompletedSentence × SentenceSegmenter) :=
  (drainComplete (s.buf ++ text) false).map (fun r => (r.1, { s with buf := r.2 }))

/-- Seal the remaining buffer at a clean end; it may lack a terminator. -/
def sealAtCleanEnd (s : SentenceSegmenter) :
    Option (List CompletedSentence × SentenceSegmenter) :=
  (drainComplete s.buf true).map (fun r => (r.1, { s with buf := r.2 }))

/-- Discard the buffer at an abrupt end. -/
def takeUnresolved (s : SentenceSegmenter) : Str × SentenceSegmenter :=
  (s.buf, { s with buf := [] })

/-- The pushes of a list of fragments, one after the other. -/
def pushAll (s : SentenceSegmenter) : List Str → Option (List CompletedSentence × SentenceSegmenter)
  | [] => some ([], s)
  | text :: rest => do
      let (out, s) ← s.push text
      let (out', s) ← s.pushAll rest
      some (out ++ out', s)

/-- A run from an empty segmenter, with or without the seal at the end. -/
def segment (fragments : List Str) (sealed : Bool) :
    Option (List CompletedSentence × SentenceSegmenter) := do
  let (out, s) ← new.pushAll fragments
  if sealed then
    let (last, s) ← s.sealAtCleanEnd
    some (out ++ last, s)
  else
    some (out, s)

end SentenceSegmenter

end Monoloop.Interpreter
