import PipeBlocks.Yaml.Problem
import PipeBlocks.Yaml.Token
import PipeBlocks.Text.Number

/-! Reading scalars: plain, quoted and block texts.

Line breaks inside plain and quoted scalars fold: a single break becomes a space
and of several all but the first stay. Block scalars keep their lines (literal)
or fold them (folded) and cut or keep the breaks at the end. -/
namespace PipeBlocks.Yaml

/-! ### White space inside a scalar -/

/-- A run of blanks and line breaks between two runs of text. -/
structure Gap where
  /-- The blanks before the first break. -/
  blanks : Text := []
  /-- A line break has been read. -/
  broken : Bool := false
  firstBreak : Text := []
  laterBreaks : Text := []
deriving DecidableEq, Repr

namespace Gap

/-- What the gap amounts to inside the scalar. -/
def folded (g : Gap) : Text :=
  if g.broken then
    if g.firstBreak = ['\n'] then
      if g.laterBreaks = [] then [' '] else g.laterBreaks
    else g.firstBreak ++ g.laterBreaks
  else g.blanks

/-- Reads a gap of at most `bound` characters. A tab left of column `indent` on a
line of its own has no place in a scalar that starts at `start`. -/
def readFrom (indent : Int) (start : Mark) : Nat → Gap → Cursor → Except Problem (Gap × Cursor)
  | 0, g, k => .ok (g, k)
  | bound + 1, g, k =>
    match k.peek? with
    | none => .ok (g, k)
    | some c =>
      if isBlank c then
        if g.broken then
          if c = '\t' && (k.mark.column : Int) < indent then
            .error (.during .plainScalar start .tabInIndentation k.mark)
          else readFrom indent start bound g (k.skip 1)
        else readFrom indent start bound { g with blanks := g.blanks ++ [c] } (k.skip 1)
      else if isBreak c then
        let (text, k) := k.takeBreak
        if g.broken then readFrom indent start bound { g with laterBreaks := g.laterBreaks ++ text } k
        else readFrom indent start bound { g with broken := true, firstBreak := text } k
      else .ok (g, k)

def read (indent : Int) (start : Mark) (k : Cursor) : Except Problem (Gap × Cursor) :=
  readFrom indent start k.rest.length {} k

end Gap

/-! ### Plain scalars -/

def isFlowIndicator (c : Char) : Bool :=
  c == ',' || c == '[' || c == ']' || c == '{' || c == '}'

/-- The text up to white space or an indicator that ends a plain scalar. -/
def plainRun (inFlow : Bool) : Text → Text
  | [] => []
  | c :: r =>
    if isGap c || (c == ':' && gapFollows r) || (inFlow && isFlowIndicator c) then []
    else if inFlow && c == ':' && r.head?.any (fun d => d == '?' || isFlowIndicator d) then []
    else c :: plainRun inFlow r

/-- A plain scalar that has been read. -/
structure PlainScalar where
  text : Text
  /-- Whether line breaks were passed after the text. -/
  endsLine : Bool
  cursor : Cursor

/-- Reads chunks of text and the gaps between them; `g` is the gap just passed. -/
def readPlainFrom (inFlow : Bool) (indent : Int) (start : Mark) :
    Nat → (text : Text) → (g : Gap) → Cursor → Except Problem PlainScalar
  | 0, text, g, k => .ok ⟨text, g.broken, k⟩
  | bound + 1, text, g, k =>
    if k.atDocumentEdge || k.looksAt '#' then .ok ⟨text, g.broken, k⟩
    else
      let run := plainRun inFlow k.rest
      let k := k.skip run.length
      if inFlow && k.looksAt ':' && !gapFollows (k.rest.drop 1) then
        .error (.during .plainScalar start .unexpectedColon k.mark)
      else
        let (text, g) := if run = [] then (text, g) else (text ++ g.folded ++ run, {})
        if !k.atGap then .ok ⟨text, g.broken, k⟩
        else do
          let (g, k) ← Gap.read indent start k
          if !inFlow && (k.mark.column : Int) < indent then return ⟨text, g.broken, k⟩
          else readPlainFrom inFlow indent start bound text g k

/-- Reads the plain scalar at the cursor, inside a block indented by `parent`. -/
def readPlain (inFlow : Bool) (parent : Int) (k : Cursor) : Except Problem PlainScalar :=
  readPlainFrom inFlow (parent + 1) k.mark (k.rest.length + 1) [] {} k

/-! ### Quoted scalars -/

/-- What a backslash and one character stand for. -/
def shortEscape? : Char → Option Char
  | '0' => some '\x00'
  | 'a' => some '\x07'
  | 'b' => some '\x08'
  | 't' | '\t' => some '\t'
  | 'n' => some '\n'
  | 'v' => some '\x0B'
  | 'f' => some '\x0C'
  | 'r' => some '\r'
  | 'e' => some '\x1B'
  | ' ' => some ' '
  | '"' => some '"'
  | '/' => some '/'
  | '\\' => some '\\'
  | 'N' => some '\u0085'
  | '_' => some '\u00A0'
  | 'L' => some '\u2028'
  | 'P' => some '\u2029'
  | _ => none

/-- How many hexadecimal digits follow a backslash and this character. -/
def escapeDigits? : Char → Option Nat
  | 'x' => some 2
  | 'u' => some 4
  | 'U' => some 8
  | _ => none

/-- Reads the escape at the cursor, a backslash and what belongs to it. -/
def readEscape (start : Mark) (k : Cursor) : Except Problem (Char × Cursor) :=
  let refuse (fault : Fault) (k : Cursor) := .error (.during .escape start fault k.mark)
  match k.rest.drop 1 with
  | [] => refuse .unknownEscape k
  | c :: digits =>
    match shortEscape? c, escapeDigits? c with
    | some d, _ => .ok (d, k.skip 2)
    | none, none => refuse .unknownEscape k
    | none, some count =>
      let k := k.skip 2
      if digits.length < count then refuse .badHexDigit k
      else
        match Text.toNat? 16 (digits.take count) with
        | none => refuse .badHexDigit k
        | some n =>
          if n.isValidChar then .ok (Char.ofNat n, k.skip count)
          else refuse .badEscapedCharacter k

/-- Reads up to and over the closing quote. -/
def readQuotedFrom (quote : Char) (start : Mark) : Nat → Cursor → Except Problem (Text × Cursor)
  | 0, k => .ok ([], k)
  | bound + 1, k =>
    let goOn (piece : Text) (k : Cursor) : Except Problem (Text × Cursor) := do
      let (text, k) ← readQuotedFrom quote start bound k
      return (piece ++ text, k)
    if k.atDocumentEdge then .error (.during .quotedScalar start .unexpectedDocumentMark k.mark)
    else
      match k.rest with
      | [] => .error (.during .quotedScalar start .unexpectedEnd k.mark)
      | c :: r =>
        if c = quote then
          if quote = '\'' && r.head? = some '\'' then goOn ['\''] (k.skip 2)
          else .ok ([], k.skip 1)
        else if isGap c then do
          let (g, k) ← Gap.read 0 start k
          goOn g.folded k
        else if quote = '"' && c = '\\' then
          if r.head?.any isBreak then do
            let k := (k.skip 1).skipBreak
            let (g, k) ← Gap.readFrom 0 start k.rest.length { broken := true } k
            goOn g.folded k
          else do
            let (d, k) ← readEscape start k
            goOn [d] k
        else goOn [c] (k.skip 1)

/-- Reads the quoted scalar at the cursor, quotes included. -/
def readQuoted (quote : Char) (k : Cursor) : Except Problem (Text × Cursor) :=
  readQuotedFrom quote k.mark (k.rest.length + 1) (k.skip 1)

/-! ### Block scalars -/

/-- What becomes of the line breaks after the last line. -/
inductive Chomping where
  | strip
  | clip
  | keep
deriving DecidableEq, Repr

def chomping? : Char → Option Chomping
  | '-' => some .strip
  | '+' => some .keep
  | _ => none

/-- Reads a digit that says how far the text is indented. -/
def readIndentation? (start : Mark) (k : Cursor) : Except Problem (Option Nat × Cursor) :=
  match k.peek? with
  | some c =>
    if c = '0' then .error (.during .blockScalar start .zeroIndentation k.mark)
    else if c.isDigit then .ok (some (c.toNat - '0'.toNat), k.skip 1)
    else .ok (none, k)
  | none => .ok (none, k)

/-- Reads the indicators after `|` or `>`, in either order. -/
def readBlockHeader (start : Mark) (k : Cursor) : Except Problem (Chomping × Option Nat × Cursor) := do
  match k.peek?.bind chomping? with
  | some chomping =>
    let (indentation, k) ← readIndentation? start (k.skip 1)
    return (chomping, indentation, k)
  | none =>
    let (indentation, k) ← readIndentation? start k
    match indentation, k.peek?.bind chomping? with
    | some n, some chomping => return (chomping, some n, k.skip 1)
    | _, _ => return (.clip, indentation, k)

/-- Reads empty lines. With no indentation yet known, leading spaces of any number
are taken and the largest number is remembered. -/
def readEmptyLines (indent : Option Nat) (start : Mark) :
    Nat → (widest : Nat) → Cursor → Except Problem (Nat × Text × Cursor)
  | 0, widest, k => .ok (widest, [], k)
  | bound + 1, widest, k =>
    let spaces := (k.rest.takeWhile (· == ' ')).length
    let k := k.skip (match indent with
      | none => spaces
      | some n => min spaces (n - k.mark.column))
    let widest := max widest k.mark.column
    if k.looksAt '\t' && indent.all (k.mark.column < ·) then
      .error (.during .blockScalar start .tabForIndentation k.mark)
    else if k.atBreak then do
      let (lineBreak, k) := k.takeBreak
      let (widest, breaks, k) ← readEmptyLines indent start bound widest k
      return (widest, lineBreak ++ breaks, k)
    else .ok (widest, [], k)

/-- The line break and the empty lines that separate a line from the one before. -/
structure BlockGap where
  lineBreak : Text := []
  emptyLines : Text := []
  /-- Whether the line before starts with a blank, which keeps it from folding. -/
  afterBlank : Bool := false

def BlockGap.folded (g : BlockGap) (style : Style) (beforeBlank : Bool) : Text :=
  if style = .folded && g.lineBreak = ['\n'] && !g.afterBlank && !beforeBlank then
    if g.emptyLines = [] then [' '] else g.emptyLines
  else g.lineBreak ++ g.emptyLines

/-- Reads the lines that are indented by `indent`; `g` is what separates them from the lines before. -/
def readBlockLines (style : Style) (indent : Nat) (start : Mark) :
    Nat → (g : BlockGap) → Cursor → Except Problem (Text × BlockGap × Cursor)
  | 0, g, k => .ok ([], g, k)
  | bound + 1, g, k =>
    if k.mark.column = indent && !k.atEnd then do
      let beforeBlank := k.atBlank
      let (line, k) := k.takeWhile (!isBreak ·)
      let (lineBreak, k) := k.takeBreak
      let (_, emptyLines, k) ← readEmptyLines (some indent) start (k.rest.length + 1) 0 k
      let (text, last, k) ←
        readBlockLines style indent start bound ⟨lineBreak, emptyLines, beforeBlank⟩ k
      return (g.folded style beforeBlank ++ line ++ text, last, k)
    else .ok ([], g, k)

/-- Reads the block scalar at the cursor, inside a block indented by `parent`. -/
def readBlock (style : Style) (parent : Int) (k : Cursor) : Except Problem (Text × Cursor) := do
  let start := k.mark
  let (chomping, indentation, k) ← readBlockHeader start (k.skip 1)
  let k := k.skipBlanks.skipComment
  if !k.atBreakOrEnd then throw (.during .blockScalar start .trailingText k.mark)
  let k := k.skipBreak
  let indent? := indentation.map (parent.toNat + ·)
  let (widest, emptyLines, k) ← readEmptyLines indent? start (k.rest.length + 1) 0 k
  let indent := indent?.getD (max widest (max (parent + 1) 1).toNat)
  let (text, g, k) ← readBlockLines style indent start (k.rest.length + 1) { emptyLines } k
  let ending := match chomping with
    | .strip => []
    | .clip => g.lineBreak
    | .keep => g.lineBreak ++ g.emptyLines
  return (text ++ ending, k)

end PipeBlocks.Yaml
