import PipeBlocks.Text.Basic

/-! Reading positions in a YAML text.

A `Mark` counts bytes, lines and columns from zero, a column being a character; a
`Cursor` is a mark and the text that follows it. A line break is a line feed, a carriage return, both
together, or one of the breaks U+0085, U+2028 and U+2029. -/
namespace PipeBlocks.Yaml

structure Mark where
  index : Nat := 0
  line : Nat := 0
  column : Nat := 0
deriving DecidableEq, Repr, Inhabited

namespace Mark

/-- The mark behind a text on the same line. -/
def advance (m : Mark) (t : Text) : Mark :=
  { m with index := m.index + t.byteLength, column := m.column + t.length }

/-- The start of the next line, after a break of `n` bytes. -/
def nextLine (m : Mark) (n : Nat) : Mark := ⟨m.index + n, m.line + 1, 0⟩

/-- Where a text begins; messages do not mention this place. -/
def isOrigin (m : Mark) : Bool := m.line == 0 && m.column == 0

/-- Lines and columns as people count them, from one. -/
def describe (m : Mark) : String := s!"line {m.line + 1} column {m.column + 1}"

end Mark

/-! ### Classes of characters -/

def isBlank (c : Char) : Bool := c == ' ' || c == '\t'

def isBreak (c : Char) : Bool :=
  c == '\r' || c == '\n' || c == '\u0085' || c == '\u2028' || c == '\u2029'

def isGap (c : Char) : Bool := isBlank c || isBreak c

/-- The characters of names: anchors, directives and tag handles. -/
def isNameChar (c : Char) : Bool := c.isAlphanum || c == '_' || c == '-'

/-- What may stand in a YAML text. -/
def isAllowed (c : Char) : Bool :=
  let n := c.toNat
  n == 0x09 || n == 0x0A || n == 0x0D || (0x20 ≤ n && n ≤ 0x7E) || n == 0x85 ||
    (0xA0 ≤ n && n ≤ 0xD7FF) || (0xE000 ≤ n && n ≤ 0xFFFD) || 0x10000 ≤ n

/-- Whether a text is at its end, or goes on with white space. -/
def gapFollows : Text → Bool
  | [] => true
  | c :: _ => isGap c

/-! ### Cursors -/

structure Cursor where
  rest : Text
  mark : Mark := {}
deriving DecidableEq, Repr

namespace Cursor

def peek? (k : Cursor) : Option Char := k.rest.head?

def looksAt (k : Cursor) (c : Char) : Bool := k.rest.head? == some c

/-- Moves over `n` characters that are no line breaks. -/
def skip (k : Cursor) (n : Nat) : Cursor := ⟨k.rest.drop n, k.mark.advance (k.rest.take n)⟩

def skipWhile (k : Cursor) (p : Char → Bool) : Cursor := k.skip (k.rest.takeWhile p).length

/-- The characters up to the first that fails `p`, and the cursor after them. -/
def takeWhile (k : Cursor) (p : Char → Bool) : Text × Cursor :=
  (k.rest.takeWhile p, k.skipWhile p)

def skipBlanks (k : Cursor) : Cursor := k.skipWhile isBlank

/-- Moves to the end of the line if a comment starts here. -/
def skipComment (k : Cursor) : Cursor :=
  if k.looksAt '#' then k.skipWhile (!isBreak ·) else k

/-- The text that a line break stands for, and the cursor on the next line. -/
def takeBreak (k : Cursor) : Text × Cursor :=
  match k.rest with
  | '\r' :: '\n' :: r => (['\n'], ⟨r, k.mark.nextLine 2⟩)
  | c :: r =>
    if c == '\u2028' || c == '\u2029' then ([c], ⟨r, k.mark.nextLine c.utf8Size⟩)
    else if isBreak c then (['\n'], ⟨r, k.mark.nextLine c.utf8Size⟩)
    else ([], k)
  | [] => ([], k)

def skipBreak (k : Cursor) : Cursor := k.takeBreak.2

def atEnd (k : Cursor) : Bool := k.rest.isEmpty

def atGap (k : Cursor) : Bool := k.rest.head?.any isGap

def atBreak (k : Cursor) : Bool := k.rest.head?.any isBreak

def atBlank (k : Cursor) : Bool := k.rest.head?.any isBlank

/-- White space or the end of the text. -/
def atGapOrEnd (k : Cursor) : Bool := gapFollows k.rest

def atBreakOrEnd (k : Cursor) : Bool := k.atEnd || k.atBreak

/-- Three times `c` at the start of a line and then white space: a mark between documents. -/
def atDocumentMark (k : Cursor) (c : Char) : Bool :=
  k.mark.column == 0 && k.rest.take 3 == [c, c, c] && gapFollows (k.rest.drop 3)

def atDocumentEdge (k : Cursor) : Bool := k.atDocumentMark '-' || k.atDocumentMark '.'

end Cursor

end PipeBlocks.Yaml
