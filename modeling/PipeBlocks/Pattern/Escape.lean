import PipeBlocks.Text.Blank
import PipeBlocks.Text.Number

/-! The smallest parts of a regular expression, and how escapes write them.

A pattern is read under two options. In verbose mode white space between its parts
has no meaning, and `#` starts a comment that runs to the end of the line. In
Unicode mode patterns stand for characters, otherwise for bytes; as they may only
match well-formed text, a part that stands for a byte beyond ASCII is not allowed. -/
namespace PipeBlocks.Pattern

structure Options where
  verbose : Bool := false
  unicode : Bool := true
deriving DecidableEq, Repr

/-! ### White space and comments -/

/-- The text after white space and comments; it may start within a comment. -/
def skipBlank (inComment : Bool) : Text → Text
  | [] => []
  | c :: r =>
    if inComment then skipBlank (c ≠ '\n') r
    else if Text.isSpace c then skipBlank false r
    else if c = '#' then skipBlank true r
    else c :: r

/-- The text from the next part on. -/
def Options.skip (o : Options) (t : Text) : Text := if o.verbose then skipBlank false t else t

/-- The next character that is neither white space nor the first `#`. -/
def peekBlank (seenHash : Bool) : Text → Option Char
  | [] => none
  | c :: r =>
    if Text.isSpace c then peekBlank seenHash r
    else if c = '#' && !seenHash then peekBlank true r
    else some c

/-- The character that tells whether a hyphen before `t` is part of a range. In
verbose mode comments are not passed over as a whole, only their `#` is. -/
def Options.peek (o : Options) (t : Text) : Option Char :=
  if o.verbose then (peekBlank false t).or t.head? else t.head?

/-! ### Parts -/

inductive Part where
  /-- A character; `ofByte` if it is written as a byte. -/
  | char (c : Char) (ofByte : Bool)
  /-- Any character but a line feed. -/
  | any
  /-- A place; `ofWords` if it is told by the words around it. -/
  | place (ofWords : Bool)
  /-- Digits, white space or the characters of words, or all others. -/
  | kind (negated : Bool)
  /-- A general category. -/
  | category
deriving DecidableEq, Repr

def isAscii (c : Char) : Bool := c.toNat < 0x80

/-- Whether a part may stand outside sets. In Unicode mode the edges of words have
no automaton. -/
def Part.isAllowed (o : Options) : Part → Bool
  | .char c ofByte => o.unicode || !ofByte || isAscii c
  | .any | .category => o.unicode
  | .place ofWords => !(ofWords && o.unicode)
  | .kind negated => o.unicode || !negated

/-- Whether a part may stand in a set. -/
def Part.isMember (o : Options) : Part → Bool
  | .char c _ => o.unicode || isAscii c
  | .category => o.unicode
  | .kind negated => o.unicode || !negated
  | .any | .place _ => false

/-! ### Escapes -/

/-- How many hexadecimal digits follow a backslash and this character. -/
def escapeDigits? : Char → Option Nat
  | 'x' => some 2
  | 'u' => some 4
  | 'U' => some 8
  | _ => none

/-- Reads hexadecimal digits, before each of which there may be blanks. -/
def hexDigits? (o : Options) : Nat → Text → Option (Text × Text)
  | 0, t => some ([], t)
  | n + 1, t =>
    match o.skip t with
    | [] => none
    | c :: r => (hexDigits? o n r).map fun (digits, rest) => (c :: digits, rest)

def isScalar (n : Nat) : Bool := n < 0xD800 || (0xDFFF < n && n < 0x110000)

/-- Letters that stand for a part of their own after a backslash. -/
def letter? : Char → Option Part
  | 'a' => some (.char '\x07' false)
  | 'f' => some (.char '\x0c' false)
  | 't' => some (.char '\t' false)
  | 'n' => some (.char '\n' false)
  | 'r' => some (.char '\r' false)
  | 'v' => some (.char '\x0b' false)
  | 'd' | 's' | 'w' => some (.kind false)
  | 'D' | 'S' | 'W' => some (.kind true)
  | 'A' | 'z' => some (.place false)
  | 'b' | 'B' | '<' | '>' => some (.place true)
  | _ => none

/-- The letters of the general categories that `\p` takes, in any case. -/
def isCategory (c : Char) : Bool := "CLMNPSZ".toList.contains c.toUpper

/-- Reads what follows a backslash; any other ASCII character but a letter or a
digit stands for itself. -/
def escape? (o : Options) : Text → Option (Part × Text)
  | [] => none
  | c :: r =>
    match escapeDigits? c, letter? c with
    | some count, _ => do
      let (digits, rest) ← hexDigits? o count r
      let code ← Text.toNat? 16 digits
      if isScalar code then some (.char (Char.ofNat code) (count = 2), rest) else none
    | none, some part => some (part, r)
    | none, none =>
      if c = 'p' || c = 'P' then
        match o.skip r with
        | [] => none
        | d :: rest => if isCategory d then some (.category, rest) else none
      else if isAscii c && !c.isAlphanum then some (.char c false, r)
      else none

/-- Reads a part that no bracket, parenthesis or operator starts. -/
def part? (o : Options) : Text → Option (Part × Text)
  | [] => none
  | '\\' :: r => escape? o r
  | '.' :: r => some (.any, r)
  | '^' :: r | '$' :: r => some (.place false, r)
  | c :: r => some (.char c false, r)

end PipeBlocks.Pattern
