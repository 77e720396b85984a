import PipeBlocks.Yaml.Problem
import PipeBlocks.Yaml.Token
import PipeBlocks.Yaml.Scalar

/-! Reading what stands beside the content: anchors, aliases, tags and directives. -/
namespace PipeBlocks.Yaml

/-- What an anchor or alias name may be followed by, apart from white space. -/
def endsName (c : Char) : Bool :=
  c == '?' || c == ':' || c == ',' || c == ']' || c == '}' || c == '%' || c == '@' || c == '\x60'

/-- Reads the name after `&` or `*`. -/
def readName (activity : Activity) (k : Cursor) : Except Problem (Text × Cursor) :=
  let start := k.mark
  let (name, k) := (k.skip 1).takeWhile isNameChar
  if name ≠ [] && (k.atGapOrEnd || k.peek?.any endsName) then .ok (name, k)
  else .error (.during activity start .missingName k.mark)

/-! ### Tags -/

/-- What is being read, and since where: tags occur in directives too. -/
structure TagPlace where
  inDirective : Bool
  start : Mark

inductive TagPart where
  | whole
  | handle
  | handleEnd
  | text

def TagPlace.activity (p : TagPlace) : TagPart → Activity
  | .whole => if p.inDirective then .tagDirective else .tag
  | .handle => if p.inDirective then .directiveHandle else .tag
  | .handleEnd => if p.inDirective then .directiveHandleEnd else .tagText
  | .text => if p.inDirective then .tagDirectiveText else .tagText

def TagPlace.fail (p : TagPlace) (part : TagPart) (fault : Fault) (k : Cursor) : Except Problem α :=
  .error (.during (p.activity part) p.start fault k.mark)

def isTagChar (verbatim : Bool) (c : Char) : Bool :=
  isNameChar c || ";/?:@&=+$.%!~*'()".toList.contains c ||
    (verbatim && (c == ',' || c == '[' || c == ']'))

/-- How many bytes a character takes whose UTF-8 form starts with this byte. -/
def utf8Width? (n : Nat) : Option Nat :=
  if n < 0x80 then some 1
  else if 0xC0 ≤ n && n < 0xE0 then some 2
  else if 0xE0 ≤ n && n < 0xF0 then some 3
  else if 0xF0 ≤ n && n < 0xF8 then some 4
  else none

/-- The byte written as `%` and two hexadecimal digits. -/
def readPercentByte (p : TagPlace) (k : Cursor) : Except Problem (Nat × Cursor) :=
  match k.rest with
  | '%' :: a :: b :: _ =>
    match Text.toNat? 16 [a, b] with
    | some n => .ok (n, k.skip 3)
    | none => p.fail .text .badTagEscape k
  | _ => p.fail .text .badTagEscape k

def readTrailingBytes (p : TagPlace) : Nat → Cursor → Except Problem (List Nat × Cursor)
  | 0, k => .ok ([], k)
  | count + 1, k => do
    let (n, k') ← readPercentByte p k
    if n < 0x80 || 0xC0 ≤ n then p.fail .text .badTrailingByte k
    else
      let (rest, k) ← readTrailingBytes p count k'
      return (n :: rest, k)

/-- The character with a UTF-8 form of `width` bytes and this code point; bytes that
are no character's form stand for the replacement character. -/
def charOfWidth (width n : Nat) : Char :=
  let c := Char.ofNat n
  if n.isValidChar && c.utf8Size = width then c else '\uFFFD'

/-- Reads one character written in `%` bytes. -/
def readPercentChar (p : TagPlace) (k : Cursor) : Except Problem (Char × Cursor) := do
  let (n, k') ← readPercentByte p k
  match utf8Width? n with
  | none => p.fail .text .badLeadingByte k
  | some width =>
    let (rest, k) ← readTrailingBytes p (width - 1) k'
    let lead := if width = 1 then n else n % Nat.pow 2 (7 - width)
    return (charOfWidth width (rest.foldl (fun value byte => 64 * value + byte % 64) lead), k)

def readTagChars (p : TagPlace) (verbatim : Bool) : Nat → Cursor → Except Problem (Text × Cursor)
  | 0, k => .ok ([], k)
  | bound + 1, k =>
    match k.peek? with
    | none => .ok ([], k)
    | some c =>
      if !isTagChar verbatim c then .ok ([], k)
      else do
        let (d, k) ← if c = '%' then readPercentChar p k else pure (c, k.skip 1)
        let (text, k) ← readTagChars p verbatim bound k
        return (d :: text, k)

/-- Reads the text of a tag, which may be empty only after a one-character beginning.
A null character ends the text, whatever is written behind it. -/
def readTagText (p : TagPlace) (verbatim : Bool) (beginning : Text) (k : Cursor) :
    Except Problem (Text × Cursor) := do
  let (text, k) ← readTagChars p verbatim k.rest.length k
  if beginning = [] && text = [] then p.fail .text .missingTagText k
  else return (beginning.drop 1 ++ text.takeWhile (· ≠ '\x00'), k)

/-- Reads `!`, `!!` or `!name!`; outside directives also the beginning of `!suffix`. -/
def readTagHandle (p : TagPlace) (k : Cursor) : Except Problem (Text × Cursor) :=
  if !k.looksAt '!' then p.fail .handle .missingExclamation k
  else
    let (name, k) := (k.skip 1).takeWhile isNameChar
    if k.looksAt '!' then .ok ('!' :: name ++ ['!'], k.skip 1)
    else if p.inDirective && name ≠ [] then p.fail .handleEnd .missingExclamation k
    else .ok ('!' :: name, k)

/-- Reads a tag: `!<verbatim>`, `!handle!suffix`, `!suffix` or `!` alone. -/
def readTag (inFlow : Bool) (k : Cursor) : Except Problem (TagName × Cursor) := do
  let p : TagPlace := ⟨false, k.mark⟩
  let (name, k) ← show Except Problem (TagName × Cursor) from
    if (k.skip 1).looksAt '<' then do
      let (suffix, k) ← readTagText p true [] (k.skip 2)
      if !k.looksAt '>' then p.fail .whole .missingTagEnd k
      else return (⟨[], suffix⟩, k.skip 1)
    else do
      let (handle, k) ← readTagHandle p k
      if 2 ≤ handle.length && handle.getLast? = some '!' then
        let (suffix, k) ← readTagText p false [] k
        return (⟨handle, suffix⟩, k)
      else
        let (suffix, k) ← readTagText p false handle k
        return (if suffix = [] then ⟨[], ['!']⟩ else ⟨['!'], suffix⟩, k)
  if k.atGapOrEnd || (inFlow && k.looksAt ',') then return (name, k)
  else p.fail .whole .missingSpaceAfterTag k

/-! ### Directives -/

/-- Reads one of the two numbers of a version, of at most nine digits. -/
def readVersionNumber (start : Mark) (k : Cursor) : Except Problem (Nat × Cursor) :=
  let digits := k.rest.takeWhile Char.isDigit
  let fail (fault : Fault) (k : Cursor) := .error (.during .versionDirective start fault k.mark)
  if digits.length > 9 then fail .longVersionNumber (k.skip 9)
  else if digits = [] then fail .missingVersionNumber k
  else .ok (digits.foldl (fun n c => 10 * n + (c.toNat - '0'.toNat)) 0, k.skip digits.length)

def readVersion (start : Mark) (k : Cursor) : Except Problem (Lexeme × Cursor) := do
  let (major, k) ← readVersionNumber start k.skipBlanks
  if !k.looksAt '.' then throw (.during .versionDirective start .missingVersionPart k.mark)
  let (minor, k) ← readVersionNumber start (k.skip 1)
  return (.versionDirective major minor, k)

def readTagDirective (start : Mark) (k : Cursor) : Except Problem (Lexeme × Cursor) := do
  let p : TagPlace := ⟨true, start⟩
  let (handle, k) ← readTagHandle p k.skipBlanks
  if !k.atBlank then p.fail .whole .missingSpace k
  let (stands, k) ← readTagText p true [] k.skipBlanks
  if !k.atGapOrEnd then p.fail .whole .missingSpaceAfterTag k
  return (.tagDirective handle stands, k)

/-- Reads a directive and the rest of its line. Its token ends before that rest. -/
def readDirective (k : Cursor) : Except Problem (Token × Cursor) := do
  let start := k.mark
  let fail {α} (fault : Fault) (k : Cursor) : Except Problem α :=
    .error (.during .directive start fault k.mark)
  let (name, k) := (k.skip 1).takeWhile isNameChar
  if name = [] then fail .missingDirectiveName k
  if !k.atGapOrEnd then fail .badDirectiveName k
  let (lexeme, k) ←
    if name = "YAML".toList then readVersion start k
    else if name = "TAG".toList then readTagDirective start k
    else fail .unknownDirective k
  let token : Token := ⟨lexeme, start, k.mark⟩
  let k := k.skipBlanks.skipComment
  if !k.atBreakOrEnd then fail .trailingText k
  return (token, k.skipBreak)

end PipeBlocks.Yaml
