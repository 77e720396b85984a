import PipeBlocks.Scan.State

/-! Delimiters, and the places where they separate.

A delimiter separates at bracket depth zero outside strings. The pipe is
special: `||` is the host language's logical or, so pipes are read in pairs from
the left and only one that is left over separates. -/
namespace PipeBlocks.Scan

structure Delimiter where
  char : Char
  isAscii : char.toNat < 128
deriving DecidableEq

inductive DelimiterError where
  | notAscii
deriving DecidableEq, Repr

def DelimiterError.message : DelimiterError → String
  | .notAscii => "delimiter must be ASCII"

namespace Delimiter

def ofChar (c : Char) : Except DelimiterError Delimiter :=
  if h : c.toNat < 128 then .ok ⟨c, h⟩ else .error .notAscii

def pipe : Delimiter := ⟨'|', by decide⟩
def colon : Delimiter := ⟨':', by decide⟩
def comma : Delimiter := ⟨',', by decide⟩

end Delimiter

/-- Whether `c`, read in state `s`, is a delimiter that may separate. -/
def State.separates (s : State) (d : Delimiter) (c : Char) : Bool :=
  s == .code 0 && c == d.char && !isStructural c

/-- The byte offsets of the separators of a text that stands at byte `pos` and is read from `s`. -/
def offsetsFrom (d : Delimiter) (pos : Nat) (s : State) : Text → List Nat
  | [] => []
  | c :: r =>
    if s.separates d c then
      match c, r with
      | '|', '|' :: r => offsetsFrom d (pos + 2) s r
      | c, r => pos :: offsetsFrom d (pos + c.utf8Size) s r
    else offsetsFrom d (pos + c.utf8Size) (s.step c) r

def offsets (d : Delimiter) (t : Text) : List Nat := offsetsFrom d 0 .start t

/-- The pieces between the separators; there is always one more than there are separators. -/
def splitFrom (d : Delimiter) (s : State) : Text → List Text
  | [] => [[]]
  | c :: r =>
    if s.separates d c then
      match c, r with
      | '|', '|' :: r => (splitFrom d s r).modifyHead (['|', '|'] ++ ·)
      | _, r => [] :: splitFrom d s r
    else (splitFrom d (s.step c) r).modifyHead (c :: ·)

def split (d : Delimiter) (t : Text) : List Text := splitFrom d .start t

/-- The texts before and after the first separator. -/
def splitOnceFrom (d : Delimiter) (s : State) : Text → Option (Text × Text)
  | [] => none
  | c :: r =>
    if s.separates d c then
      match c, r with
      | '|', '|' :: r => (splitOnceFrom d s r).map fun p => ('|' :: '|' :: p.1, p.2)
      | _, r => some ([], r)
    else (splitOnceFrom d (s.step c) r).map fun p => (c :: p.1, p.2)

def splitOnce? (d : Delimiter) (t : Text) : Option (Text × Text) := splitOnceFrom d .start t

end PipeBlocks.Scan
