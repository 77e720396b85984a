import PipeBlocks.Pattern.Escape
import PipeBlocks.Text.Alphanumeric

/-! What an opening parenthesis starts: a group, named or not, or options. -/
namespace PipeBlocks.Pattern

inductive Opening where
  /-- A group that is known by a name. -/
  | named (name : Text)
  /-- A group, and the options inside it. -/
  | group (inside : Options)
  /-- Options alone, which hold up to the end of the enclosing group. -/
  | options (o : Options)
deriving DecidableEq, Repr

/-- Whether flags are known, given once, and switched off by one hyphen at most. -/
def areFlags (t : Text) : Bool :=
  t.all ("imsUuxR-".toList.contains ·) && decide t.Nodup && t.getLast? ≠ some '-'

/-- The setting of a flag, if it is among `flags`; after a hyphen it is off. -/
def flag? (flags : Text) (c : Char) : Option Bool :=
  if flags.contains c then some ((flags.takeWhile (· ≠ '-')).contains c) else none

/-- The options with flags applied; the others leave no trace in what is well formed. -/
def Options.set (o : Options) (flags : Text) : Options :=
  { verbose := (flag? flags 'x').getD o.verbose, unicode := (flag? flags 'u').getD o.unicode }

def isGroupName : Text → Bool
  | [] => false
  | c :: r =>
    (c == '_' || Text.isAlphabetic c) &&
      r.all fun d => "_.[]".toList.contains d || Text.isAlphanumeric d

/-- Reads a group's name and the `>` after it. -/
def groupName? (t : Text) : Option (Opening × Text) :=
  let name := t.takeWhile (· ≠ '>')
  match t.drop name.length with
  | _ :: rest => if isGroupName name then some (.named name, rest) else none
  | [] => none

/-- Reads flags, and the colon or parenthesis after them. -/
def flags? (o : Options) (t : Text) : Option (Opening × Text) :=
  let flags := t.takeWhile fun c => c ≠ ':' && c ≠ ')'
  if !areFlags flags then none
  else
    match t.drop flags.length with
    | ':' :: rest => some (.group (o.set flags), rest)
    | _ :: rest => if flags = [] then none else some (.options (o.set flags), rest)
    | [] => none

/-- Reads what follows an opening parenthesis. -/
def opening? (o : Options) (t : Text) : Option (Opening × Text) :=
  match o.skip t with
  | '?' :: 'P' :: '<' :: r => groupName? r
  | '?' :: '<' :: r => groupName? r
  | '?' :: r => flags? o r
  | r => some (.group o, r)

end PipeBlocks.Pattern
