import PipeBlocks.Pattern.Escape

/-! Sets of characters in brackets.

A set holds members, ranges of them, named sets and other sets, and joins such
lists with the operators `&&`, `--` and `~~`, from left to right. Sets are read for
their height: how deep they are nested, where a list of more than one item and an
operator count as a level, too. -/
namespace PipeBlocks.Pattern

/-- The height of a list of items; a list of one is no more than that item. -/
def listHeight : List Nat → Nat
  | [] => 0
  | [h] => h
  | hs => hs.foldl max 0 + 1

/-- What has been read of a set, as heights. -/
structure SetSoFar where
  /-- What stands to the left of the last operator. -/
  left : Option Nat := none
  /-- The items since, the last one first. -/
  items : List Nat := []
deriving DecidableEq, Repr

namespace SetSoFar

def add (s : SetSoFar) (height : Nat) : SetSoFar := { s with items := height :: s.items }

/-- The height of what is between the brackets. -/
def height (s : SetSoFar) : Nat :=
  match s.left with
  | none => listHeight s.items
  | some h => max h (listHeight s.items) + 1

/-- Starts the right side of an operator. -/
def operate (s : SetSoFar) : SetSoFar := { left := some s.height }

end SetSoFar

/-- Names of sets, as in `[:alpha:]`. -/
def setNames : List String :=
  ["alnum", "alpha", "ascii", "blank", "cntrl", "digit", "graph", "lower", "print", "punct",
    "space", "upper", "word", "xdigit"]

/-- Reads `:name:]` or `:^name:]`, what follows the bracket of a named set: whether
it is negated, and the rest. -/
def namedSet? : Text → Option (Bool × Text)
  | ':' :: r =>
    let negated := r.head? = some '^'
    let r := if negated then r.drop 1 else r
    let name := r.takeWhile (· ≠ ':')
    match r.drop name.length with
    | ':' :: ']' :: rest =>
      if setNames.contains (String.ofList name) then some (negated, rest) else none
    | _ => none
  | _ => none

/-- Reads the hyphens at the start of a set, at most `bound` of them. -/
def hyphens (o : Options) : (bound : Nat) → SetSoFar → Text → SetSoFar × Text
  | bound + 1, s, '-' :: r => hyphens o bound (s.add 0) (o.skip r)
  | _, s, t => (s, t)

/-- Reads what is special at the start of a set: a circumflex, which negates it, and
then hyphens or a closing bracket, which stand for themselves. -/
def openSet? (o : Options) (t : Text) : Option (SetSoFar × Text) :=
  let t := o.skip t
  let negated := t.head? = some '^'
  let t := if negated then o.skip (t.drop 1) else t
  if negated && !o.unicode then none
  else
    match hyphens o t.length {} t with
    | (⟨none, []⟩, ']' :: r) => some (({} : SetSoFar).add 0, o.skip r)
    | opened => some opened

/-- Reads a member of a set. -/
def member? (o : Options) (t : Text) : Option (Part × Text) := do
  let (part, r) ← match t with
    | [] => none
    | '\\' :: r => escape? o r
    | c :: r => some (.char c false, r)
  if part.isMember o then some (part, r) else none

/-- Reads a member or a range; a hyphen before `]` or another one is no range. -/
def memberOrRange? (o : Options) (t : Text) : Option Text := do
  let (first, r) ← member? o t
  match o.skip r with
  | '-' :: s =>
    if o.peek s = some ']' || o.peek s = some '-' then return '-' :: s
    else
      let (last, rest) ← member? o (o.skip s)
      match first, last with
      | .char a _, .char b _ => if a ≤ b then some rest else none
      | _, _ => none
  | rest => return rest

/-- Reads the rest of a set that is inside others, in at most `bound` steps: the
height of the outermost set, and what follows it. -/
def closeSet? (o : Options) :
    (bound : Nat) → SetSoFar → (outer : List SetSoFar) → Text → Option (Nat × Text)
  | 0, _, _, _ => none
  | bound + 1, s, outer, t =>
    match o.skip t with
    | '[' :: r =>
      match namedSet? r with
      | some (negated, rest) =>
        if negated && !o.unicode then none else closeSet? o bound (s.add 0) outer rest
      | none => do
        let (inner, rest) ← openSet? o r
        closeSet? o bound inner (s :: outer) rest
    | ']' :: r =>
      match outer with
      | [] => some (s.height + 1, r)
      | next :: outer => closeSet? o bound (next.add (s.height + 1)) outer r
    | '&' :: '&' :: r => closeSet? o bound s.operate outer r
    | '-' :: '-' :: r => closeSet? o bound s.operate outer r
    | '~' :: '~' :: r => closeSet? o bound s.operate outer r
    | t => do
      let rest ← memberOrRange? o t
      closeSet? o bound (s.add 0) outer rest

/-- Reads a set after its opening bracket: its height, and what follows it. -/
def set? (o : Options) (t : Text) : Option (Nat × Text) := do
  let (s, rest) ← openSet? o t
  closeSet? o (t.length + 1) s [] rest

end PipeBlocks.Pattern
