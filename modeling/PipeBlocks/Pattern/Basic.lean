import PipeBlocks.Pattern.Group
import PipeBlocks.Pattern.Set

/-! Regular expressions that can be compiled.

No text is ever compared with a pattern here, so a pattern is read for its height
only: how deep groups, repetitions, sets, alternatives and sequences are nested.
`Pattern.height?` has none for a text that is no pattern. Counted repetitions are
left out, since patterns come from texts without a closing brace. -/
namespace PipeBlocks.Pattern

/-- An item of a sequence. Options are items, but cannot be repeated. -/
structure Item where
  height : Nat
  repeatable : Bool := true
deriving DecidableEq, Repr

/-- What has been read of a group, or of the whole pattern. -/
structure Body where
  options : Options := {}
  /-- The heights of the alternatives before the last one. -/
  alternatives : List Nat := []
  /-- The items of the last alternative, the last one first. -/
  items : List Item := []
deriving DecidableEq, Repr

namespace Body

def add (b : Body) (i : Item) : Body := { b with items := i :: b.items }

def height (b : Body) : Nat :=
  listHeight (listHeight (b.items.map (·.height)) :: b.alternatives)

/-- Starts the next alternative. -/
def alternate (b : Body) : Body :=
  { b with alternatives := listHeight (b.items.map (·.height)) :: b.alternatives, items := [] }

/-- Repeats the last item. -/
def repeatLast? (b : Body) : Option Body :=
  match b.items with
  | ⟨height, true⟩ :: items => some { b with items := ⟨height + 1, true⟩ :: items }
  | _ => none

end Body

/-- What has been read of a pattern. -/
structure SoFar where
  body : Body := {}
  /-- The groups around it, the innermost first. -/
  outer : List Body := []
  /-- The names of groups. -/
  names : List Text := []
deriving DecidableEq, Repr

namespace SoFar

/-- Opens a group. -/
def push (s : SoFar) (inside : Options) : SoFar :=
  { s with body := { options := inside }, outer := s.body :: s.outer }

/-- Opens a group, or changes the options; no two groups have the same name. -/
def open? (s : SoFar) : Opening → Option SoFar
  | .named name =>
    if s.names.contains name then none
    else some { s.push s.body.options with names := name :: s.names }
  | .group inside => some (s.push inside)
  | .options o => some { s with body := { s.body.add ⟨0, false⟩ with options := o } }

/-- Closes a group. -/
def close? (s : SoFar) : Option SoFar :=
  match s.outer with
  | [] => none
  | b :: outer => some { s with body := b.add ⟨s.body.height + 1, true⟩, outer }

def add (s : SoFar) (height : Nat) : SoFar := { s with body := s.body.add ⟨height, true⟩ }

/-- Takes the next item or sign, which starts with `c`. -/
def step? (s : SoFar) (c : Char) (r : Text) : Option (SoFar × Text) :=
  let o := s.body.options
  if c = '(' then do
    let (opening, rest) ← opening? o r
    return (← s.open? opening, rest)
  else if c = ')' then s.close?.map (·, r)
  else if c = '|' then some ({ s with body := s.body.alternate }, r)
  else if c = '[' then (set? o r).map fun (height, rest) => (s.add height, rest)
  else if c = '*' || c = '+' || c = '?' then do
    let body ← s.body.repeatLast?
    return ({ s with body }, if r.head? = some '?' then r.drop 1 else r)
  else if c = '\x7b' then none
  else do
    let (part, rest) ← part? o (c :: r)
    if part.isAllowed o then some (s.add 0, rest) else none

/-- Takes the rest of a pattern in at most `bound` steps: its height. -/
def run? : (bound : Nat) → SoFar → Text → Option Nat
  | 0, _, _ => none
  | bound + 1, s, t =>
    match s.body.options.skip t with
    | [] => if s.outer = [] then some s.body.height else none
    | c :: r => (s.step? c r).bind fun (s, rest) => run? bound s rest

end SoFar

/-- The height of a pattern. -/
def height? (t : Text) : Option Nat := SoFar.run? (t.length + 1) {} t

/-- Deeper patterns are refused. -/
def maxHeight : Nat := 250

def isAccepted (t : Text) : Bool := (height? t).any (· ≤ maxHeight)

end PipeBlocks.Pattern
