import PipeBlocks.Text.Basic

/-! Where a scan stands.

Every split of pipe syntax goes through one left-to-right scan. Outside a
string, `(`, `[` and `{` open a group and their partners close one; the depth
is signed, so a stray closer is remembered. `"` and `'` open a string that only
the same quote closes, and inside it a backslash hides the next character.
A `State` is what the scan knows before a character, `State.step` what it knows
after it. -/
namespace PipeBlocks.Scan

def isQuote (c : Char) : Bool := c == '"' || c == '\''

def isOpener (c : Char) : Bool := c == '(' || c == '[' || c == '{'

def isCloser (c : Char) : Bool := c == ')' || c == ']' || c == '}'

/-- Quotes and brackets have a meaning of their own, so they never separate. -/
def isStructural (c : Char) : Bool := isQuote c || isOpener c || isCloser c

inductive State where
  | code (depth : Int)
  /-- Inside a string opened by `quote` at bracket depth `depth`. -/
  | string (quote : Char) (escaped : Bool) (depth : Int)
deriving DecidableEq, Repr

namespace State

def start : State := .code 0

def step (c : Char) : State → State
  | .code depth =>
    if isQuote c then .string c false depth
    else if isOpener c then .code (depth + 1)
    else if isCloser c then .code (depth - 1)
    else .code depth
  | .string quote true depth => .string quote false depth
  | .string quote false depth =>
    if c = '\\' then .string quote true depth
    else if c = quote then .code depth
    else .string quote false depth

/-- The state after a whole text. -/
def run (s : State) (t : Text) : State := t.foldl (fun s c => s.step c) s

def inString : State → Bool
  | .code _ => false
  | .string .. => true

def depth : State → Int
  | .code depth => depth
  | .string _ _ depth => depth

@[simp] theorem run_nil (s : State) : s.run [] = s := rfl

@[simp] theorem run_cons (s : State) (c : Char) (r : Text) : s.run (c :: r) = (s.step c).run r := rfl

theorem run_append (s : State) (t u : Text) : s.run (t ++ u) = (s.run t).run u :=
  List.foldl_append

end State

/-- Whether a text leaves a string open. -/
def leavesStringOpen (t : Text) : Bool := (State.start.run t).inString

end PipeBlocks.Scan
