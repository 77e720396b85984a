import PipeBlocks.Scan.Delimiter
import PipeBlocks.Text.Blank

/-! Pipe chains.

A chain is what follows the first pipe of a block: stages separated by pipes.
A stage is a name and, after a colon, arguments separated by commas. Each of the
three splits minds strings and brackets, so `|`, `:` and `,` may occur in them. -/
namespace PipeBlocks

open Scan (Delimiter split splitOnce?)

/-- The arguments in an argument text. Blank arguments count, except one after the last comma. -/
def arguments (t : Text) : List Text :=
  if t.isBlank then []
  else
    let tokens := (split .comma t).map Text.trim
    if tokens.getLast? = some [] then tokens.dropLast else tokens

structure Stage where
  name : Text
  args : Text
deriving DecidableEq, Repr

namespace Stage

def parse (segment : Text) : Stage :=
  match splitOnce? .colon segment with
  | some (name, args) => ⟨name.trim, args.trim⟩
  | none => ⟨segment.trim, []⟩

def arguments (s : Stage) : List Text := PipeBlocks.arguments s.args

end Stage

/-- The stages of a chain, left to right; blank segments do not count. -/
def stages (chain : Text) : List Stage :=
  (((split .pipe chain).map Text.trim).filter (· ≠ [])).map Stage.parse

end PipeBlocks
