import PipeBlocks.Scan.Delimiter
import PipeBlocks.Text.Blank

/-! Interpolation blocks: `{expression | chain}`.

A block keeps the text it was read from and where that text starts. The two
halves are cut at the first pipe that separates and trimmed. -/
namespace PipeBlocks

structure Block where
  /-- The whole block as written, braces included. -/
  raw : Text
  expression : Text
  chain : Text
  /-- The byte offset of the opening brace. -/
  start : Nat
deriving DecidableEq, Repr

namespace Block

/-- The text between an opening brace at the start and a closing one at the end. -/
def inner? : Text → Option Text
  | '{' :: r => if r.getLast? = some '}' then some r.dropLast else none
  | _ => none

/-- Reads a brace span; without a separating pipe it is ordinary markup and no block. -/
def parse? (raw : Text) (start : Nat) : Option Block := do
  let content ← inner? raw
  let (expression, chain) ← Scan.splitOnce? .pipe content
  return ⟨raw, expression.trim, chain.trim, start⟩

/-- The byte offset just past the block. -/
def stop (b : Block) : Nat := b.start + b.raw.byteLength

def content (b : Block) : Text := (inner? b.raw).getD b.raw

/-- Whether both halves hold text and every string is closed. Other blocks stay as written. -/
def isComplete (b : Block) : Bool :=
  b.expression ≠ [] && b.chain ≠ [] && !Scan.leavesStringOpen b.content

end Block

end PipeBlocks
