import PipeBlocks.Block.Segments
import PipeBlocks.Call
import PipeBlocks.Exclusions
import PipeBlocks.Names

/-! Expanding the blocks of template documents.

`Expander.expand` replaces each block that can be written as a call and
keeps everything else as it is. A block that fails is reported and kept, so a
document always has a result. The result is put together segment by segment:
`Options.contribution` is all that one segment adds to the code, to the records
and to the events. -/
namespace PipeBlocks

structure Options where
  namePrefix : Text := []
  debug : Bool := false
deriving DecidableEq, Repr

/-- A block that was replaced. -/
structure Record where
  before : Text
  after : Text
  offset : Nat
deriving DecidableEq, Repr

inductive Event where
  | skipping (filename pattern : Text)
  | processing (filename : Text)
  | replaced (before after : Text)
  | unchanged (filename : Text) (offset : Nat) (block : Text) (error : CallError)
deriving DecidableEq, Repr

structure Expansion where
  code : Text
  /-- The replaced blocks; kept only in debug mode. -/
  replacements : List Record := []
  skipped : Bool := false
  events : List Event := []
deriving DecidableEq, Repr

structure Contribution where
  code : Text
  replacements : List Record := []
  events : List Event := []
deriving DecidableEq, Repr

def Options.contribution (o : Options) (filename : Text) : Segment → Contribution
  | .text t => { code := t }
  | .block b =>
    if b.isComplete then
      match b.replacement o.namePrefix with
      | .ok after =>
        if o.debug then
          { code := after
            replacements := [⟨b.raw, after, b.start⟩]
            events := [.replaced b.raw after] }
        else { code := after }
      | .error e => { code := b.raw, events := [.unchanged filename b.start b.raw e] }
    else { code := b.raw }

structure Expander where
  options : Options := {}
  exclusions : Exclusions := {}
deriving DecidableEq, Repr

namespace Expander

def ofOptions (o : Options) : Expander := { options := o }

def exclude (p : Expander) (pattern : Text) : Expander :=
  { p with exclusions := p.exclusions.insert pattern }

/-- Expands a document; the file name only decides whether it is excluded. -/
def expand (p : Expander) (content filename : Text) : Expansion :=
  match p.exclusions.firstMatch? filename with
  | some pattern => { code := content, skipped := true, events := [.skipping filename pattern] }
  | none =>
    let parts := (segments content).map (p.options.contribution filename)
    { code := parts.flatMap (·.code)
      replacements := parts.flatMap (·.replacements)
      events := (if p.options.debug then [.processing filename] else []) ++
        parts.flatMap (·.events) }

end Expander

/-- The names a block calls, if it can be written as a call. -/
def Block.calledNames (b : Block) (namePrefix : Text) : List Text :=
  let chain := stages b.chain
  if b.isComplete && chain ≠ [] && chain.all (·.name ≠ []) then
    chain.map (namePrefix ++ ·.name)
  else []

/-- The names of all functions that the expanded document calls for its blocks. -/
def Expander.calledNames (p : Expander) (content : Text) : List Text :=
  Names.ofList ((blocks content).flatMap (·.calledNames p.options.namePrefix))

/-- The code of a document under the given options, with nothing excluded. -/
def expand (content : Text) (o : Options) : Text :=
  ((Expander.ofOptions o).expand content []).code

end PipeBlocks
