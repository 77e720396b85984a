import PipeBlocks.Yaml.Event

/-! The first document of a YAML text, ready to be read.

An anchor gets as its number the count of names before it, and the node that last
got a number is what aliases with that number mean. -/
namespace PipeBlocks.Yaml

/-- An event of a document's content. -/
inductive Item where
  | alias (number : Nat)
  | scalar (s : Scalar)
  | sequenceStart
  | sequenceEnd
  | mappingStart
  | mappingEnd
deriving DecidableEq, Repr

structure Document where
  items : List (Item × Mark) := []
  /-- For each anchor's number the position of its node. -/
  nodes : List (Nat × Nat) := []
  /-- What stops the text after these items. -/
  problem : Option Problem := none
  /-- Whether the text goes on after the document. -/
  isFollowed : Bool := false
deriving Repr

namespace Document

/-- A document while it is being collected. -/
structure Partial where
  items : List (Item × Mark) := []
  nodes : List (Nat × Nat) := []
  anchors : List (Text × Nat) := []

/-- Adds a node, which may have an anchor. -/
def Partial.addNode (d : Partial) (anchor : Option Text) (item : Item) (m : Mark) : Partial :=
  let items := d.items ++ [(item, m)]
  match anchor with
  | none => { d with items }
  | some name =>
    let number := d.anchors.length
    let others := d.anchors.filter (·.1 ≠ name)
    { items
      nodes := (number, d.items.length) :: d.nodes
      anchors := (name, number) :: others }

/-- Collects events up to the end of the first document. -/
def collect (problem : Option Problem) (d : Partial) : List (Event × Mark) → Document
  | [] => ⟨d.items, d.nodes, problem, false⟩
  | (event, m) :: rest =>
    match event with
    | .streamStart | .documentStart => collect problem d rest
    | .streamEnd => ⟨d.items, d.nodes, none, false⟩
    | .documentEnd =>
      let ended := match rest with
        | (.streamEnd, _) :: _ => true
        | _ => false
      ⟨d.items, d.nodes, none, !ended⟩
    | .alias name =>
      match d.anchors.lookup name with
      | some number => collect problem (d.addNode none (.alias number) m) rest
      | none => ⟨d.items, d.nodes, some (.ofMark .unknownAnchor m), false⟩
    | .scalar anchor s => collect problem (d.addNode anchor (.scalar s) m) rest
    | .sequenceStart anchor => collect problem (d.addNode anchor .sequenceStart m) rest
    | .sequenceEnd => collect problem (d.addNode none .sequenceEnd m) rest
    | .mappingStart anchor => collect problem (d.addNode anchor .mappingStart m) rest
    | .mappingEnd => collect problem (d.addNode none .mappingEnd m) rest

/-- The first document of a text, up to the first problem in it. -/
def ofText (t : Text) : Document :=
  let (events, problem) := events t
  collect problem {} events

/-- What an alias stands for: the node with its number, and what comes after. -/
def target (d : Document) (number : Nat) : List (Item × Mark) :=
  match d.nodes.lookup number with
  | some position => d.items.drop position
  | none => []

end Document

end PipeBlocks.Yaml
