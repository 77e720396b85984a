import PipeBlocks.Chain
import PipeBlocks.Block.Basic

/-! Call expressions.

The stages of a chain are applied to the expression from left to right, so the
first stage becomes the innermost call. Each call takes the value so far as its
first argument and the stage's own arguments after it. -/
namespace PipeBlocks

inductive CallError where
  | emptyExpression
  | emptyChain
  /-- The stage at `index` has no name, only the text after its colon. -/
  | unnamedStage (index : Nat) (args : Text)
deriving DecidableEq, Repr

/-- The nameless stage as it reads in the chain. -/
def CallError.stageText (args : Text) : Text := ':' :: args

def CallError.message : CallError → String
  | .emptyExpression => "pipe block has an empty expression"
  | .emptyChain => "pipe block has no stages"
  | .unnamedStage index args =>
    let stage := String.ofList (stageText args)
    s!"stage {index} has no pipe name (`{stage}`)"

/-- One call: the stage's function on a value and the stage's arguments. -/
def Stage.call (s : Stage) (namePrefix value : Text) : Text :=
  namePrefix ++ s.name ++ '(' :: value ++ s.arguments.flatMap (", ".toList ++ ·) ++ [')']

/-- Applies stages to a value; `index` numbers the next stage. -/
def applyStages (namePrefix : Text) (index : Nat) (value : Text) : List Stage → Except CallError Text
  | [] => .ok value
  | s :: rest =>
    if s.name = [] then .error (.unnamedStage index s.args)
    else applyStages namePrefix (index + 1) (s.call namePrefix value) rest

/-- The call expression of a chain, without braces. -/
def callExpression (expression : Text) (chain : List Stage) (namePrefix : Text) :
    Except CallError Text :=
  if expression.isBlank then .error .emptyExpression
  else if chain = [] then .error .emptyChain
  else applyStages namePrefix 0 expression chain

/-- The replacement for a block, braces included. -/
def Block.replacement (b : Block) (namePrefix : Text) : Except CallError Text :=
  (callExpression b.expression (stages b.chain) namePrefix).map fun call => '{' :: call ++ ['}']

end PipeBlocks
