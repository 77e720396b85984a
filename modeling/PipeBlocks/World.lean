import PipeBlocks.Run

/-! A world of files and texts to run the program in.

What is printed and reported is kept in order, and printing never fails. -/
namespace PipeBlocks

structure World where
  files : FileSystem := {}
  /-- What standard input holds. -/
  input : Content := .text []
  output : Text := []
  diagnostics : List Diagnostic := []
deriving DecidableEq

namespace World

instance : Host (StateM World) where
  readFile path := return (← get).files.read path
  readInput := return (← get).input.read
  writeFile path t := do
    let w ← get
    match w.files.write path t with
    | .ok files =>
      set { w with files }
      return .ok ()
    | .error e => return .error e
  print t := modify fun w => { w with output := w.output ++ t }
  diagnose d := modify fun w => { w with diagnostics := w.diagnostics ++ [d] }

/-- The end of a run, and the world after it. -/
def run (w : World) (logSetting : Option Text) (args : List Text) : Run.Exit × World :=
  (PipeBlocks.run logSetting args : StateM World Run.Exit).run w

/-- All that was reported, as it reads at `time`. -/
def errorOutput (w : World) (time : Text) : Text := w.diagnostics.flatMap (·.render time)

end World

end PipeBlocks
