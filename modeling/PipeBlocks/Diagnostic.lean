import PipeBlocks.CommandLine.Parse
import PipeBlocks.Config.Load
import PipeBlocks.Log.Entry

/-! What the program tells on standard error. -/
namespace PipeBlocks

/-- What a run was doing when it failed, and why that failed. -/
inductive Failure where
  | readingFile (name : Text) (cause : FileError)
  | readingInput (cause : FileError)
  | writingFile (name : Text) (cause : FileError)
  | loadingConfig (path : Text) (cause : Config.LoadError)
deriving DecidableEq, Repr

namespace Failure

/-- The failure and what is behind it, step by step. -/
def chain : Failure → Text × List Text
  | .readingFile name cause => ("reading ".toList ++ name, [cause.message.toList])
  | .readingInput cause => ("reading stdin".toList, [cause.message.toList])
  | .writingFile name cause => ("writing ".toList ++ name, [cause.message.toList])
  | .loadingConfig path cause =>
    ("loading config from ".toList ++ path, [cause.message.toList, cause.cause.toList])

/-- A text with every line after the first indented. -/
def indented (indent : Text) (t : Text) : Text :=
  t.flatMap fun c => if c = '\n' then c :: indent else [c]

/-- The failure with its causes, which are numbered if there are several. -/
def message (f : Failure) : Text :=
  let (what, causes) := f.chain
  let lines := match causes with
    | [cause] => "    ".toList ++ indented "    ".toList cause
    | causes => Text.join ['\n'] <| causes.zipIdx.map fun (cause, i) =>
      "    ".toList ++ Text.ofNat i ++ ": ".toList ++ indented "       ".toList cause
  "Error: ".toList ++ what ++ "\n\nCaused by:\n".toList ++ lines ++ ['\n']

end Failure

inductive Diagnostic where
  | log (e : Log.Entry)
  /-- A block that was replaced in the document `name`. -/
  | replaced (name : Text) (r : Record)
  | failure (f : Failure)
  | usage (e : CommandLine.UsageError)
deriving DecidableEq, Repr

/-- The text of a diagnostic given at `time`, with its line break; a usage message
stands without one. -/
def Diagnostic.render (time : Text) : Diagnostic → Text
  | .log e => e.line time
  | .replaced name r =>
    name ++ ':' :: Text.ofNat r.offset ++ ": ".toList ++ r.before ++ " -> ".toList ++ r.after ++ ['\n']
  | .failure f => f.message
  | .usage e => e.message

end PipeBlocks
