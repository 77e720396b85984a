import PipeBlocks.CommandLine.Help
import PipeBlocks.Diagnostic
import PipeBlocks.Log.Filter

/-! A run of the program.

The program reads files, prints, writes and reports through a `Host`, so the same
definition runs on the real files and on a `World`, which is files and text only.
What one document comes to is decided by `Expander.expand`; here is the order
in which documents are read, reported, printed and written. -/
namespace PipeBlocks

/-- What a run asks of its surroundings. -/
class Host (m : Type → Type) where
  readFile : Text → m (Except FileError Text)
  readInput : m (Except FileError Text)
  writeFile : Text → Text → m (Except FileError Unit)
  print : Text → m Unit
  diagnose : Diagnostic → m Unit

/-- The name under which standard input is expanded. -/
def inputName : Text := "<stdin>".toList

namespace Run

open CommandLine (Arguments)

variable {m : Type → Type} [Monad m] [Host m]

abbrev RunM (m : Type → Type) := ExceptT Failure m

/-- Reports a log entry if the filter shows it. -/
def log (f : Log.Filter) (e : Log.Entry) : m Unit :=
  if f.shows e then Host.diagnose (.log e) else pure ()

def read (name : Text) : RunM m Text := do
  match ← (Host.readFile name : m _) with
  | .ok t => return t
  | .error e => throw (.readingFile name e)

def readInput : RunM m Text := do
  match ← (Host.readInput : m _) with
  | .ok t => return t
  | .error e => throw (.readingInput e)

/-- The settings of the arguments, on top of those in the settings file. -/
def resolve (a : Arguments) : RunM m Config := do
  match a.config with
  | none => return a.override {}
  | some path =>
    match Config.ofFile path (← (Host.readFile path : m _)) with
    | .ok c => return a.override c
    | .error e => throw (.loadingConfig path e)

/-- Expands a document and reports what happened to it. -/
def expandDocument (f : Log.Filter) (p : Expander) (name content : Text) : m Expansion := do
  let expansion := p.expand content name
  expansion.events.forM fun e => log f (.ofEvent e)
  if expansion.skipped then log f (.excludedFile name)
  else expansion.replacements.forM fun r => Host.diagnose (.replaced name r)
  return expansion

/-- Expands a file and prints the result. -/
def printFile (f : Log.Filter) (p : Expander) (name : Text) : RunM m Unit := do
  let content ← read name
  let expansion ← (expandDocument f p name content : m _)
  (Host.print expansion.code : m _)

/-- Expands a file and writes the result back, if it is another text. -/
def updateFile (f : Log.Filter) (p : Expander) (name : Text) : RunM m Unit := do
  let content ← read name
  let expansion ← (expandDocument f p name content : m _)
  if !expansion.skipped && expansion.code ≠ content then
    match ← (Host.writeFile name expansion.code : m _) with
    | .ok () => (log f (.updatedFile name) : m _)
    | .error e => throw (.writingFile name e)

/-- The names that the files call; excluded files are not read. -/
def namesInFiles (p : Expander) : List Text → RunM m (List Text)
  | [] => return []
  | name :: rest => do
    if p.exclusions.excludes name then namesInFiles p rest
    else
      let content ← read name
      let names ← namesInFiles p rest
      return p.calledNames content ++ names

/-- Prints the names that the input calls, one on a line. -/
def listPipes (p : Expander) (files : List Text) : RunM m Unit := do
  let names ←
    if files = [] then p.calledNames <$> readInput
    else namesInFiles p files
  (Host.print ((Names.ofList names).flatMap (· ++ ['\n'])) : m _)

/-- Does what the arguments ask for. -/
def perform (logSetting : Option Text) (a : Arguments) : RunM m Unit := do
  let f := Log.Filter.ofSetting logSetting a.verbose
  let config ← resolve a
  (log f (.resolvedConfig config) : m _)
  let p := config.expander
  if a.listPipes then listPipes p a.files
  else if a.files = [] then
    let content ← readInput
    let expansion ← (expandDocument f p inputName content : m _)
    (Host.print expansion.code : m _)
  else if a.inPlace then a.files.forM (updateFile f p)
  else a.files.forM (printFile f p)

/-- How a run ends. -/
inductive Exit where
  | success
  | failure
  | usage
deriving DecidableEq, Repr

def Exit.code : Exit → Nat
  | .success => 0
  | .failure => 1
  | .usage => 2

end Run

open Run in
/-- Runs the program on the arguments after its name. -/
def run {m : Type → Type} [Monad m] [Host m] (logSetting : Option Text) (args : List Text) :
    m Exit := do
  match CommandLine.parse args with
  | .error e =>
    Host.diagnose (.usage e)
    return .usage
  | .ok (.help long) =>
    Host.print (CommandLine.helpText long)
    return .success
  | .ok .version =>
    Host.print CommandLine.versionText.toList
    return .success
  | .ok (.run a) =>
    match ← ExceptT.run (perform logSetting a : RunM m Unit) with
    | .ok () => return .success
    | .error f =>
      Host.diagnose (.failure f)
      return .failure

end PipeBlocks
