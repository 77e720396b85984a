import PipeBlocks.Config.Decode
import PipeBlocks.FileSystem

/-! Loading settings, and why it may fail. -/
namespace PipeBlocks.Config

inductive LoadError where
  | read (path : Text) (cause : FileError)
  /-- The text is no settings; `path` is the file it comes from, if any. -/
  | parse (path : Option Text) (cause : ParseError)
deriving DecidableEq, Repr

namespace LoadError

/-- The text of what lies behind the error. -/
def cause : LoadError → String
  | .read _ cause => cause.message
  | .parse _ cause => cause.message

def message (e : LoadError) : String :=
  match e with
  | .read path _ => s!"failed to read config {String.ofList path}: {e.cause}"
  | .parse none _ => s!"invalid config: {e.cause}"
  | .parse (some path) _ => s!"invalid config {String.ofList path}: {e.cause}"

end LoadError

def ofText (t : Text) : Except LoadError Config := (ofYaml t).mapError (.parse none)

/-- The settings in a file, from what reading it gave. -/
def ofFile (path : Text) (content : Except FileError Text) : Except LoadError Config :=
  match content with
  | .error e => .error (.read path e)
  | .ok t => (ofYaml t).mapError (.parse (some path))

end PipeBlocks.Config
