import PipeBlocks.Expander
import PipeBlocks.Config.Basic
import PipeBlocks.Text.Quoted

/-! Log entries, and the lines they are written in. -/
namespace PipeBlocks.Log

inductive Level where
  | error
  | warn
  | info
  | debug
  | trace
deriving DecidableEq, Repr

/-- The levels from the gravest on. -/
def Level.all : List Level := [.error, .warn, .info, .debug, .trace]

/-- The place of a level in `Level.all`, from one on. -/
def Level.rank : Level → Nat
  | .error => 1
  | .warn => 2
  | .info => 3
  | .debug => 4
  | .trace => 5

def Level.name : Level → String
  | .error => "ERROR"
  | .warn => "WARN"
  | .info => "INFO"
  | .debug => "DEBUG"
  | .trace => "TRACE"

inductive FieldValue where
  /-- A text that is written in quotes. -/
  | quoted (t : Text)
  | bare (t : Text)
  | number (n : Nat)
deriving DecidableEq, Repr

def FieldValue.text : FieldValue → Text
  | .quoted t => t.quoted
  | .bare t => t
  | .number n => Text.ofNat n

structure Entry where
  level : Level
  target : Text
  message : String
  fields : List (String × FieldValue) := []
deriving DecidableEq, Repr

namespace Entry

def programTarget : Text := "pipemark".toList

def documentTarget : Text := "pipemark::preprocess".toList

def ofEvent : Event → Entry
  | .skipping filename pattern =>
    { level := .trace, target := documentTarget, message := "skipping excluded document"
      fields := [("filename", .quoted filename), ("pattern", .quoted pattern)] }
  | .processing filename =>
    { level := .debug, target := documentTarget, message := "processing pipes"
      fields := [("filename", .quoted filename)] }
  | .replaced before after =>
    { level := .debug, target := documentTarget, message := "rewrote pipe block"
      fields := [("before", .quoted before), ("after", .bare after)] }
  | .unchanged filename offset block error =>
    { level := .warn, target := documentTarget, message := "leaving pipe block unchanged"
      fields := [("filename", .quoted filename), ("offset", .number offset),
        ("block", .quoted block), ("error", .bare error.message.toList)] }

/-- The settings, with texts in quotes. -/
def configText (c : Config) : Text :=
  let patterns := Text.join ", ".toList (c.exclude.map Text.quoted)
  "Config \x7b prefix: ".toList ++ c.namePrefix.quoted ++
    ", debug: ".toList ++ (toString c.debug).toList ++
    ", exclude: [".toList ++ patterns ++
    "], sveltekit_defaults: ".toList ++ (toString c.svelteKitDefaults).toList ++ " \x7d".toList

def resolvedConfig (c : Config) : Entry :=
  { level := .debug, target := programTarget, message := "resolved configuration"
    fields := [("config", .bare (configText c))] }

def updatedFile (name : Text) : Entry :=
  { level := .info, target := programTarget, message := "rewrote"
    fields := [("file", .bare name)] }

def excludedFile (name : Text) : Entry :=
  { level := .debug, target := programTarget, message := "excluded"
    fields := [("file", .quoted name)] }

/-- The line of an entry logged at `time`; level names are set flush right. -/
def line (time : Text) (e : Entry) : Text :=
  let level := e.level.name.toList
  let fields := e.fields.flatMap fun (name, value) => ' ' :: name.toList ++ '=' :: value.text
  time ++ List.replicate (6 - level.length) ' ' ++ level ++ ' ' :: e.target ++ ": ".toList ++
    e.message.toList ++ fields ++ ['\n']

end Entry

end PipeBlocks.Log
