import PipeBlocks.Config.Basic

/-! The command line's arguments, and the settings they amount to. -/
namespace PipeBlocks.CommandLine

structure Arguments where
  files : List Text := []
  namePrefix : Option Text := none
  debug : Bool := false
  exclude : List Text := []
  svelteKitDefaults : Bool := false
  /-- The settings file to load. -/
  config : Option Text := none
  inPlace : Bool := false
  listPipes : Bool := false
  verbose : Bool := false
deriving DecidableEq, Repr

/-- The settings of a file with the arguments' own on top: a prefix replaces the
file's, switches add to it, and patterns follow the file's. -/
def Arguments.override (a : Arguments) (c : Config) : Config where
  namePrefix := a.namePrefix.getD c.namePrefix
  debug := c.debug || a.debug
  exclude := c.exclude ++ a.exclude
  svelteKitDefaults := c.svelteKitDefaults || a.svelteKitDefaults

/-! ### Options -/

/-- An option without a value. -/
inductive Switch where
  | debug
  | svelteKitDefaults
  | inPlace
  | listPipes
  | verbose
deriving DecidableEq, Repr

/-- What takes values: an option, or the arguments that are no options. -/
inductive Setting where
  | namePrefix
  | exclude
  | config
  | files
deriving DecidableEq, Repr

inductive Opt where
  | switch (s : Switch)
  | setting (s : Setting)
  | help
  | version
deriving DecidableEq, Repr

def Switch.name : Switch → String
  | .debug => "debug"
  | .svelteKitDefaults => "sveltekit-defaults"
  | .inPlace => "in-place"
  | .listPipes => "list-pipes"
  | .verbose => "verbose"

namespace Opt

def ofLong? (name : Text) : Option Opt :=
  match String.ofList name with
  | "prefix" => some (.setting .namePrefix)
  | "debug" => some (.switch .debug)
  | "exclude" => some (.setting .exclude)
  | "sveltekit-defaults" => some (.switch .svelteKitDefaults)
  | "config" => some (.setting .config)
  | "in-place" => some (.switch .inPlace)
  | "list-pipes" => some (.switch .listPipes)
  | "verbose" => some (.switch .verbose)
  | "help" => some .help
  | "version" => some .version
  | _ => none

def ofShort? : Char → Option Opt
  | 'p' => some (.setting .namePrefix)
  | 'd' => some (.switch .debug)
  | 'x' => some (.setting .exclude)
  | 'c' => some (.setting .config)
  | 'i' => some (.switch .inPlace)
  | 'v' => some (.switch .verbose)
  | 'h' => some .help
  | 'V' => some .version
  | _ => none

/-- The option as messages name it. -/
def usage : Opt → String
  | .switch s => "--" ++ s.name
  | .setting .namePrefix => "--prefix <PREFIX>"
  | .setting .exclude => "--exclude <PATTERN>"
  | .setting .config => "--config <PATH>"
  | .setting .files => "[FILES]..."
  | .help => "--help"
  | .version => "--version"

end Opt

end PipeBlocks.CommandLine
