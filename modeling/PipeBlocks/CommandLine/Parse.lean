import PipeBlocks.CommandLine.Arguments
import PipeBlocks.Text.Terminal

/-! Reading a command line.

Arguments are read from left to right. The values of a setting are collected
first and take effect when the next option is met or the line ends, which is when
a missing, empty or repeated one is noticed. Conflicts between switches are looked
for at the end. -/
namespace PipeBlocks.CommandLine

inductive UsageError where
  | unknown (argument : Text)
  | missingValue (s : Setting)
  | surplusValue (value : Text) (o : Opt)
  | repeated (o : Opt)
  | conflict (first second : Switch)
  | missingFiles
deriving DecidableEq, Repr

/-- The message, of which only the first line is shown; what arguments hold is
shown without terminal control. -/
def UsageError.message (e : UsageError) : Text :=
  let text : String := match e with
    | .unknown argument => s!"unexpected argument '{String.ofList argument.shown}' found"
    | .missingValue s =>
      let option := (Opt.setting s).usage
      s!"a value is required for '{option}' but none was supplied"
    | .surplusValue value o =>
      let value := String.ofList value.shown
      s!"unexpected value '{value}' for '{o.usage}' found; no more were expected"
    | .repeated o => s!"the argument '{o.usage}' cannot be used multiple times"
    | .conflict first second =>
      s!"the argument '--{first.name}' cannot be used with '--{second.name}'"
    | .missingFiles => "the following required arguments were not provided:"
  Text.firstLine ("error: " ++ text).toList

/-- What a command line asks for. -/
inductive Request where
  | run (a : Arguments)
  | help (long : Bool)
  | version
deriving DecidableEq, Repr

/-- Reading stops at an error, and at options that ask for a text. -/
inductive Halt where
  | error (e : UsageError)
  | request (r : Request)

abbrev Outcome := Except Halt

structure Reader where
  arguments : Arguments := {}
  /-- The setting whose values are being collected. -/
  pending : Option (Setting × List Text) := none
  /-- The switches in the order in which they were met. -/
  switches : List Switch := []

namespace Reader

def fail (e : UsageError) : Outcome α := .error (.error e)

/-- A path has to have at least one character. -/
def checkPaths (s : Setting) (values : List Text) : Outcome Unit :=
  if values.contains [] then fail (.missingValue s) else .ok ()

/-- Gives a setting its values. -/
def assign (a : Arguments) (s : Setting) (values : List Text) : Outcome Arguments :=
  match s, values with
  | .files, values => do
    checkPaths s values
    return { a with files := a.files ++ values }
  | .exclude, value :: _ => .ok { a with exclude := a.exclude ++ [value] }
  | .namePrefix, value :: _ =>
    if a.namePrefix.isSome then fail (.repeated (.setting s))
    else .ok { a with namePrefix := some value }
  | .config, value :: _ =>
    if a.config.isSome then fail (.repeated (.setting s))
    else do
      checkPaths s [value]
      return { a with config := some value }
  | s, [] => fail (.missingValue s)

/-- Lets the collected values take effect. -/
def resolve (r : Reader) : Outcome Reader := do
  match r.pending with
  | none => return r
  | some (s, values) =>
    let arguments ← assign r.arguments s values
    return { r with arguments, pending := none }

def turnOn (a : Arguments) : Switch → Arguments
  | .debug => { a with debug := true }
  | .svelteKitDefaults => { a with svelteKitDefaults := true }
  | .inPlace => { a with inPlace := true }
  | .listPipes => { a with listPipes := true }
  | .verbose => { a with verbose := true }

/-- Takes an option that has no value of its own at hand. -/
def takeOption (r : Reader) (long : Bool) (o : Opt) : Outcome Reader := do
  let r ← r.resolve
  match o with
  | .switch s =>
    if r.switches.contains s then fail (.repeated o)
    else return { r with arguments := turnOn r.arguments s, switches := r.switches ++ [s] }
  | .setting s => return { r with pending := some (s, []) }
  | .help => .error (.request (.help long))
  | .version => .error (.request .version)

/-- Takes a setting whose value is attached to it. -/
def takeAttached (r : Reader) (s : Setting) (value : Text) : Outcome Reader := do
  let r ← r.resolve
  let arguments ← assign r.arguments s [value]
  return { r with arguments }

/-- Takes `--name` or `--name=value`. -/
def takeLong (r : Reader) (t : Text) : Outcome Reader :=
  let name := t.takeWhile (· ≠ '=')
  match Opt.ofLong? name, t.dropWhile (· ≠ '=') with
  | none, _ => fail (.unknown ("--".toList ++ name))
  | some o, [] => r.takeOption true o
  | some (.setting s), _ :: value => r.takeAttached s value
  | some o, _ :: value => fail (.surplusValue value o)

/-- Takes options of one letter each; what follows a setting's letter is its value. -/
def takeShort (r : Reader) : Text → Outcome Reader
  | [] => .ok r
  | c :: rest =>
    match Opt.ofShort? c with
    | none => fail (.unknown ['-', c])
    | some (.setting s) =>
      match rest with
      | [] => r.takeOption false (.setting s)
      | '=' :: value => r.takeAttached s value
      | value => r.takeAttached s value
    | some o => do
      let r ← r.takeOption false o
      r.takeShort rest

/-- Takes an argument that is no option: a file, unless files are already being
collected, ends what was pending. -/
def takeFile (r : Reader) (t : Text) : Outcome Reader := do
  match r.pending with
  | some (.files, files) => return { r with pending := some (.files, files ++ [t]) }
  | _ =>
    let r ← r.resolve
    return { r with pending := some (.files, [t]) }

/-- Takes an argument that does not start an option: a value if one is wanted. -/
def takeValue (r : Reader) (t : Text) : Outcome Reader :=
  match r.pending with
  | some (s, []) => .ok { r with pending := some (s, [t]) }
  | _ => r.takeFile t

/-- Takes all arguments; after `--` none is an option. -/
def takeAll (r : Reader) : List Text → Outcome Reader
  | [] => .ok r
  | t :: rest => do
    match t with
    | ['-', '-'] => rest.foldlM takeFile r
    | '-' :: '-' :: name => (← r.takeLong name).takeAll rest
    | ['-'] => (← r.takeValue t).takeAll rest
    | '-' :: letters => (← r.takeShort letters).takeAll rest
    | _ => (← r.takeValue t).takeAll rest

/-- The arguments, once nothing is pending and no rule between them is broken. -/
def finish (r : Reader) : Outcome Arguments := do
  let r ← r.resolve
  let pair := r.switches.filter fun s => s = .inPlace || s = .listPipes
  match pair with
  | [first, second] => fail (.conflict first second)
  | _ =>
    if r.arguments.inPlace && r.arguments.files.isEmpty then fail .missingFiles
    else return r.arguments

end Reader

/-- What the arguments after the program's name ask for. -/
def parse (args : List Text) : Except UsageError Request :=
  match (do (← ({} : Reader).takeAll args).finish : Outcome Arguments) with
  | .ok a => .ok (.run a)
  | .error (.request r) => .ok r
  | .error (.error e) => .error e

end PipeBlocks.CommandLine
