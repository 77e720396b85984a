import PipeBlocks.Config.Basic
import PipeBlocks.Text.Blank
import PipeBlocks.Text.Quoted
import PipeBlocks.Yaml.Document
import PipeBlocks.Yaml.Value

/-! Reading settings from a YAML text.

The text is a mapping from field names to values. Its items are read in order and
the first thing that does not fit is the error, so a bad value comes before a
syntax problem behind it. Fields may be left out but not repeated. -/
namespace PipeBlocks.Config

open Yaml (Mark Item Document Scalar Value)

inductive Field where
  | namePrefix
  | debug
  | exclude
  | svelteKitDefaults
deriving DecidableEq, Repr

def Field.all : List Field := [.namePrefix, .debug, .exclude, .svelteKitDefaults]

def Field.key : Field → String
  | .namePrefix => "prefix"
  | .debug => "debug"
  | .exclude => "exclude"
  | .svelteKitDefaults => "sveltekit_defaults"

def Field.ofKey? (key : Text) : Option Field := Field.all.find? (·.key.toList = key)

/-! ### Errors -/

/-- Where in the settings a value stands. -/
inductive Path where
  | top
  /-- Under a key; a key that is an alias has no text of its own here. -/
  | field (key : Option Text)
  | entry (key : Option Text) (index : Nat)
deriving DecidableEq, Repr

/-- What stands where something else was expected. -/
inductive Found where
  | value (v : Value)
  | sequence
  | mapping
  /-- A text that is no value of the type its tag asks for. -/
  | notOfType (t : Text) (type : Yaml.CoreType)
deriving DecidableEq, Repr

inductive Wanted where
  | config
  | field
  | text
  | bool
  | sequence
deriving DecidableEq, Repr

inductive ParseError where
  | malformed (p : Yaml.Problem)
  | mismatch (path : Path) (found : Found) (wanted : Wanted) (m : Mark)
  | unknownField (key : Text) (m : Mark)
  | duplicateField (field : Field) (m : Mark)
  | severalDocuments
  | unfinished
deriving DecidableEq, Repr

def Path.message : Path → String
  | .top => ""
  | .field key => name key ++ ": "
  | .entry key index => s!"{name key}[{index}]: "
where
  name (key : Option Text) : String := (key.map String.ofList).getD "?"

def Wanted.message : Wanted → String
  | .config => "struct Config"
  | .field => "field identifier"
  | .text => "a string"
  | .bool => "a boolean"
  | .sequence => "a sequence"

def typeName : Yaml.CoreType → String
  | .bool => "a boolean"
  | .integer => "an integer"
  | .float => "a float"
  | .null => "null"

/-- Integers beyond 64 bits are marked as such. -/
def integerMessage (n : Int) : String :=
  let text := String.ofList (Text.ofInt n)
  let width := if n ≥ Int.pow 2 64 then " as u128" else if n < -Int.pow 2 63 then " as i128" else ""
  s!"integer `{text}`{width}"

def floatMessage (text : String) : String := s!"floating point `{text}`"

def textMessage (t : Text) : String := "string " ++ String.ofList t.quoted

def valueMessage : Value → String
  | .null => "unit value"
  | .bool b => s!"boolean `{b}`"
  | .integer n => integerMessage n
  | .float negative x => floatMessage ((if negative then "-" else "") ++ String.ofList x.toText)
  | .infinity negative => floatMessage (if negative then "-inf" else "inf")
  | .notANumber => floatMessage "NaN"
  | .text t => textMessage t

def Found.message (wanted : Wanted) : Found → String
  | .value v => s!"invalid type: {valueMessage v}, expected {wanted.message}"
  | .sequence => s!"invalid type: sequence, expected {wanted.message}"
  | .mapping => s!"invalid type: map, expected {wanted.message}"
  | .notOfType t type => s!"invalid value: {textMessage t}, expected {typeName type}"

def placeMessage (m : Mark) : String := if m.isOrigin then "" else " at " ++ m.describe

def ParseError.message : ParseError → String
  | .malformed p => p.message
  | .mismatch path found wanted m => path.message ++ found.message wanted ++ placeMessage m
  | .unknownField key m =>
    let fields := ", ".intercalate (Field.all.map fun f => "`" ++ f.key ++ "`")
    s!"unknown field `{String.ofList key}`, expected one of {fields}" ++ placeMessage m
  | .duplicateField field m => s!"duplicate field `{field.key}`" ++ placeMessage m
  | .severalDocuments =>
    "deserializing from YAML containing more than one document is not supported"
  | .unfinished => "EOF while parsing a value"

/-! ### Values -/

abbrev Items := List (Item × Mark)

/-- The error that stops the items of a document. -/
def stopped (d : Document) : ParseError :=
  match d.problem with
  | some p => .malformed p
  | none => .unfinished

/-- What an item is, told to someone who wanted something else. -/
def found : Item → Found
  | .scalar s =>
    match s.value with
    | .ok v => .value v
    | .error type => .notOfType s.text type
  | .mappingStart | .mappingEnd => .mapping
  | _ => .sequence

/-- The item that stands for a node, its place, and what follows it there: an alias
stands for the node it names. -/
def resolve (d : Document) : Items → Except ParseError (Item × Mark × Items)
  | [] => .error (stopped d)
  | (.alias number, _) :: _ =>
    match d.target number with
    | (item, m) :: rest => .ok (item, m, rest)
    | [] => .error (stopped d)
  | (item, m) :: rest => .ok (item, m, rest)

/-- Reads a scalar as what `read` makes of it. -/
def decodeScalar (d : Document) (path : Path) (wanted : Wanted) (read : Scalar → Option α)
    (items : Items) : Except ParseError (α × Items) := do
  let (item, m, _) ← resolve d items
  let value? := match item with
    | .scalar s => read s
    | _ => none
  match value? with
  | some a => return (a, items.drop 1)
  | none => throw (.mismatch path (found item) wanted m)

def decodeText (d : Document) (path : Path) (wanted : Wanted) :
    Items → Except ParseError (Text × Items) :=
  decodeScalar d path wanted fun s => some s.text

def decodeBool (d : Document) (path : Path) : Items → Except ParseError (Bool × Items) :=
  decodeScalar d path .bool Scalar.bool?

/-- Reads the entries of a sequence up to its end. -/
def decodeEntries (d : Document) (key : Option Text) : Nat → (index : Nat) → Items →
    Except ParseError (List Text × Items)
  | 0, _, _ => .error (stopped d)
  | bound + 1, index, items =>
    match items with
    | (.sequenceEnd, _) :: rest => .ok ([], rest)
    | items => do
      let (entry, rest) ← decodeText d (.entry key index) .text items
      let (entries, rest) ← decodeEntries d key bound (index + 1) rest
      return (entry :: entries, rest)

/-- Reads a sequence of texts; an absent value is an empty one. -/
def decodeTexts (d : Document) (key : Option Text) (items : Items) :
    Except ParseError (List Text × Items) := do
  let (item, m, inside) ← resolve d items
  let isAbsent := match item with
    | .scalar s => s.isAbsent
    | _ => false
  if isAbsent then return ([], items.drop 1)
  if item ≠ .sequenceStart then throw (.mismatch (.field key) (found item) .sequence m)
  let (entries, rest) ← decodeEntries d key (inside.length + 1) 0 inside
  -- behind an alias, reading goes on after the alias and not after what it names
  let byAlias := match items with
    | (.alias _, _) :: _ => true
    | _ => false
  return (entries, if byAlias then items.drop 1 else rest)

/-! ### The mapping -/

def decodeField (d : Document) (key : Option Text) (c : Config) (items : Items) :
    Field → Except ParseError (Config × Items)
  | .namePrefix => do
    let (namePrefix, rest) ← decodeText d (.field key) .text items
    return ({ c with namePrefix }, rest)
  | .debug => do
    let (debug, rest) ← decodeBool d (.field key) items
    return ({ c with debug }, rest)
  | .exclude => do
    let (exclude, rest) ← decodeTexts d key items
    return ({ c with exclude }, rest)
  | .svelteKitDefaults => do
    let (svelteKitDefaults, rest) ← decodeBool d (.field key) items
    return ({ c with svelteKitDefaults }, rest)

/-- Reads a key, and its text if it is written at this place. -/
def decodeKey (d : Document) (items : Items) : Except ParseError (Field × Option Text × Items) := do
  let (key, rest) ← decodeText d .top .field items
  let (_, m, _) ← resolve d items
  let written := match items with
    | (.scalar s, _) :: _ => some s.text
    | _ => none
  match Field.ofKey? key with
  | some field => return (field, written, rest)
  | none => throw (.unknownField key m)

/-- Reads the fields up to the end of the mapping that starts at `start`. -/
def decodeFields (d : Document) (start : Mark) : Nat → (seen : List Field) → Config → Items →
    Except ParseError Config
  | 0, _, _, _ => .error (stopped d)
  | bound + 1, seen, c, items =>
    match items with
    | (.mappingEnd, _) :: _ => .ok c
    | items => do
      let (field, key, rest) ← decodeKey d items
      if seen.contains field then throw (.duplicateField field start)
      let (c, rest) ← decodeField d key c rest field
      decodeFields d start bound (field :: seen) c rest

/-- Reads the settings of a document; one without content has none. -/
def decode (d : Document) : Except ParseError Config := do
  match d.items with
  | [] => if d.problem.isSome then throw (stopped d) else return {}
  | (.scalar s, m) :: _ =>
    if !s.isAbsent then throw (.mismatch .top (found (.scalar s)) .config m)
    finish {}
  | (.mappingStart, m) :: rest => finish (← decodeFields d m (rest.length + 1) [] {} rest)
  | (item, m) :: _ => throw (.mismatch .top (found item) .config m)
where
  /-- The rest of the text must be free of problems and of further documents. -/
  finish (c : Config) : Except ParseError Config :=
    match d.problem with
    | some p => .error (.malformed p)
    | none => if d.isFollowed then .error .severalDocuments else .ok c

/-- The settings in a YAML text; a blank text has none. -/
def ofYaml (t : Text) : Except ParseError Config :=
  if t.isBlank then .ok {} else decode (Document.ofText t)

end PipeBlocks.Config
