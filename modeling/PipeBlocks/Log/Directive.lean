import PipeBlocks.Decimal
import PipeBlocks.Log.Entry
import PipeBlocks.Pattern.Basic
import PipeBlocks.Text.Alphanumeric
import PipeBlocks.Text.Blank

/-! The parts of a log filter, and how they are written.

A directive is `level`, or `target[span{field=value}]=level` with parts left
out: the brackets, the name or the field in them, the level. It applies to entries
whose target starts with its own and that have its field. No entry belongs to a
span and values are not compared, so a directive that names a span or a value
applies to none. -/
namespace PipeBlocks.Log

/-- A field that a directive asks for, and the value it wants to see there. -/
structure FieldCondition where
  name : Text
  value : Option Text := none
deriving DecidableEq, Repr

/-- Shows entries up to a level, or none of them. -/
structure Directive where
  target : Text := []
  span : Option Text := none
  field : Option FieldCondition := none
  level : Option Level := some .trace
deriving DecidableEq, Repr

/-- The number of a level or its name in any case; 0 is `off`. -/
def Level.parse? (t : Text) : Option (Option Level) :=
  let digits := if t.head? = some '+' then t.drop 1 else t
  match Text.toNat? 10 digits with
  | some 0 => some none
  | some n => (Level.all.find? (·.rank = n)).map some
  | none =>
    let name := String.ofList (t.map Char.toUpper)
    if name = "OFF" then some none else (Level.all.find? (·.name = name)).map some

/-- A number with a plus sign, which no pattern starts with. -/
def isSignedNumber : Text → Bool
  | '+' :: r =>
    (Decimal.parse? r).isSome ||
      ["inf", "infinity", "nan"].contains (String.ofList (r.map Char.toLower))
  | _ => false

namespace FieldCondition

/-- Reads `name` or `name=value`; anything after another `=` is passed over. -/
def parse? (t : Text) : Option FieldCondition :=
  let name := t.takeWhile (· ≠ '=')
  match t.dropWhile (· ≠ '=') with
  | [] => some { name }
  | _ :: r =>
    let value := r.takeWhile (· ≠ '=')
    if isSignedNumber value || Pattern.isAccepted value then some { name, value := some value }
    else none

def holds (f : FieldCondition) (e : Entry) : Bool :=
  f.value.isNone && (f.name = "message".toList || e.fields.any (·.1.toList = f.name))

end FieldCondition

namespace Directive

/-- The level that a directive ends in; an empty one shows everything. -/
def levelOrAll? (t : Text) : Option (Option Level) :=
  if t = [] then some (some .trace) else Level.parse? t

/-- A directive may start with a bracket, a letter, a number or one of three signs. -/
def isStart (c : Char) : Bool :=
  c == '[' || c == '-' || c == ':' || c == '_' || Text.isAlphanumeric c

/-! A directive's parts are told apart in the text without the white space around
it, and counted in bytes; they are cut at these counts from the text as it stands.
So white space before a directive shifts all of its parts, and white space after it
belongs to the last one. Below, `t` is the text as it stands, and `rest` what is
left of it, without the white space, from byte `i` on. -/

/-- Reads the level at the end of a directive. -/
def readLevel? (d : Directive) (t : Text) (i : Nat) : Option Directive := do
  let level ← levelOrAll? (← t.dropBytes? i)
  return { d with level }

/-- Reads what follows the brackets: nothing, or a level. -/
def readEnd? (d : Directive) (t : Text) (i : Nat) (rest : Text) : Option Directive :=
  match rest with
  | [] => some d
  | '=' :: _ => d.readLevel? t (i + 1)
  | _ => none

/-- Reads a field after its brace, and what follows it. -/
def readField? (d : Directive) (t : Text) (i : Nat) (rest : Text) : Option Directive := do
  let inner := rest.takeWhile (· ≠ '\x7d')
  let j := i + Text.byteLength inner
  match rest.drop inner.length, ← t.slice? i j with
  | _ :: ']' :: rest, c :: cs =>
    let field ← FieldCondition.parse? (c :: cs)
    readEnd? { d with field := some field } t (j + 2) rest
  | _, _ => none

/-- Reads a span's name or a field after the opening bracket, and what follows it;
a field needs no span. -/
def readBrackets? (d : Directive) (t : Text) (i : Nat) (rest : Text) : Option Directive := do
  let name := rest.takeWhile fun c => c ≠ ']' && c ≠ '\x7b'
  let j := i + Text.byteLength name
  match rest.drop name.length, ← t.slice? i j with
  | ']' :: rest, span => readEnd? { d with span := some span } t (j + 1) rest
  | _ :: rest, [] => readField? d t (j + 1) rest
  | _ :: rest, span => readField? { d with span := some span } t (j + 1) rest
  | [], _ => none

/-- Reads a directive; a word alone is a level, if there is one of that name, or
else a target. -/
def parse? (t : Text) : Option Directive := do
  let inner := t.trim
  if !inner.head?.any isStart then none
  let target := inner.takeWhile fun c => c ≠ '=' && c ≠ '['
  let i := Text.byteLength target
  match inner.drop target.length with
  | [] =>
    match Level.parse? t with
    | some level => return { level }
    | none => return { target := t }
  | '[' :: rest => readBrackets? { target := ← t.slice? 0 i } t (i + 1) rest
  | _ => readLevel? { target := ← t.slice? 0 i } t (i + 1)

def appliesTo (d : Directive) (e : Entry) : Bool :=
  d.span.isNone && d.target.isPrefixOf e.target && d.field.all (·.holds e)

/-- The name of the field, if there is one. -/
def fieldName (d : Directive) : Text :=
  match d.field with
  | some f => f.name
  | none => []

/-- Whether `d`, met after `other`, comes before it where both apply: it does with
a longer target, or the same and a field name that is not before the other's. -/
def overrules (d other : Directive) : Bool :=
  other.target.length < d.target.length ||
    (other.target.length = d.target.length && !(d.fieldName < other.fieldName))

def shows (d : Directive) (e : Entry) : Bool :=
  d.level.any fun level => e.level.rank ≤ level.rank

end Directive

end PipeBlocks.Log
