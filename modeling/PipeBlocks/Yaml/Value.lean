import PipeBlocks.Yaml.Token
import PipeBlocks.Yaml.Event
import PipeBlocks.Decimal

/-! What scalars stand for.

An unquoted text may stand for nothing, a truth value or a number; else it is
text, as every quoted one is. A number with a needless leading zero is text. -/
namespace PipeBlocks.Yaml

inductive Value where
  | null
  | bool (b : Bool)
  | integer (n : Int)
  | float (negative : Bool) (x : Decimal.Binary)
  | infinity (negative : Bool)
  | notANumber
  | text (t : Text)
deriving DecidableEq, Repr

def null? (t : Text) : Bool :=
  ["null", "Null", "NULL", "~"].contains (String.ofList t)

def bool? (t : Text) : Option Bool :=
  let s := String.ofList t
  if ["true", "True", "TRUE"].contains s then some true
  else if ["false", "False", "FALSE"].contains s then some false
  else none

/-! ### Numbers -/

def isSign (c : Char) : Bool := c == '+' || c == '-'

/-- Digits that start with a zero which does not stand alone. -/
def hasLeadingZero (t : Text) : Bool :=
  let digits := match t with
    | c :: r => if isSign c then r else t
    | [] => t
  1 < digits.length && digits.head? == some '0' && digits.all Char.isDigit

/-- A number without a sign: `0x`, `0o` or `0b` and digits, or decimal digits. -/
def unsigned? (t : Text) : Option Nat :=
  match t with
  | '0' :: 'x' :: r => Text.toNat? 16 r
  | '0' :: 'o' :: r => Text.toNat? 8 r
  | '0' :: 'b' :: r => Text.toNat? 2 r
  | t => Text.toNat? 10 t

/-- A whole number from `-2 ^ 127` to `2 ^ 128 - 1`. -/
def integer? (t : Text) : Option Int :=
  if hasLeadingZero t then none
  else
    match t with
    | '-' :: r => (unsigned? r).bind fun n => if n ≤ Nat.pow 2 127 then some (-(n : Int)) else none
    | '+' :: r => (unsigned? r).bind fun n => if n < Nat.pow 2 128 then some (n : Int) else none
    | t => (unsigned? t).bind fun n => if n < Nat.pow 2 128 then some (n : Int) else none

def isWord (words : List String) (t : Text) : Bool := words.contains (String.ofList t)

/-- A number with a point or an exponent, infinity, or no number at all. -/
def float? (t : Text) : Option Value :=
  let (sign, body) := match t with
    | c :: r => if isSign c then (some c, r) else (none, t)
    | [] => (none, t)
  let negative := sign == some '-'
  if isWord [".inf", ".Inf", ".INF"] body then some (.infinity negative)
  else if sign.isNone && isWord [".nan", ".NaN", ".NAN"] t then some .notANumber
  else
    match Decimal.parse? body with
    | some (n, e) => (Decimal.Binary.ofDecimal? n e).map (.float negative)
    | none => none

/-- The value of an unquoted text. -/
def Value.ofPlain (t : Text) : Value :=
  if t = [] || null? t then .null
  else
    match bool? t with
    | some b => .bool b
    | none =>
      match integer? t with
      | some n => .integer n
      | none => if hasLeadingZero t then .text t else (float? t).getD (.text t)

/-! ### Tags -/

def coreTag (name : String) : Text := "tag:yaml.org,2002:".toList ++ name.toList

/-- A core tag whose values a text may fail to be. -/
inductive CoreType where
  | bool
  | integer
  | float
  | null
deriving DecidableEq, Repr

def CoreType.ofTag? (tag : Text) : Option CoreType :=
  if tag = coreTag "bool" then some .bool
  else if tag = coreTag "int" then some .integer
  else if tag = coreTag "float" then some .float
  else if tag = coreTag "null" then some .null
  else none

def CoreType.read? (type : CoreType) (t : Text) : Option Value :=
  match type with
  | .bool => (bool? t).map .bool
  | .integer => (integer? t).map .integer
  | .float => float? t
  | .null => if null? t then some .null else none

/-- The value of a scalar, or the core type that its text is no value of. -/
def Scalar.value (s : Scalar) : Except CoreType Value :=
  match s.tag with
  | none => .ok (if s.style = .plain then .ofPlain s.text else .text s.text)
  | some tag =>
    match CoreType.ofTag? tag with
    | some type =>
      match type.read? s.text with
      | some v => .ok v
      | none => .error type
    | none =>
      .ok (if tag.head? = some '!' && s.style = .plain then .ofPlain s.text else .text s.text)

/-- The truth value of a scalar that is plain, or literal and tagged as one. -/
def Scalar.bool? (s : Scalar) : Option Bool :=
  if s.style = .plain || (s.style = .literal && s.tag = some (coreTag "bool")) then
    Yaml.bool? s.text
  else none

/-- An absent value: no text at all, whatever its tag. -/
def Scalar.isAbsent (s : Scalar) : Bool := s.style = .plain && s.text = []

end PipeBlocks.Yaml
