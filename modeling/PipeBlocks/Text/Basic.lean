/-! Text, and the room it takes.

A text is a list of characters. Positions in a document are counted in the
bytes of its UTF-8 form, so `byteLength` is the length every offset is made of. -/
namespace PipeBlocks

abbrev Text := List Char

namespace Text

def byteLength : Text → Nat
  | [] => 0
  | c :: r => c.utf8Size + byteLength r

@[simp] theorem byteLength_nil : byteLength [] = 0 := rfl

@[simp] theorem byteLength_cons (c : Char) (r : Text) :
    byteLength (c :: r) = c.utf8Size + byteLength r := rfl

@[simp] theorem byteLength_append (t u : Text) :
    byteLength (t ++ u) = byteLength t + byteLength u := by
  induction t with
  | nil => simp
  | cons c r ih => simp [ih, Nat.add_assoc]

/-- The UTF-8 form of a text. -/
def bytes (t : Text) : List UInt8 := t.flatMap String.utf8EncodeChar

/-- The text after `n` bytes, if no character is cut there. -/
def dropBytes? : Nat → Text → Option Text
  | 0, t => some t
  | _ + 1, [] => none
  | n + 1, c :: r => if c.utf8Size ≤ n + 1 then dropBytes? (n + 1 - c.utf8Size) r else none

/-- The first `n` bytes of a text, if no character is cut there. -/
def takeBytes? : Nat → Text → Option Text
  | 0, _ => some []
  | _ + 1, [] => none
  | n + 1, c :: r =>
    if c.utf8Size ≤ n + 1 then (takeBytes? (n + 1 - c.utf8Size) r).map (c :: ·) else none

/-- The text from byte `i` up to byte `j`, if no character is cut at either. -/
def slice? (t : Text) (i j : Nat) : Option Text := (t.dropBytes? i).bind (takeBytes? (j - i))

/-- The texts in order, with `separator` between neighbours. -/
def join (separator : Text) : List Text → Text
  | [] => []
  | [t] => t
  | t :: u :: rest => t ++ separator ++ join separator (u :: rest)

/-- The text up to a line feed, or a carriage return and a line feed. -/
def firstLine : Text → Text
  | [] => []
  | '\n' :: _ => []
  | '\r' :: '\n' :: _ => []
  | c :: r => c :: firstLine r

/-- Whether `t` occurs in `u` as a run of neighbouring characters. -/
def occursIn (t u : Text) : Bool :=
  match u with
  | [] => t.isEmpty
  | c :: r => t.isPrefixOf (c :: r) || occursIn t r

end Text

end PipeBlocks
