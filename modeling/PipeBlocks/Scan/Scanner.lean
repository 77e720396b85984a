import PipeBlocks.Scan.Delimiter

/-! Scanning a text byte by byte, one separator at a time.

A `Scanner` reads the bytes of a text from left to right and pauses behind each separator, so that
it can be called again for the next one. All that has a meaning to it is ASCII; the bytes of
other characters are passed over, and where such a character begins it need not know. -/
namespace PipeBlocks.Scan

structure Scanner where
  bytes : List UInt8
  delimiter : Delimiter
  /-- Where the next byte is read. -/
  pos : Nat := 0
  depth : Int := 0
  /-- The quote that opened the string in which the scanner stands. -/
  quote : Option UInt8 := none
  /-- Whether a backslash hides the next byte. -/
  escaped : Bool := false
deriving DecidableEq

namespace Scanner

def ofText (d : Delimiter) (t : Text) : Scanner := { bytes := t.bytes, delimiter := d }

def inString (s : Scanner) : Bool := s.quote.isSome

/-- Whether the byte `b` is a delimiter that may separate. -/
def separates (s : Scanner) (b : UInt8) : Bool :=
  s.quote.isNone && s.depth == 0 && b == s.delimiter.char.toUInt8 && !isStructural (.ofUInt8 b)

/-- Goes over the byte `b`. -/
def advance (s : Scanner) (b : UInt8) : Scanner :=
  match s.quote with
  | some quote =>
    if s.escaped then { s with pos := s.pos + 1, escaped := false }
    else if b = '\\'.toUInt8 then { s with pos := s.pos + 1, escaped := true }
    else if b = quote then { s with pos := s.pos + 1, quote := none }
    else { s with pos := s.pos + 1 }
  | none =>
    if isQuote (.ofUInt8 b) then { s with pos := s.pos + 1, quote := some b }
    else if isOpener (.ofUInt8 b) then { s with pos := s.pos + 1, depth := s.depth + 1 }
    else if isCloser (.ofUInt8 b) then { s with pos := s.pos + 1, depth := s.depth - 1 }
    else { s with pos := s.pos + 1 }

@[simp] theorem bytes_advance (s : Scanner) (b : UInt8) : (s.advance b).bytes = s.bytes := by
  fun_cases advance s b <;> rfl

@[simp] theorem pos_advance (s : Scanner) (b : UInt8) : (s.advance b).pos = s.pos + 1 := by
  fun_cases advance s b <;> rfl

/-- One call: the offset of the next separator, if there is one, and the scanner after it. -/
def next (s : Scanner) : Option Nat × Scanner :=
  match h : s.bytes[s.pos]? with
  | none => (none, s)
  | some b =>
    have := (List.getElem?_eq_some_iff.mp h).1
    if s.separates b then
      if b = '|'.toUInt8 ∧ s.bytes[s.pos + 1]? = some '|'.toUInt8 then
        next { s with pos := s.pos + 2 }
      else (some s.pos, { s with pos := s.pos + 1 })
    else next (s.advance b)
termination_by s.bytes.length - s.pos
decreasing_by
  · omega
  · rw [bytes_advance, pos_advance]
    omega

/-- What the next `n` calls give, each with whether the scanner stands in a string after it. -/
def calls (s : Scanner) : Nat → List (Option Nat × Bool)
  | 0 => []
  | n + 1 => (s.next.1, s.next.2.inString) :: s.next.2.calls n

end Scanner

end PipeBlocks.Scan
