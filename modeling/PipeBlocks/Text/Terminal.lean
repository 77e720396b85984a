import PipeBlocks.Text.Basic

/-! Texts without what a terminal would obey.

An escape character starts a control sequence, which runs up to its final
character; a terminal obeys it and shows nothing of it. Control characters show
nothing either, but for those that lay out text. `Text.shown` is the text that is
left. -/
namespace PipeBlocks.Terminal

/-- Where a text stands between two characters. -/
inductive Mode where
  /-- Outside control sequences. -/
  | plain
  /-- After the escape character. -/
  | escape
  /-- After an escape character and others that want a final one. -/
  | intermediate
  /-- After an escape character and `[`. -/
  | parameters
  /-- After an escape character and `]`, up to the bell. -/
  | command
  /-- After an escape character and `P`, before what tells the device its task. -/
  | device
  /-- In the numbers of a task. -/
  | deviceNumbers
  /-- In the characters of a task that want a final one. -/
  | deviceIntermediate
  /-- In a string that goes to a device or nowhere, up to a byte 9C. -/
  | string
deriving DecidableEq, Repr

def escape : Char := '\x1b'

def bell : Char := '\x07'

def delete : Char := '\x7f'

/-- Tabulator and the ends of lines and pages. -/
def isLayout (c : Char) : Bool := c == '\t' || c == '\n' || c == '\x0c' || c == '\r'

/-- The two control characters that call off a sequence. -/
def isCancel (c : Char) : Bool := c == '\x18' || c == '\x1a'

def isBetween (first last c : Char) : Bool := first ≤ c && c ≤ last

namespace Mode

/-- Whether a character is shown. -/
def shows (c : Char) : Mode → Bool
  | plain => isLayout c || (' ' ≤ c && c != delete)
  | escape | intermediate | parameters => isLayout c
  | command | device | deviceNumbers | deviceIntermediate | string => false

/-- The mode after a character that is not shown. -/
def next (c : Char) (m : Mode) : Mode :=
  if c = Terminal.escape then escape
  else if isCancel c then plain
  else
    match m with
    | plain => plain
    | escape =>
      if c = '[' then parameters
      else if c = ']' then command
      else if c = 'P' then device
      else if c = 'X' || c = '^' || c = '_' then string
      else if isBetween '0' '~' c then plain
      else if isBetween ' ' '/' c then intermediate
      else escape
    | intermediate => if isBetween '0' '~' c then plain else intermediate
    | parameters => if isBetween '@' '~' c then plain else parameters
    | command => if c = bell then plain else command
    | device =>
      if isBetween '@' '~' c then string
      else if isBetween '0' '?' c then deviceNumbers
      else if isBetween ' ' '/' c then deviceIntermediate
      else device
    | deviceNumbers =>
      if isBetween '<' '~' c then string
      else if isBetween ' ' '/' c then deviceIntermediate
      else deviceNumbers
    | deviceIntermediate => if isBetween '0' '~' c then string else deviceIntermediate
    | string => if (String.utf8EncodeChar c).contains 0x9C then plain else string

/-- What is shown of a text; a shown character ends a sequence. -/
def shown (m : Mode) : Text → Text
  | [] => []
  | c :: r => if m.shows c then c :: shown plain r else shown (m.next c) r

end Mode

end PipeBlocks.Terminal

namespace PipeBlocks.Text

/-- What a terminal shows of a text. -/
def shown (t : Text) : Text := Terminal.Mode.plain.shown t

end PipeBlocks.Text
