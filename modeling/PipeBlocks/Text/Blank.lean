import PipeBlocks.Text.Basic

/-! White space, and texts trimmed of it.

White space is the Unicode property `White_Space`: 25 characters, of which
only six are ASCII. Zero-width characters and the byte order mark are not in it. -/
namespace PipeBlocks.Text

def isSpace (c : Char) : Bool :=
  let n := c.toNat
  (0x09 ≤ n && n ≤ 0x0D) || n == 0x20 || n == 0x85 || n == 0xA0 || n == 0x1680 ||
    (0x2000 ≤ n && n ≤ 0x200A) || n == 0x2028 || n == 0x2029 || n == 0x202F ||
    n == 0x205F || n == 0x3000

def trimStart (t : Text) : Text := t.dropWhile isSpace

def trimEnd (t : Text) : Text := (trimStart t.reverse).reverse

/-- The text without the white space at its two ends. -/
def trim (t : Text) : Text := trimEnd (trimStart t)

def isBlank (t : Text) : Bool := t.all isSpace

end PipeBlocks.Text
