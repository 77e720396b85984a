import PipeBlocks.Text.Visible
import PipeBlocks.Text.Number

/-! Quoted text.

Between double quotes every character stands for itself, except that quotes and
backslashes are escaped, that tab, line feed, carriage return and null have short
escapes, and that other characters which do not print as themselves are written
as `\u` and their code point in braces. -/
namespace PipeBlocks.Text

def quotedChar (c : Char) : Text :=
  if c = '"' || c = '\\' then ['\\', c]
  else if c = '\t' then ['\\', 't']
  else if c = '\n' then ['\\', 'n']
  else if c = '\r' then ['\\', 'r']
  else if c = '\x00' then ['\\', '0']
  else if isVisible c then [c]
  else "\\u\x7b".toList ++ Nat.toDigits 16 c.toNat ++ ['}']

def quoted (t : Text) : Text := '"' :: t.flatMap quotedChar ++ ['"']

end PipeBlocks.Text
