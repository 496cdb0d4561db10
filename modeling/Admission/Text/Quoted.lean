/-
# Admission.Text.Quoted — a text inside an error message

An error message shows the text it complains about between double quotes, so that white space and
invisible characters can be seen: a quote and a backslash are escaped, tab, line feed, carriage
return and NUL have letters, and every other character without a glyph of its own is written by its
code point in lower-case hexadecimal.
-/
import Admission.Text.Extender
import Admission.Text.Printable

namespace Admission.Text

/-- How one character is written between double quotes. -/
def escape (c : Char) : List Char :=
  if c = '"' then ['\\', '"']
  else if c = '\\' then ['\\', '\\']
  else if c = '\t' then ['\\', 't']
  else if c = '\r' then ['\\', 'r']
  else if c = '\n' then ['\\', 'n']
  else if c = '\x00' then ['\\', '0']
  else if isExtender c || !isPrintable c then
    ['\\', 'u', '\x7b'] ++ Nat.toDigits 16 c.toNat ++ ['\x7d']
  else [c]

/-- The text between double quotes. -/
def quoted (s : String) : String :=
  String.ofList ('"' :: s.toList.flatMap escape ++ ['"'])

end Admission.Text
