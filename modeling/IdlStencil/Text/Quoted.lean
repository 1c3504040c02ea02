import IdlStencil.Text.GraphemeExtend
import IdlStencil.Text.Printable

/-!
The quoted form in which reports show a text: between double quotes, with the control characters
that have a short name written by it, and every other character that would not show written by its
code point.
-/

namespace IdlStencil.Text

/-- A character by its code point, in lower-case hexadecimal between braces. -/
def codePoint (c : Char) : List Char :=
  ['\\', 'u', '\x7b'] ++ Nat.toDigits 16 c.toNat ++ ['\x7d']

/-- One character of the quoted form. The single quote stands for itself. -/
def quoteChar (c : Char) : List Char :=
  if c = '\x00' then ['\\', '0']
  else if c = '\t' then ['\\', 't']
  else if c = '\r' then ['\\', 'r']
  else if c = '\n' then ['\\', 'n']
  else if c = '\\' then ['\\', '\\']
  else if c = '"' then ['\\', '"']
  else if isGraphemeExtend c || !isPrintable c then codePoint c
  else [c]

/-- The quoted form of a text. -/
def quoted (s : String) : String :=
  String.ofList (['"'] ++ s.toList.flatMap quoteChar ++ ['"'])

end IdlStencil.Text
