/-
TriageDesk.Text.Quoted — a text between double quotes, fit for a message.

A graphic character stands for itself, except the quote and the
backslash, which get a backslash. The null character, the tab, the line
feed and the carriage return have letters of their own; any other
character is written by its code point.
-/
import TriageDesk.Text.Digit
import TriageDesk.Text.Graphic

namespace TriageDesk.Text

/-- One character inside quotes. -/
def quoteChar (c : Char) : List Char :=
  if c = '\x00' then ['\\', '0']
  else if c = '\t' then ['\\', 't']
  else if c = '\r' then ['\\', 'r']
  else if c = '\n' then ['\\', 'n']
  else if c = '\\' then ['\\', '\\']
  else if c = '"' then ['\\', '"']
  else if isGraphic c then [c]
  else ['\\', 'u', '{'] ++ hexDigits c.toNat ++ ['}']

/-- A text between quotes. -/
def quoted (s : String) : String :=
  String.ofList ('"' :: s.toList.flatMap quoteChar ++ ['"'])

end TriageDesk.Text
