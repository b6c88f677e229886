import BlockScript.Text.Digit
import BlockScript.Text.Printable

/-!
# Text shown in messages

Messages show a text between quotes, with everything that is not printable
escaped, so that any text can be told from any other.
-/

namespace BlockScript.Text

/-- One character as it stands between the quotes `quote`. -/
def shownChar (quote c : Char) : List Char :=
  if c = quote || c = '\\' then ['\\', c]
  else if c = '\n' then ['\\', 'n']
  else if c = '\r' then ['\\', 'r']
  else if c = '\t' then ['\\', 't']
  else if isPrintable c then [c]
  else if c.toNat < 0x100 then '\\' :: 'x' :: paddedDigits 16 2 c.toNat
  else if c.toNat < 0x10000 then '\\' :: 'u' :: paddedDigits 16 4 c.toNat
  else '\\' :: 'U' :: paddedDigits 16 8 c.toNat

/-- Double quotes serve a text with single quotes and no double ones; every
    other text stands in single quotes. -/
def shownQuote (cs : List Char) : Char :=
  if cs.contains '\'' && !cs.contains '"' then '"' else '\''

/-- A text between quotes. -/
def shown (s : String) : String :=
  let quote := shownQuote s.toList
  String.ofList (quote :: (s.toList.flatMap (shownChar quote) ++ [quote]))

end BlockScript.Text
