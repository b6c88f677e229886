import BlockScript.Number.Decimal
import BlockScript.Text.Blank
import BlockScript.Text.Digit

/-!
# Numbers typed as text

A number in a text field may have blanks around it, digits of any script,
a sign, and an underscore between two digits. Both integers and doubles are
read this way; doubles also know a point, a power of ten, and the words for
infinity and NaN.
-/

namespace BlockScript.Number

open BlockScript.Text

/-- The blanks that may stand around a number. The four separators U+001C to
    U+001F may not. -/
def isNumberBlank (c : Char) : Bool :=
  isBlank c && !(0x1C ≤ c.toNat && c.toNat ≤ 0x1F)

/-- A digit of any script as the digit of the same value in `0` to `9`; other
    characters stay. -/
def plainDigit (c : Char) : Char :=
  match digit? c with
  | some value => Nat.digitChar value
  | none => c

/-- Removes underscores, each of which must stand between two digits. The flag
    tells whether the last character was a digit. -/
def dropUnderscores? : Bool → List Char → Option (List Char)
  | _, [] => some []
  | afterDigit, '_' :: rest =>
    match rest with
    | [] => none
    | next :: _ =>
      if afterDigit && next.isDigit then dropUnderscores? false rest else none
  | _, c :: rest => (dropUnderscores? c.isDigit rest).map (c :: ·)

/-- The characters of a number without the freedoms of its spelling. -/
def plainNumeral? (text : String) : Option (List Char) :=
  dropUnderscores? false ((trimWhile isNumberBlank text.toList).map plainDigit)

/-- A sign and what follows it. No sign is a plus. -/
def splitSign : List Char → Bool × List Char
  | '-' :: rest => (true, rest)
  | '+' :: rest => (false, rest)
  | rest => (false, rest)

/-- The value of a list of decimal digits. -/
def naturalOf (digits : List Char) : Nat :=
  digits.foldl (fun value c => 10 * value + (c.toNat - '0'.toNat)) 0

/-- An integer with a sign. -/
def signed (negative : Bool) (n : Nat) : Int :=
  if negative then -(n : Int) else n

/-- The most digits, leading zeros included, that an integer may have. -/
def maxIntegerDigits : Nat := 4300

/-- The integer that a text spells. -/
def readInt? (text : String) : Option Int := do
  let (negative, digits) := splitSign (← plainNumeral? text)
  if digits.isEmpty || !digits.all Char.isDigit then none
  else if maxIntegerDigits < digits.length then none
  else some (signed negative (naturalOf digits))

/-- The power of ten after a numeral: empty, or `e` with an integer. -/
def readPower? : List Char → Option Int
  | [] => some 0
  | c :: rest =>
    if c = 'e' || c = 'E' then
      let (negative, digits) := splitSign rest
      if digits.isEmpty || !digits.all Char.isDigit then none
      else some (signed negative (naturalOf digits))
    else none

/-- The decimal that an unsigned numeral spells: digits, a point with more
    digits, a power of ten, at least one digit before the power. -/
def readDecimal? (cs : List Char) : Option Decimal := do
  let whole := cs.takeWhile Char.isDigit
  let rest := cs.dropWhile Char.isDigit
  let (part, rest) :=
    match rest with
    | '.' :: rest => (rest.takeWhile Char.isDigit, rest.dropWhile Char.isDigit)
    | rest => ([], rest)
  if whole.isEmpty && part.isEmpty then none
  else
    let power ← readPower? rest
    some ⟨naturalOf (whole ++ part), power - part.length⟩

/-- The double that a text spells. -/
def readDouble? (text : String) : Option Double := do
  let (negative, rest) := splitSign (← plainNumeral? text)
  let word := String.ofList (rest.map Char.toLower)
  if word = "inf" || word = "infinity" then some (.infinite negative)
  else if word = "nan" then some .nan
  else (← readDecimal? rest).toDouble negative

end BlockScript.Number
