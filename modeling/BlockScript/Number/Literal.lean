import BlockScript.Failure
import BlockScript.Number.Reading
import BlockScript.Text.Word

/-!
# Numbers in program text

The literal for the number in a field, and the question whether a piece of
program text is a number.
-/

namespace BlockScript.Number

open BlockScript.Text

/-- `_parse_number`: the double that a field value stands for: a truth value as 0 or
    1, a number, or a text that spells one. An integer beyond the doubles is an error
    of its own. -/
def doubleOf (value : Json) : Except Failure Double :=
  match value with
  | .bool b => .ok (.ofInt (if b then 1 else 0))
  | .int n =>
    match Double.ofInt n with
    | .infinite _ => .error .integerTooLarge
    | d => .ok d
  | .float d => .ok d
  | .str text =>
    match readDouble? text with
    | some d => .ok d
    | none => .error (.unsupported "number" value)
  | _ => .error (.unsupported "number" value)

/-- Integers of smaller magnitude are written without a point. -/
def plainLimit : Nat :=
  Nat.pow 10 16

/-- The literal of a finite double; infinities and NaN have none that all
    languages share. -/
def literalOf? (d : Double) : Option String :=
  if !d.isFinite then none
  else
    match d.toInt? with
    | some n => if n.natAbs < plainLimit then some (toString n) else some d.toText
    | none => some d.toText

/-- `_number_literal`: the literal for a field value. -/
def literal? (value : Json) : Except Failure (Option String) := do
  return literalOf? (← doubleOf value)

/-- The number that a piece of program text spells, if it is finite. The words
    for infinity and NaN are identifiers in a program. -/
def finiteNumber? (code : String) : Option Double :=
  (readDouble? code).filter Double.isFinite

/-- `_is_number`: whether a piece of program text is a finite number. -/
def isNumber (code : String) : Bool :=
  (finiteNumber? code).isSome

/-- `_SIMPLE_OPERAND`: whether a piece of program text is one word, perhaps after a
    dollar sign and before a line feed. -/
def isSingleWord (code : String) : Bool :=
  let word :=
    match code.toList with
    | '$' :: rest => dropLastNewline rest
    | cs => dropLastNewline cs
  !word.isEmpty && word.all isWordChar

end BlockScript.Number
