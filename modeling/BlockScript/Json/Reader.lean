import BlockScript.Json.Basic
import BlockScript.Number.Reading

/-!
# Reading JSON text

A reader for JSON text that also accepts `NaN`, `Infinity` and `-Infinity`.
Every fault is reported with its cause and the place where it shows, counted in
characters. Of two members with one key the later value stands at the place of
the earlier one.

Lists and objects may be limited to so many levels of nesting. Half a surrogate
pair can be spelled by an escape but is no character; what is read then has a
character that stands for it, and the reader notes that there was one.
-/

namespace BlockScript.Json

open BlockScript.Number

/-! ## Faults -/

/-- What is wrong with a JSON text, or that there is no room for one more list or
    object inside of others. -/
inductive Fault where
  | expectingValue
  | expectingName
  | expectingColon
  | expectingComma
  | extraData
  | unterminatedString
  | badEscape
  | badUnicodeEscape
  | controlCharacter
  | byteOrderMark
  | tooNested
  deriving DecidableEq, Repr

/-- The words for a fault. -/
def Fault.words : Fault → String
  | .expectingValue => "Expecting value"
  | .expectingName => "Expecting property name enclosed in double quotes"
  | .expectingColon => "Expecting ':' delimiter"
  | .expectingComma => "Expecting ',' delimiter"
  | .extraData => "Extra data"
  | .unterminatedString => "Unterminated string starting at"
  | .badEscape => "Invalid \\escape"
  | .badUnicodeEscape => "Invalid \\uXXXX escape"
  | .controlCharacter => "Invalid control character at"
  | .byteOrderMark => "Unexpected UTF-8 BOM (decode using utf-8-sig)"
  | .tooNested => "maximum recursion depth exceeded"

/-- Why a text cannot be read: a fault of the text at a position, or an integer
    with more digits than are converted. -/
inductive ReadError where
  | fault (fault : Fault) (position : Nat)
  | tooManyDigits (count : Nat)
  deriving DecidableEq, Repr

/-- The message for an error in `text`: lines and columns count from one. -/
def ReadError.message (text : String) : ReadError → String
  | .fault cause position =>
    let before := text.toList.take position
    let line := before.count '\n' + 1
    let column := (before.reverse.takeWhile (· ≠ '\n')).length + 1
    s!"{cause.words}: line {line} column {column} (char {position})"
  | .tooManyDigits count =>
    s!"Exceeds the limit ({maxIntegerDigits} digits) for integer string conversion: " ++
      s!"value has {count} digits; use sys.set_int_max_str_digits() to increase the limit"

/-! ## The text that remains -/

/-- The part of a text not read yet and where it starts, and whether half a
    surrogate pair was read before. -/
structure Cursor where
  rest : List Char
  position : Nat
  half : Bool := false

/-- Passes over `count` characters. -/
def Cursor.skip (cursor : Cursor) (count : Nat) : Cursor :=
  { cursor with rest := cursor.rest.drop count, position := cursor.position + count }

/-- The four characters that may stand between the parts of a JSON text. -/
def isSpace (c : Char) : Bool :=
  c = ' ' || c = '\t' || c = '\n' || c = '\r'

/-- Passes over the spaces ahead. -/
def Cursor.skipSpaces (cursor : Cursor) : Cursor :=
  cursor.skip (cursor.rest.takeWhile isSpace).length

/-- Fails at the cursor. -/
def Cursor.fail {α : Type} (cursor : Cursor) (fault : Fault) : Except ReadError α :=
  .error (.fault fault cursor.position)

/-! ## Strings -/

/-- The value of a hexadecimal digit. -/
def hexValue? (c : Char) : Option Nat :=
  if '0' ≤ c && c ≤ '9' then some (c.toNat - '0'.toNat)
  else if 'a' ≤ c && c ≤ 'f' then some (c.toNat - 'a'.toNat + 10)
  else if 'A' ≤ c && c ≤ 'F' then some (c.toNat - 'A'.toNat + 10)
  else none

/-- The code unit that the first four characters spell. A fifth one must follow,
    since a string does not end inside an escape. -/
def codeUnit? : List Char → Option Nat
  | a :: b :: c :: d :: _ :: _ => do
    some ((((← hexValue? a) * 16 + (← hexValue? b)) * 16 + (← hexValue? c)) * 16 + (← hexValue? d))
  | _ => none

/-- The character that a backslash and a letter stand for. -/
def namedEscape? : Char → Option Char
  | '"' => some '"'
  | '\\' => some '\\'
  | '/' => some '/'
  | 'b' => some '\x08'
  | 'f' => some '\x0c'
  | 'n' => some '\n'
  | 'r' => some '\r'
  | 't' => some '\t'
  | _ => none

/-- The first half of a surrogate pair. -/
def isHighSurrogate (unit : Nat) : Bool :=
  0xD800 ≤ unit && unit < 0xDC00

/-- The second half of a surrogate pair. -/
def isLowSurrogate (unit : Nat) : Bool :=
  0xDC00 ≤ unit && unit < 0xE000

/-- The character of a surrogate pair. -/
def pairChar (high low : Nat) : Char :=
  Char.ofNat (0x10000 + (high - 0xD800) * 0x400 + (low - 0xDC00))

/-- What an escape spells. -/
inductive Escaped where
  | char (c : Char)
  /-- Half a surrogate pair. -/
  | half (unit : Nat)

/-- What a code unit of its own is. -/
def Escaped.ofUnit (unit : Nat) : Escaped :=
  if isHighSurrogate unit || isLowSurrogate unit then .half unit else .char (Char.ofNat unit)

/-- The character that is read. The last characters for private use stand for the
    halves of surrogate pairs. -/
def Escaped.read : Escaped → Char
  | .char c => c
  | .half unit => Char.ofNat (0x10F800 + (unit - 0xD800))

/-- Whether a character may stand for half a surrogate pair. -/
def standsForHalf (c : Char) : Bool :=
  0x10F800 ≤ c.toNat

/-- Whether half a surrogate pair is spelled. -/
def Escaped.isHalf : Escaped → Bool
  | .char _ => false
  | .half _ => true

/-- Reads what follows a backslash at `position`: what is meant, and how many
    characters spell it. The string itself starts at `start`. -/
def readEscape (start position : Nat) : List Char → Except ReadError (Escaped × Nat)
  | [] => .error (.fault .unterminatedString start)
  | 'u' :: rest =>
    match codeUnit? rest with
    | none => .error (.fault .badUnicodeEscape (position + 1))
    | some high =>
      match rest.drop 4 with
      | '\\' :: 'u' :: rest =>
        if isHighSurrogate high && 4 < rest.length then
          match codeUnit? rest with
          | none => .error (.fault .badUnicodeEscape (position + 7))
          | some low =>
            if isLowSurrogate low then .ok (.char (pairChar high low), 11)
            else .ok (.ofUnit high, 5)
        else .ok (.ofUnit high, 5)
      | _ => .ok (.ofUnit high, 5)
  | c :: _ =>
    match namedEscape? c with
    | some named => .ok (.char named, 1)
    | none => .error (.fault .badEscape position)

/-- Reads the rest of a string that starts at `start`, given the characters read
    so far, latest first. -/
def readString (start position : Nat) (half : Bool) (done : List Char) (cs : List Char) :
    Except ReadError (String × Cursor) :=
  match cs with
  | [] => .error (.fault .unterminatedString start)
  | c :: rest =>
    if c = '"' then .ok (String.ofList done.reverse, ⟨rest, position + 1, half⟩)
    else if c = '\\' then
      match readEscape start position rest with
      | .error error => .error error
      | .ok (escaped, taken) =>
        readString start (position + 1 + taken) (half || escaped.isHalf) (escaped.read :: done)
          (rest.drop taken)
    else if c.toNat < 0x20 then .error (.fault .controlCharacter position)
    else readString start (position + 1) half (c :: done) rest
termination_by cs.length
decreasing_by
  all_goals simp only [List.length_cons, List.length_drop]; omega

/-- Reads a string from the character after its opening quote on. -/
def Cursor.readString (cursor : Cursor) (rest : List Char) : Except ReadError (String × Cursor) :=
  Json.readString cursor.position (cursor.position + 1) cursor.half [] rest

/-! ## Numbers -/

/-- The digits after a point, if the text goes on with a point and a digit. -/
def fractionDigits : List Char → List Char
  | '.' :: rest => rest.takeWhile Char.isDigit
  | _ => []

/-- How many characters at the start of a text spell a power of ten: none, if
    no digit follows the `e`. -/
def powerLength : List Char → Nat
  | c :: rest =>
    if c = 'e' || c = 'E' then
      let sign :=
        match rest with
        | '+' :: _ => 1
        | '-' :: _ => 1
        | _ => 0
      let digits := ((rest.drop sign).takeWhile Char.isDigit).length
      if digits = 0 then 0 else 1 + sign + digits
    else 0
  | [] => 0

/-- The digits of the integer part: a zero alone, or a run that starts with
    another digit. -/
def integerDigits : List Char → List Char
  | '0' :: _ => ['0']
  | rest => rest.takeWhile Char.isDigit

/-- Reads a number. Without point and power of ten it is an integer. -/
def readNumber (cursor : Cursor) : Except ReadError (Json × Cursor) :=
  let (negative, unsigned) :=
    match cursor.rest with
    | '-' :: rest => (true, rest)
    | rest => (false, rest)
  let whole := integerDigits unsigned
  if whole.isEmpty then cursor.fail .expectingValue
  else
    let rest := unsigned.drop whole.length
    let part := fractionDigits rest
    let rest := if part.isEmpty then rest else rest.drop (1 + part.length)
    let power := powerLength rest
    let length := (if negative then 1 else 0) + whole.length +
      (if part.isEmpty then 0 else 1 + part.length) + power
    if part.isEmpty && power = 0 then
      if maxIntegerDigits < whole.length then .error (.tooManyDigits whole.length)
      else .ok (.int (signed negative (naturalOf whole)), cursor.skip length)
    else
      let exponent := (readPower? (rest.take power)).getD 0
      let decimal : Decimal := ⟨naturalOf (whole ++ part), exponent - part.length⟩
      .ok (.float (decimal.toDouble negative), cursor.skip length)

/-! ## Values -/

/-- The values that are written as a word. -/
def wordValues : List (String × Json) :=
  [("null", .null), ("true", .bool true), ("false", .bool false), ("NaN", .float .nan),
    ("Infinity", .float (.infinite false)), ("-Infinity", .float (.infinite true))]

/-- The word that the text goes on with, if it is one of `wordValues`. -/
def readWord? (cursor : Cursor) : Option (Json × Cursor) :=
  wordValues.findSome? fun (word, value) =>
    if word.toList.isPrefixOf cursor.rest then some (value, cursor.skip word.length) else none

/-- One level of nesting less, where the levels are limited. -/
def oneFewer (levels : Option Nat) : Option Nat :=
  levels.map (· - 1)

mutual

/-- Reads a value that starts at the cursor. `fuel` bounds the nesting of calls,
    and `levels` that of lists and objects. -/
def readValue : Nat → Option Nat → Cursor → Except ReadError (Json × Cursor)
  | 0, _, cursor => cursor.fail .expectingValue
  | fuel + 1, levels, cursor =>
    match cursor.rest with
    | '"' :: rest => do
      let (text, cursor) ← cursor.readString rest
      return (.str text, cursor)
    | '[' :: _ =>
      if levels = some 0 then cursor.fail .tooNested
      else do
        let cursor := (cursor.skip 1).skipSpaces
        match cursor.rest with
        | ']' :: _ => return (.arr [], cursor.skip 1)
        | _ =>
          let (items, cursor) ← readItems fuel (oneFewer levels) cursor
          return (.arr items, cursor)
    | '{' :: _ =>
      if levels = some 0 then cursor.fail .tooNested
      else do
        let cursor := (cursor.skip 1).skipSpaces
        match cursor.rest with
        | '}' :: _ => return (.obj [], cursor.skip 1)
        | _ =>
          let (members, cursor) ← readMembers fuel (oneFewer levels) [] cursor
          return (.obj members, cursor)
    | _ =>
      match readWord? cursor with
      | some result => .ok result
      | none => readNumber cursor

/-- Reads the items of a list from the first one on, and its end. -/
def readItems : Nat → Option Nat → Cursor → Except ReadError (List Json × Cursor)
  | 0, _, cursor => cursor.fail .expectingValue
  | fuel + 1, levels, cursor => do
    let (item, cursor) ← readValue fuel levels cursor
    let cursor := cursor.skipSpaces
    match cursor.rest with
    | ']' :: _ => return ([item], cursor.skip 1)
    | ',' :: _ =>
      let (items, cursor) ← readItems fuel levels (cursor.skip 1).skipSpaces
      return (item :: items, cursor)
    | _ => cursor.fail .expectingComma

/-- Reads the members of an object from the next one on, and its end, given the
    members before. -/
def readMembers : Nat → Option Nat → List (String × Json) → Cursor →
    Except ReadError (List (String × Json) × Cursor)
  | 0, _, _, cursor => cursor.fail .expectingName
  | fuel + 1, levels, members, cursor =>
    match cursor.rest with
    | '"' :: rest => do
      let (key, cursor) ← cursor.readString rest
      let cursor := cursor.skipSpaces
      match cursor.rest with
      | ':' :: _ =>
        let (value, cursor) ← readValue fuel levels (cursor.skip 1).skipSpaces
        let members := insert members key value
        let cursor := cursor.skipSpaces
        match cursor.rest with
        | '}' :: _ => return (members, cursor.skip 1)
        | ',' :: _ => readMembers fuel levels members (cursor.skip 1).skipSpaces
        | _ => cursor.fail .expectingComma
      | _ => cursor.fail .expectingColon
    | _ => cursor.fail .expectingName

end

/-- Reads a whole text as one value with so many levels of nesting, if they are
    limited, and tells whether it spells half a surrogate pair. Every call but a
    value's first uses up a character, so twice the length of the text is fuel
    enough. -/
def readWithin (levels : Option Nat) (text : String) : Except ReadError (Json × Bool) := do
  let cs := text.toList
  match cs with
  | '\uFEFF' :: _ => .error (.fault .byteOrderMark 0)
  | _ =>
    let (value, cursor) ← readValue (2 * cs.length + 2) levels (Cursor.skipSpaces ⟨cs, 0, false⟩)
    let cursor := cursor.skipSpaces
    if cursor.rest.isEmpty then return (value, cursor.half) else cursor.fail .extraData

/-- Reads a whole text as one value, however deep it is nested. -/
def read (text : String) : Except ReadError Json :=
  (readWithin none text).map Prod.fst

end BlockScript.Json
