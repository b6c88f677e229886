/-!
# Text from bytes

Reading UTF-8. A byte sequence that is not well formed still gives a text: each
maximal part that begins like a character and breaks off stands as one U+FFFD.
-/

namespace BlockScript.Text

/-- The closed range of continuation bytes. -/
def continuation : Nat × Nat :=
  (0x80, 0xBF)

/-- The ranges of the bytes that must follow the first byte of a character, or
    `none` if no character starts with it. The narrowed second bytes leave out
    overlong forms, surrogates and code points above U+10FFFF. -/
def followers (first : Nat) : Option (List (Nat × Nat)) :=
  if first < 0x80 then some []
  else if first < 0xC2 then none
  else if first < 0xE0 then some [continuation]
  else if first = 0xE0 then some [(0xA0, 0xBF), continuation]
  else if first = 0xED then some [(0x80, 0x9F), continuation]
  else if first < 0xF0 then some [continuation, continuation]
  else if first = 0xF0 then some [(0x90, 0xBF), continuation, continuation]
  else if first < 0xF4 then some [continuation, continuation, continuation]
  else if first = 0xF4 then some [(0x80, 0x8F), continuation, continuation]
  else none

/-- The payload bits of the first byte of a character with `count` followers. -/
def firstPayload (first count : Nat) : Nat :=
  if count = 0 then first else first % Nat.pow 2 (6 - count)

/-- Reads the bytes that must follow: the code point if all are there, and how
    many fit. -/
def readFollowers (point : Nat) : List (Nat × Nat) → List Nat → Option Nat × Nat
  | [], _ => (some point, 0)
  | (low, high) :: ranges, byte :: bytes =>
    if low ≤ byte && byte ≤ high then
      let (result, count) := readFollowers (point * 64 + byte % 64) ranges bytes
      (result, count + 1)
    else (none, 0)
  | _ :: _, [] => (none, 0)

/-- Reads UTF-8, where the next `skip` bytes belong to a character or a broken
    part that was read already. -/
def decodeFrom : Nat → List Nat → List Char
  | _, [] => []
  | skip + 1, _ :: bytes => decodeFrom skip bytes
  | 0, first :: bytes =>
    match followers first with
    | none => '\uFFFD' :: decodeFrom 0 bytes
    | some ranges =>
      match readFollowers (firstPayload first ranges.length) ranges bytes with
      | (some point, count) => Char.ofNat point :: decodeFrom count bytes
      | (none, count) => '\uFFFD' :: decodeFrom count bytes

/-- The text of a byte sequence. -/
def decode (bytes : List Nat) : String :=
  String.ofList (decodeFrom 0 bytes)

end BlockScript.Text
