import BlockScript.Language

/-!
# Reading string literals

How a reader of a target language reads a string literal: from its first
character to the quote that ends it, with the text that the characters between
stand for. A reader refuses a literal that does not end, and an escape that is
read otherwise in some version of the language or that no literal here needs.

Results:

* `LiteralRules.read_flatMap`: a literal that is written character by character
  is read character by character.
-/

namespace BlockScript

/-- How the characters between two quotes are read. -/
structure LiteralRules where
  /-- The character that ends the literal. -/
  quote : Char
  /-- What the characters behind a backslash stand for, and how many of them
      belong to the escape. -/
  unescape : List Char → Option (List Char × Nat)
  /-- Whether a character that stands ahead of certain others is no plain text: it
      breaks the literal off, or an expression starts there. -/
  interrupts : Char → List Char → Bool

namespace LiteralRules

variable (rules : LiteralRules)

/-- Reads the characters of a literal up to the quote that ends it, where the next
    `skip` characters belong to an escape that was read already. Gives the text,
    and what follows the literal. -/
def read : Nat → List Char → Option (List Char × List Char)
  | _, [] => none
  | skip + 1, _ :: rest => read skip rest
  | 0, c :: rest =>
    if c = rules.quote then some ([], rest)
    else if c = '\\' then do
      let (meant, used) ← rules.unescape rest
      let (text, after) ← read used rest
      return (meant ++ text, after)
    else if rules.interrupts c rest then none
    else do
      let (text, after) ← read 0 rest
      return (c :: text, after)

/-! ## Reading what was written -/

/-- Whether characters are read as one character ahead of anything that is safe to
    follow, and are themselves safe to follow. -/
def ReadsAs (safe : List Char → Prop) (written : List Char) (c : Char) : Prop :=
  ∀ tail, safe tail → safe (written ++ tail) ∧
    rules.read 0 (written ++ tail) =
      (rules.read 0 tail).map fun (text, after) => (c :: text, after)

variable {rules} {safe : List Char → Prop}

/-- The characters of an escape are skipped once it is read. -/
theorem read_append (written tail : List Char) :
    rules.read written.length (written ++ tail) = rules.read 0 tail := by
  induction written with
  | nil => rfl
  | cons c written ih => exact ih

/-- A literal that is written character by character is read character by
    character. -/
theorem read_flatMap {write : Char → List Char} {text : List Char}
    (hwrite : ∀ c ∈ text, rules.ReadsAs safe (write c) c) {rest : List Char}
    (hend : safe (rules.quote :: rest)) :
    safe (text.flatMap write ++ rules.quote :: rest) ∧
      rules.read 0 (text.flatMap write ++ rules.quote :: rest) = some (text, rest) := by
  induction text with
  | nil => exact ⟨hend, by simp [read]⟩
  | cons c text ih =>
    obtain ⟨hsafe, hread⟩ := ih fun d hd => hwrite d (by simp [hd])
    obtain ⟨hsafe', hread'⟩ := hwrite c (by simp) _ hsafe
    rw [List.flatMap_cons, List.append_assoc]
    refine ⟨hsafe', ?_⟩
    rw [hread', hread]
    rfl

/-- A character that stands for itself. -/
theorem readsAs_self {c : Char} (hquote : c ≠ rules.quote) (hslash : c ≠ '\\')
    (hplain : ∀ tail, safe tail → safe (c :: tail) ∧ rules.interrupts c tail = false) :
    rules.ReadsAs safe [c] c := by
  intro tail htail
  obtain ⟨hsafe, hno⟩ := hplain tail htail
  refine ⟨hsafe, ?_⟩
  rw [List.singleton_append, read, if_neg hquote, if_neg hslash, hno]
  cases rules.read 0 tail <;> rfl

/-- An escape that stands for a character. -/
theorem readsAs_escape {c : Char} (behind : List Char) (hquote : rules.quote ≠ '\\')
    (hsafe : ∀ tail, safe ('\\' :: tail))
    (hmeant : ∀ tail, rules.unescape (behind ++ tail) = some ([c], behind.length)) :
    rules.ReadsAs safe ('\\' :: behind) c := by
  intro tail _
  refine ⟨hsafe _, ?_⟩
  rw [List.cons_append, read, if_neg (Ne.symm hquote), if_pos rfl, hmeant]
  show (rules.read behind.length (behind ++ tail)).bind _ = _
  rw [read_append]
  cases rules.read 0 tail <;> rfl

end LiteralRules

/-- The value of a hexadecimal digit. -/
def hexDigit? (c : Char) : Option Nat :=
  if c.isDigit then some (c.toNat - '0'.toNat)
  else if 'a' ≤ c ∧ c ≤ 'f' then some (c.toNat - 'a'.toNat + 10)
  else if 'A' ≤ c ∧ c ≤ 'F' then some (c.toNat - 'A'.toNat + 10)
  else none

/-- The value of a decimal digit. -/
def decimalDigit? (c : Char) : Option Nat :=
  if c.isDigit then some (c.toNat - '0'.toNat) else none

/-- The number that digits of a base stand for. -/
def numberOf (base : Nat) (digits : List Nat) : Nat :=
  digits.foldl (fun value digit => base * value + digit) 0

/-- The digits at the start of some characters, no more than `most`. -/
def leadingDigits (digit? : Char → Option Nat) (most : Nat) (cs : List Char) : List Nat :=
  ((cs.take most).takeWhile fun c => (digit? c).isSome).filterMap digit?

/-! ## Python -/

namespace Python

/-- A backslash stands ahead of itself, a quote, a letter for a control character,
    or an `x` with the two digits of a character number. -/
def unescape : List Char → Option (List Char × Nat)
  | [] => none
  | c :: rest =>
    if c = '\\' || c = '\'' || c = '"' then some ([c], 1)
    else if c = 'n' then some (['\n'], 1)
    else if c = 'r' then some (['\r'], 1)
    else if c = 't' then some (['\t'], 1)
    else if c = 'x' then
      let digits := leadingDigits hexDigit? 2 rest
      if digits.length = 2 then some ([Char.ofNat (numberOf 16 digits)], 3) else none
    else none

/-- A literal between two quotes ends on its line. -/
def literalRules (quote : Char) : LiteralRules where
  quote := quote
  unescape := unescape
  interrupts c _ := c = '\n' || c = '\r'

/-- Reads a string literal. Three quotes at its start open one over several lines,
    which is refused. -/
def readLiteral : List Char → Option (List Char × List Char)
  | [] => none
  | c :: rest =>
    if (c = '\'' || c = '"') && !([c, c].isPrefixOf rest) then (literalRules c).read 0 rest
    else none

end Python

/-! ## Lua -/

namespace Lua

/-- A backslash stands ahead of itself, a quote, a letter for a control character,
    or up to three digits of the number of a byte. A byte beyond ASCII is no
    character of its own. -/
def unescape : List Char → Option (List Char × Nat)
  | [] => none
  | c :: rest =>
    if c = '\\' || c = '\'' || c = '"' then some ([c], 1)
    else if c = 'n' then some (['\n'], 1)
    else if c = 'r' then some (['\r'], 1)
    else if c = 't' then some (['\t'], 1)
    else
      let digits := leadingDigits decimalDigit? 3 (c :: rest)
      let byte := numberOf 10 digits
      if digits ≠ [] ∧ byte < 0x80 then some ([Char.ofNat byte], digits.length) else none

/-- A literal between two quotes ends on its line. -/
def literalRules (quote : Char) : LiteralRules where
  quote := quote
  unescape := unescape
  interrupts c _ := c = '\n' || c = '\r'

/-- Reads a string literal. -/
def readLiteral : List Char → Option (List Char × List Char)
  | [] => none
  | c :: rest => if c = '\'' || c = '"' then (literalRules c).read 0 rest else none

end Lua

/-! ## PHP -/

namespace Php

/-- Between single quotes, a backslash stands ahead of itself or a single quote;
    any other backslash is a character like others. -/
def unescapeSingle : List Char → Option (List Char × Nat)
  | [] => none
  | c :: _ => if c = '\\' || c = '\'' then some ([c], 1) else some (['\\'], 0)

/-- Between double quotes, a backslash stands ahead of itself, a double quote, a
    dollar sign, a letter for a control character, or an `x` with up to two digits
    of the number of a byte. A byte beyond ASCII is no character of its own. -/
def unescapeDouble : List Char → Option (List Char × Nat)
  | [] => none
  | c :: rest =>
    if c = '\\' || c = '"' || c = '$' then some ([c], 1)
    else if c = 'n' then some (['\n'], 1)
    else if c = 'r' then some (['\r'], 1)
    else if c = 't' then some (['\t'], 1)
    else if c = 'x' then
      let digits := leadingDigits hexDigit? 2 rest
      let byte := numberOf 16 digits
      if digits ≠ [] ∧ byte < 0x80 then some ([Char.ofNat byte], digits.length + 1) else none
    else none

/-- Whether a variable is put into a text between double quotes: a dollar sign
    ahead of a name or a brace, or a brace ahead of a dollar sign. -/
def opensVariable : Char → List Char → Bool
  | _, [] => false
  | c, d :: _ =>
    (c = '$' && (d = '\x7b' || isSafeChar d && !d.isDigit || 0x80 ≤ d.toNat)) ||
      (c = '\x7b' && d = '$')

/-- A literal between single quotes. -/
def singleRules : LiteralRules where
  quote := '\''
  unescape := unescapeSingle
  interrupts _ _ := false

/-- A literal between double quotes. -/
def doubleRules : LiteralRules where
  quote := '"'
  unescape := unescapeDouble
  interrupts := opensVariable

/-- Reads a string literal. One with a variable in it is refused. -/
def readLiteral : List Char → Option (List Char × List Char)
  | [] => none
  | c :: rest =>
    if c = '\'' then singleRules.read 0 rest
    else if c = '"' then doubleRules.read 0 rest
    else none

end Php

/-- Reads the string literal of a language that starts with the first of some
    characters. Gives its text, and what follows it. -/
def Language.readLiteral : Language → List Char → Option (List Char × List Char)
  | .python => Python.readLiteral
  | .lua => Lua.readLiteral
  | .php => Php.readLiteral

end BlockScript
