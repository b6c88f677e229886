import BlockScript.Names

/-!
# Tokens

How a reader of a target language cuts the text of an expression into tokens,
always taking the longest one. The lexer is an automaton that goes over the
text once. It refuses what the languages do not agree on or what no expression
needs: comments, line breaks between tokens, unfinished texts, and numbers that
run into a word. A text that it accepts is cut into the same tokens by the
language itself.

Results:

* `Lexis.run_append`: a text is read piece by piece.
* `Lexis.Spells.append`: tokens of two pieces next to each other, if no token
  of the first can go on in the second.
* `Lexis.lex_of_spells`: the tokens of a whole text.
-/

namespace BlockScript.Reading

/-! ## Tokens -/

/-- A token: a word that is no keyword, a number, a text between quotes, or the
    sign of an operator, a delimiter or a keyword. -/
inductive Token where
  | name (word : String)
  | number (digits : String)
  | text (literal : String)
  | mark (sign : String)
  deriving DecidableEq, Repr

/-- What a lexer knows of a language. -/
structure Lexis where
  /-- The operators and delimiters, with what opens a comment. -/
  signs : List (List Char)
  /-- The signs that open a comment or change a variable. -/
  refused : List (List Char)
  keywords : List String
  /-- Whether keywords are known in any case; then the list has them in lower
      case. -/
  foldsKeywords : Bool
  /-- What a variable starts with. -/
  sigil : Option Char
  quotes : List Char
  /-- The characters that may follow a backslash in a text. -/
  escapes : List Char
  /-- A quote with a character that means something else between two of it. -/
  barred : List (Char × Char)

/-- How far a number has been read. A `0` stands alone before a point, and
    `point`, `power` and `powerSign` need a digit to come. -/
inductive NumberPart where
  | zero | whole | point | fraction | power | powerSign | powerDigits
  deriving DecidableEq, Repr

/-- What a lexer is in the middle of, with the characters of it so far. -/
inductive Mode where
  | blank
  | word (read : List Char)
  | sigil (sign : Char)
  | number (part : NumberPart) (read : List Char)
  | text (quote : Char) (escaped : Bool) (read : List Char)
  | sign (read : List Char)
  | complete (token : Token)
  deriving DecidableEq, Repr

/-- Whether the mode is between two tokens. -/
def Mode.isOpen : Mode → Bool
  | .blank | .complete _ => true
  | _ => false

/-- Whether the mode is between two tokens, in a word or in a number. -/
def Mode.isLoose : Mode → Bool
  | .blank | .complete _ | .word _ | .number _ _ => true
  | _ => false

/-- A character that ends every word and every number. -/
def IsCloser (c : Char) : Prop :=
  isSafeChar c = false ∧ c ≠ '.'

instance : DecidablePred IsCloser := fun c =>
  inferInstanceAs (Decidable (isSafeChar c = false ∧ c ≠ '.'))

namespace NumberPart

/-- How a number goes on with a character, if it does. -/
def next : NumberPart → Char → Option NumberPart
  | .zero, c => if c = '.' then some .point else if c = 'e' then some .power else none
  | .whole, c =>
    if c.isDigit then some .whole
    else if c = '.' then some .point
    else if c = 'e' then some .power
    else none
  | .point, c => if c.isDigit then some .fraction else none
  | .fraction, c =>
    if c.isDigit then some .fraction else if c = 'e' then some .power else none
  | .power, c =>
    if c.isDigit then some .powerDigits
    else if c = '+' || c = '-' then some .powerSign
    else none
  | .powerSign, c => if c.isDigit then some .powerDigits else none
  | .powerDigits, c => if c.isDigit then some .powerDigits else none

/-- Whether a number may end here. -/
def isWhole : NumberPart → Bool
  | .zero | .whole | .fraction | .powerDigits => true
  | .point | .power | .powerSign => false

end NumberPart

namespace Lexis

variable (lexis : Lexis)

/-! ## The automaton -/

/-- Whether a word is a keyword. -/
def isKeyword (word : List Char) : Bool :=
  lexis.keywords.contains
    (String.ofList (if lexis.foldsKeywords then word.map Char.toLower else word))

/-- Whether some sign starts with the characters. -/
def startsSign (read : List Char) : Bool :=
  lexis.signs.any fun sign => read.isPrefixOf sign

/-- The mode after the characters of a sign. One that no longer sign starts with
    is complete. -/
def signMode (read : List Char) : Mode :=
  let extended := lexis.signs.any fun sign => read.isPrefixOf sign && sign ≠ read
  if extended || lexis.refused.contains read then .sign read
  else .complete (.mark (String.ofList read))

/-- The mode that a character leads to between two tokens. -/
def start (c : Char) : Option Mode :=
  if c = ' ' then some .blank
  else if c.isDigit then some (.number (if c = '0' then .zero else .whole) [c])
  else if isSafeChar c then some (.word [c])
  else if lexis.sigil = some c then some (.sigil c)
  else if lexis.quotes.contains c then some (.text c false [c])
  else if lexis.startsSign [c] then some (lexis.signMode [c])
  else none

/-- The mode after one more character of the same token, if it can be one. -/
def absorb : Mode → Char → Option Mode
  | .blank, _ => none
  | .word read, c => if isSafeChar c then some (.word (read ++ [c])) else none
  | .sigil sign, c =>
    if isSafeChar c && !c.isDigit then some (.word [sign, c]) else none
  | .number part read, c => (part.next c).map fun part => .number part (read ++ [c])
  | .text quote true read, c =>
    if lexis.escapes.contains c then some (.text quote false (read ++ [c])) else none
  | .text quote false read, c =>
    if c = quote then some (.complete (.text (String.ofList (read ++ [c]))))
    else if c = '\\' then some (.text quote true (read ++ [c]))
    else if c.toNat < 0x20 || lexis.barred.contains (quote, c) then none
    else some (.text quote false (read ++ [c]))
  | .sign read, c =>
    if lexis.startsSign (read ++ [c]) then some (lexis.signMode (read ++ [c]))
    else if read = ['.'] && c.isDigit then some (.number .fraction (read ++ [c]))
    else none
  | .complete _, _ => none

/-- The token that ends where the text or the token does. -/
def finish : Mode → Option (List Token)
  | .blank => some []
  | .word read =>
    some [if lexis.isKeyword read then .mark (String.ofList read) else .name (String.ofList read)]
  | .sigil _ => none
  | .number part read => if part.isWhole then some [.number (String.ofList read)] else none
  | .text .. => none
  | .sign read =>
    if lexis.signs.contains read && !lexis.refused.contains read then
      some [.mark (String.ofList read)]
    else none
  | .complete token => some [token]

/-- Whether a character must not follow right after the token. -/
def clings : Mode → Char → Bool
  | .number _ _, c => isSafeChar c || c = '.'
  | _, _ => false

/-- One step: the tokens that end ahead of a character, and the mode after it. -/
def step (mode : Mode) (c : Char) : Option (List Token × Mode) :=
  match lexis.absorb mode c with
  | some mode => some ([], mode)
  | none =>
    if clings mode c then none
    else do
      let tokens ← lexis.finish mode
      let mode ← lexis.start c
      return (tokens, mode)

/-- The tokens that end in a text, and the mode after it. -/
def run (mode : Mode) : List Char → Option (List Token × Mode)
  | [] => some ([], mode)
  | c :: cs => do
    let (tokens, mode) ← lexis.step mode c
    let (more, mode) ← run mode cs
    return (tokens ++ more, mode)

/-- The tokens of a text. -/
def lex (text : String) : Option (List Token) := do
  let (tokens, mode) ← lexis.run .blank text.toList
  let last ← lexis.finish mode
  return tokens ++ last

/-! ## Pieces -/

/-- The tokens of a first piece ahead of what follows. -/
def following (tokens : List Token) (rest : List Token × Mode) : List Token × Mode :=
  (tokens ++ rest.1, rest.2)

@[simp]
theorem following_nil (rest : List Token × Mode) : following [] rest = rest := by
  simp [following]

theorem following_following (a b : List Token) (rest : List Token × Mode) :
    following a (following b rest) = following (a ++ b) rest := by
  simp [following]

@[simp]
theorem run_nil (mode : Mode) : lexis.run mode [] = some ([], mode) := rfl

theorem run_cons (mode : Mode) (c : Char) (cs : List Char) :
    lexis.run mode (c :: cs) =
      (lexis.step mode c).bind fun r => (lexis.run r.2 cs).map (following r.1) := by
  rw [run]
  cases lexis.step mode c with
  | none => rfl
  | some r =>
    show (lexis.run r.2 cs).bind _ = (lexis.run r.2 cs).map _
    cases lexis.run r.2 cs <;> rfl

/-- A text is read piece by piece. -/
theorem run_append (mode : Mode) (cs ds : List Char) :
    lexis.run mode (cs ++ ds) =
      (lexis.run mode cs).bind fun r => (lexis.run r.2 ds).map (following r.1) := by
  induction cs generalizing mode with
  | nil => cases h : lexis.run mode ds <;> simp [h]
  | cons c cs ih =>
    rw [List.cons_append, run_cons, run_cons]
    cases lexis.step mode c with
    | none => rfl
    | some r =>
      simp only [Option.bind_some, ih]
      cases lexis.run r.2 cs with
      | none => rfl
      | some r' =>
        simp only [Option.bind_some, Option.map_some, Option.map_map]
        congr 1
        funext rest
        exact following_following r.1 r'.1 rest

/-- Whether a token in progress is over when the character comes. -/
def EndsAt (mode : Mode) (c : Char) : Prop :=
  lexis.absorb mode c = none ∧ clings mode c = false

/-- Whether a text is cut into tokens, the last of which is over when a character
    comes that satisfies `follow`. -/
def Spells (follow : Char → Prop) (cs : List Char) (tokens : List Token) : Prop :=
  ∃ first mode last, lexis.run .blank cs = some (first, mode) ∧
    lexis.finish mode = some last ∧ first ++ last = tokens ∧
    ∀ c, follow c → lexis.EndsAt mode c

variable {lexis} {follow follow' : Char → Prop} {cs ds : List Char} {tokens tokens' : List Token}

theorem step_of_endsAt {mode : Mode} {c : Char} {last : List Token}
    (h : lexis.EndsAt mode c) (hlast : lexis.finish mode = some last) :
    lexis.step mode c = (lexis.step .blank c).map (following last) := by
  have hblank : lexis.step .blank c = (lexis.start c).map fun mode => ([], mode) := by
    cases h : lexis.start c <;> simp [step, absorb, clings, finish, h]
  rw [hblank, step, h.1, h.2, hlast]
  cases lexis.start c <;> simp [following]

/-- What follows a piece is read as if it stood alone. -/
theorem Spells.run_append {c : Char} (h : lexis.Spells follow cs tokens) (hc : follow c) :
    lexis.run .blank (cs ++ c :: ds) = (lexis.run .blank (c :: ds)).map (following tokens) := by
  obtain ⟨first, mode, last, hrun, hlast, rfl, hends⟩ := h
  rw [Lexis.run_append, hrun, Option.bind_some, run_cons, run_cons,
    step_of_endsAt (hends c hc) hlast]
  cases lexis.step .blank c with
  | none => rfl
  | some r =>
    simp only [Option.map_some, Option.bind_some, Option.map_map]
    congr 1
    funext rest
    simp [following]

/-- Two pieces next to each other. -/
theorem Spells.append {c : Char} (h : lexis.Spells follow cs tokens)
    (h' : lexis.Spells follow' (c :: ds) tokens') (hc : follow c) :
    lexis.Spells follow' (cs ++ c :: ds) (tokens ++ tokens') := by
  obtain ⟨first, mode, last, hrun, hlast, rfl, hends⟩ := h'
  refine ⟨tokens ++ first, mode, last, ?_, hlast, by simp, hends⟩
  rw [h.run_append hc, hrun]
  rfl

theorem Spells.mono (h : lexis.Spells follow cs tokens) (hsub : ∀ c, follow' c → follow c) :
    lexis.Spells follow' cs tokens := by
  obtain ⟨first, mode, last, hrun, hlast, htokens, hends⟩ := h
  exact ⟨first, mode, last, hrun, hlast, htokens, fun c hc => hends c (hsub c hc)⟩

/-- The tokens of a whole text. -/
theorem lex_of_spells {text : String} (h : lexis.Spells follow text.toList tokens) :
    lexis.lex text = some tokens := by
  obtain ⟨first, mode, last, hrun, hlast, rfl, -⟩ := h
  simp [lex, hrun, hlast]

/-! ## Ends of tokens -/

theorem endsAt_of_isOpen {mode : Mode} (h : mode.isOpen = true) (c : Char) :
    lexis.EndsAt mode c := by
  cases mode <;> simp_all [Mode.isOpen, EndsAt, absorb, clings]

theorem endsAt_of_isLoose {mode : Mode} {c : Char} {last : List Token}
    (h : mode.isLoose = true) (hlast : lexis.finish mode = some last) (hc : IsCloser c) :
    lexis.EndsAt mode c := by
  obtain ⟨hsafe, hpoint⟩ := hc
  have hdigit : c.isDigit = false := by
    cases hd : c.isDigit with
    | false => rfl
    | true => simp [isSafeChar, Char.isAlphanum, hd] at hsafe
  have he : c ≠ 'e' := by
    rintro rfl
    exact absurd hsafe (by decide)
  cases mode with
  | word read => exact ⟨by simp [absorb, hsafe], rfl⟩
  | number part read =>
    refine ⟨?_, by simp [clings, hsafe, hpoint]⟩
    cases part <;> simp_all [absorb, NumberPart.next, NumberPart.isWhole, finish]
  | blank => exact endsAt_of_isOpen rfl c
  | complete token => exact endsAt_of_isOpen rfl c
  | sigil _ => simp [Mode.isLoose] at h
  | text _ _ _ => simp [Mode.isLoose] at h
  | sign _ => simp [Mode.isLoose] at h

/-- The tokens of a piece, and whether any character may follow. A piece is
    refused if it does not end with a token that is a word, a number or complete. -/
def cut (cs : List Char) : Option (List Token × Bool) := do
  let (first, mode) ← lexis.run .blank cs
  let last ← lexis.finish mode
  if mode.isLoose then return (first ++ last, mode.isOpen) else none

theorem cut_eq_some {free : Bool} (h : lexis.cut cs = some (tokens, free)) :
    ∃ first mode last, lexis.run .blank cs = some (first, mode) ∧
      lexis.finish mode = some last ∧ first ++ last = tokens ∧ mode.isLoose = true ∧
      mode.isOpen = free := by
  rw [cut] at h
  cases hrun : lexis.run .blank cs with
  | none => simp [hrun] at h
  | some r =>
    obtain ⟨first, mode⟩ := r
    cases hlast : lexis.finish mode with
    | none => simp [hrun, hlast] at h
    | some last =>
      by_cases hloose : mode.isLoose = true
      · simp [hrun, hlast, hloose] at h
        exact ⟨first, mode, last, rfl, hlast, h.1, hloose, h.2⟩
      · simp [hrun, hlast, hloose] at h

/-- A piece that ends with a complete token goes with anything. -/
theorem spells_of_cut_open (h : lexis.cut cs = some (tokens, true)) :
    lexis.Spells (fun _ => True) cs tokens := by
  obtain ⟨first, mode, last, hrun, hlast, htokens, -, hopen⟩ := cut_eq_some h
  exact ⟨first, mode, last, hrun, hlast, htokens, fun c _ => endsAt_of_isOpen hopen c⟩

theorem spells_of_cut {free : Bool} (h : lexis.cut cs = some (tokens, free)) :
    lexis.Spells IsCloser cs tokens := by
  obtain ⟨first, mode, last, hrun, hlast, htokens, hloose, -⟩ := cut_eq_some h
  exact ⟨first, mode, last, hrun, hlast, htokens, fun c hc => endsAt_of_isLoose hloose hlast hc⟩

end Lexis

end BlockScript.Reading
