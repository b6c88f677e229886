import BlockScript.Names
import BlockScript.Proofs.Text.Comments

/-!
# Names in a Python text

How Python tells code from comments and string literals, and which names the code uses. A
comment ends at a line feed or a carriage return. A literal stands between two quotes on one
line, or between two times three of them, and a backslash takes the character behind it into
the literal. Names are words of ASCII letters, digits and underscores, and those behind a dot
are attributes, which belong to something else.

Results:

* `Python.codeOf_append`: a text is read piece by piece.
* `Python.usesFrom_append`: a text uses no more names than its two parts do, if no word and no
  literal goes on from one to the other.
-/

namespace BlockScript.Python

open BlockScript.Text

/-! ## Code, comments and literals -/

/-- Where a reader is in a text. One quote opens a literal; two of them are an empty literal
    unless a third one follows, and then it takes three of them to close it. -/
inductive Place where
  | code
  | comment
  | opened (quote : Char)
  | empty (quote : Char)
  | text (quote : Char)
  | escape (quote : Char)
  | long (quote : Char) (closing : Nat)
  | longEscape (quote : Char)
  deriving DecidableEq, Repr

namespace Place

/-- Whether the reader is in no comment, and in no literal that needs an end. -/
def isCode : Place → Bool
  | .code | .empty _ => true
  | _ => false

/-- Behind a character that stands in the code. -/
def start (c : Char) : Place :=
  if c = '#' then .comment
  else if c = '\'' ∨ c = '"' then .opened c
  else .code

/-- Behind a character of a literal on one line. The end of the line breaks it off. -/
def inside (quote c : Char) : Place :=
  if c = quote then .code
  else if c = '\\' then .escape quote
  else if isLineBreak c then .code
  else .text quote

/-- Behind one more character. -/
def next : Place → Char → Place
  | .code, c => start c
  | .comment, c => if isLineBreak c then .code else .comment
  | .opened quote, c => if c = quote then .empty quote else inside quote c
  | .empty quote, c => if c = quote then .long quote 0 else start c
  | .text quote, c => inside quote c
  | .escape quote, _ => .text quote
  | .long quote closing, c =>
    if c = quote then (if closing = 2 then .code else .long quote (closing + 1))
    else if c = '\\' then .longEscape quote
    else .long quote 0
  | .longEscape quote, _ => .long quote 0

/-- Behind a text. -/
def after (place : Place) (cs : List Char) : Place :=
  cs.foldl next place

end Place

/-- The characters of the code, with a blank for every character of a comment or literal. -/
def codeOf : Place → List Char → List Char
  | _, [] => []
  | place, c :: rest =>
    (if place.isCode && (place.next c).isCode then c else ' ') :: codeOf (place.next c) rest

/-! ## Words -/

/-- Whether a text starts with a word that ends there. -/
def startsWithWord (word cs : List Char) : Bool :=
  word.isPrefixOf cs && !(cs.drop word.length).head?.any isSafeChar

/-- Whether a word stands in a text and is no attribute. Nothing starts at the head of the text
    if it is `bound` to what is ahead, a character of a word or a dot. -/
def usesFrom (word : List Char) : (bound : Bool) → List Char → Bool
  | _, [] => false
  | bound, c :: rest =>
    !bound && startsWithWord word (c :: rest) || usesFrom word (isSafeChar c || c = '.') rest

/-- Whether a Python text uses a name: it is a word of the code that is no attribute. -/
def uses (name : String) (text : List Char) : Bool :=
  usesFrom name.toList false (codeOf .code text)

/-- The names that programs get from modules, with the statements that import them. -/
def moduleNames : List (String × String) :=
  [("math", "import math"), ("random", "import random"), ("numbers", "import numbers"),
    ("Number", "from numbers import Number")]

example : uses "math" "x = 'math' # math\ny = math.pi".toList = true ∧
    uses "math" "x = 'math' # math\ny = aftermath.math".toList = false ∧
    uses "pi" "y = math.pi".toList = false := by
  decide

/-! ## Piece by piece -/

variable {place : Place} {quote c : Char} {cs ds word : List Char} {bound : Bool}

@[simp]
theorem Place.after_nil : place.after [] = place := rfl

@[simp]
theorem Place.after_cons : place.after (c :: cs) = (place.next c).after cs := rfl

@[simp]
theorem Place.after_append : place.after (cs ++ ds) = (place.after cs).after ds :=
  List.foldl_append

/-- A text is read piece by piece. -/
theorem codeOf_append (place : Place) (cs ds : List Char) :
    codeOf place (cs ++ ds) = codeOf place cs ++ codeOf (place.after cs) ds := by
  induction cs generalizing place with
  | nil => rfl
  | cons c cs ih => simp [codeOf, ih]

/-- Whether a character is one that opens literals. -/
def isQuote (c : Char) : Bool :=
  c = '\'' || c = '"'

/-- The quote of the literal that the reader is in. -/
def Place.quote? : Place → Option Char
  | .code | .comment => none
  | .opened quote | .empty quote | .text quote | .escape quote | .long quote _
  | .longEscape quote => some quote

theorem Place.isQuote_next (h : ∀ quote ∈ place.quote?, isQuote quote = true) :
    ∀ quote ∈ (place.next c).quote?, isQuote quote = true := by
  have hstart : ∀ quote ∈ (start c).quote?, isQuote quote = true := by
    unfold start
    split
    · simp [quote?]
    · split
      · next hc => simpa [quote?, isQuote] using hc
      · simp [quote?]
  have hinside : ∀ {q : Char}, isQuote q = true →
      ∀ quote ∈ (inside q c).quote?, isQuote quote = true := by
    intro q hq
    unfold inside
    repeat' split
    all_goals simp [quote?, hq]
  cases place with
  | code => exact hstart
  | comment =>
    rw [next]
    split <;> simp [quote?]
  | opened q =>
    rw [next]
    split
    · exact h
    · exact hinside (h q rfl)
  | empty q =>
    rw [next]
    split
    · exact h
    · exact hstart
  | text q => exact hinside (h q rfl)
  | escape q => exact h
  | long q closing =>
    rw [next]
    split
    · split
      · simp [quote?]
      · exact h
    · split <;> exact h
  | longEscape q => exact h

theorem Place.isQuote_after (cs : List Char) :
    ∀ quote ∈ (Place.code.after cs).quote?, isQuote quote = true := by
  induction cs using List.reverseRecOn with
  | nil => simp [quote?]
  | append_singleton cs c ih =>
    rw [after_append]
    exact isQuote_next ih

/-- Behind an empty literal the last character is its quote. -/
theorem Place.getLast?_of_empty (h : Place.code.after cs = .empty quote) :
    cs.getLast? = some quote := by
  cases cs using List.reverseRecOn with
  | nil => cases h
  | append_singleton cs c =>
    rw [after_append, after_cons, after_nil] at h
    rw [List.getLast?_append, List.getLast?_singleton, Option.some_or]
    cases hbefore : Place.code.after cs with
    | opened q =>
      simp only [hbefore, next, inside] at h
      split at h
      · next heq =>
        cases h
        rw [heq]
      · repeat' split at h
        all_goals cases h
    | _ =>
      simp only [hbefore, next, start, inside] at h
      repeat' split at h
      all_goals cases h

/-- Whether a character can be in a word or be a quote, so that it matters what is next to
    it. -/
def isSticky (c : Char) : Bool :=
  isSafeChar c || isQuote c

/-- Whether no word and no literal goes on from one text to another one. -/
def Apart (cs ds : List Char) : Prop :=
  ∀ c ∈ cs.getLast?, ∀ d ∈ ds.head?, isSticky c = false ∨ isSticky d = false

/-- Text behind code is read as if it stood alone. -/
theorem read_append (h : (Place.code.after cs).isCode = true) (hapart : Apart cs ds) :
    codeOf .code (cs ++ ds) = codeOf .code cs ++ codeOf .code ds ∧
      (Place.code.after (cs ++ ds) = Place.code.after ds ∨
        ds = [] ∧ Place.code.after (cs ++ ds) = Place.code.after cs) := by
  rw [codeOf_append, Place.after_append]
  cases hplace : Place.code.after cs with
  | code => exact ⟨rfl, .inl rfl⟩
  | empty quote =>
    cases ds with
    | nil => exact ⟨rfl, .inr ⟨rfl, rfl⟩⟩
    | cons d ds =>
      have hquote : isSticky quote = true := by
        simp [isSticky, Place.isQuote_after cs quote (by rw [hplace]; rfl)]
      have hd : isSticky d = false := by
        refine (hapart quote (Place.getLast?_of_empty hplace) d rfl).resolve_left ?_
        simp [hquote]
      have hne : d ≠ quote := by
        rintro rfl
        rw [hd] at hquote
        cases hquote
      have hnext : Place.next (.empty quote) d = Place.next .code d := by simp [Place.next, hne]
      rw [Place.after_cons, hnext]
      exact ⟨by simp [codeOf, hnext, Place.isCode], .inl rfl⟩
  | _ =>
    rw [hplace] at h
    cases h

/-! ## Uses of a word -/

/-- Fewer words start where the text is bound to what is ahead. -/
theorem usesFrom_of_bound (h : usesFrom word bound cs = true) : usesFrom word false cs = true := by
  cases cs with
  | nil => cases h
  | cons c cs =>
    simp only [usesFrom, Bool.or_eq_true, Bool.and_eq_true] at h ⊢
    exact h.imp_left fun ⟨_, hstarts⟩ => ⟨rfl, hstarts⟩

/-- A word at the start of two texts ends in the first one, unless a word goes on from there to
    the second. -/
theorem startsWithWord_of_append (hword : ∀ c ∈ word, isSafeChar c = true) (hcs : cs ≠ [])
    (hapart : ∀ c ∈ cs.getLast?, ∀ d ∈ ds.head?, isSafeChar c = false ∨ isSafeChar d = false)
    (h : startsWithWord word (cs ++ ds) = true) : startsWithWord word cs = true := by
  simp only [startsWithWord, Bool.and_eq_true, List.isPrefixOf_iff_prefix, Bool.not_eq_true'] at h ⊢
  obtain ⟨⟨rest, hrest⟩, hends⟩ := h
  rcases List.append_eq_append_iff.mp hrest with ⟨rest, rfl, -⟩ | ⟨rest, rfl, rfl⟩
  · rw [List.append_assoc, List.drop_left] at hends
    rw [List.drop_left]
    refine ⟨List.prefix_append _ _, ?_⟩
    cases rest with
    | nil => rfl
    | cons c rest => exact hends
  · cases rest with
    | nil => simp
    | cons d rest =>
      obtain ⟨c, hlast⟩ : ∃ c, cs.getLast? = some c := ⟨_, List.getLast?_eq_some_getLast hcs⟩
      have hc := hword c (List.mem_append_left _ (List.mem_of_getLast? hlast))
      have hd := hword d (List.mem_append_right _ List.mem_cons_self)
      rcases hapart c hlast d rfl with hno | hno
      · rw [hc] at hno
        cases hno
      · rw [hd] at hno
        cases hno

/-- Two texts use no more words than each of them does, unless a word goes on from the first
    one to the second. -/
theorem usesFrom_append (hword : ∀ c ∈ word, isSafeChar c = true)
    (hapart : ∀ c ∈ cs.getLast?, ∀ d ∈ ds.head?, isSafeChar c = false ∨ isSafeChar d = false)
    (h : usesFrom word bound (cs ++ ds) = true) :
    usesFrom word bound cs = true ∨ usesFrom word false ds = true := by
  induction cs generalizing bound with
  | nil => exact .inr (usesFrom_of_bound h)
  | cons c cs ih =>
    rw [List.cons_append, usesFrom, Bool.or_eq_true, Bool.and_eq_true] at h
    rw [usesFrom, Bool.or_eq_true, Bool.and_eq_true]
    rcases h with ⟨hfree, hstarts⟩ | hlater
    · exact .inl (.inl ⟨hfree, startsWithWord_of_append hword (by simp) hapart hstarts⟩)
    · cases cs with
      | nil => exact .inr (usesFrom_of_bound hlater)
      | cons next cs => exact (ih hapart hlater).imp_left .inr

/-- The last character of the code is the last one of the text or a blank. -/
theorem getLast?_codeOf (h : c ∈ (codeOf place cs).getLast?) : c = ' ' ∨ c ∈ cs.getLast? := by
  cases cs using List.reverseRecOn with
  | nil => cases h
  | append_singleton cs d =>
    rw [codeOf_append, List.getLast?_append] at h
    rw [List.getLast?_append, List.getLast?_singleton, Option.some_or]
    simp only [codeOf, List.getLast?_singleton, Option.some_or, Option.mem_some_iff] at h
    split at h
    · exact .inr (by rw [h]; rfl)
    · exact .inl h.symm

/-- The first character of the code is the first one of the text or a blank. -/
theorem head?_codeOf (h : c ∈ (codeOf place cs).head?) : c = ' ' ∨ c ∈ cs.head? := by
  cases cs with
  | nil => cases h
  | cons d cs =>
    simp only [codeOf, List.head?_cons, Option.mem_some_iff] at h
    split at h
    · exact .inr (by rw [h]; rfl)
    · exact .inl h.symm

/-- Behind code a text uses no more names than it does alone. -/
theorem uses_append {name : String} (hname : ∀ c ∈ name.toList, isSafeChar c = true)
    (h : (Place.code.after cs).isCode = true) (hapart : Apart cs ds)
    (huses : uses name (cs ++ ds) = true) : uses name cs = true ∨ uses name ds = true := by
  rw [uses, (read_append h hapart).1] at huses
  refine usesFrom_append hname (fun c hc d hd => ?_) huses
  have hsafe : ∀ {e : Char}, isSticky e = false → isSafeChar e = false := fun he =>
    (Bool.or_eq_false_iff.mp he).1
  rcases getLast?_codeOf hc with rfl | hc
  · exact .inl rfl
  · rcases head?_codeOf hd with rfl | hd
    · exact .inr rfl
    · exact (hapart c hc d hd).imp hsafe hsafe

/-- The names from modules are words. -/
theorem isSafeChar_of_mem_moduleNames {entry : String × String} (h : entry ∈ moduleNames) :
    ∀ c ∈ entry.1.toList, isSafeChar c = true := by
  have hall : moduleNames.all (fun entry => entry.1.toList.all isSafeChar) = true := by decide
  exact List.all_eq_true.mp (List.all_eq_true.mp hall entry h)

theorem ne_nil_of_mem_moduleNames {entry : String × String} (h : entry ∈ moduleNames) :
    entry.1.toList ≠ [] := by
  have hall : ∀ entry ∈ moduleNames, entry.1.toList ≠ [] := by decide
  exact hall entry h

end BlockScript.Python
