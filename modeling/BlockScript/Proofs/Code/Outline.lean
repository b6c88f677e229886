import BlockScript.Proofs.Text.Lines

/-!
# Outlines

Program text as lines that may have further lines inside them, one unit deeper. A
label stands for one line, or for a few that belong together.

Results:

* `Outline.text_append`: outlines are laid out one after the other.
* `Outline.isLines_text`: what is laid out is made of whole lines.
-/

namespace BlockScript

open BlockScript.Text

/-- Lines one after the other, each with the lines inside it. -/
inductive Outline (α : Type) where
  | nil
  | line (label : α) (inside rest : Outline α)
  deriving DecidableEq, Repr

namespace Outline

variable {α β : Type}

/-- A line with others inside it. -/
def block (label : α) (inside : Outline α) : Outline α :=
  .line label inside .nil

/-- A line with nothing inside it. -/
def single (label : α) : Outline α :=
  .block label .nil

/-! ## Sequences -/

/-- One outline after another one. -/
def append : Outline α → Outline α → Outline α
  | .nil, more => more
  | .line label inside rest, more => .line label inside (append rest more)

instance : Append (Outline α) := ⟨append⟩

@[simp]
theorem nil_append (outline : Outline α) : .nil ++ outline = outline := rfl

@[simp]
theorem line_append (label : α) (inside rest more : Outline α) :
    .line label inside rest ++ more = .line label inside (rest ++ more) := rfl

@[simp]
theorem block_append (label : α) (inside more : Outline α) :
    .block label inside ++ more = .line label inside more := rfl

@[simp]
theorem append_nil (outline : Outline α) : outline ++ .nil = outline := by
  induction outline with
  | nil => rfl
  | line label inside rest _ ih => rw [line_append, ih]

theorem append_assoc (a b c : Outline α) : a ++ b ++ c = a ++ (b ++ c) := by
  induction a with
  | nil => rfl
  | line label inside rest _ ih => rw [line_append, line_append, line_append, ih]

@[simp]
theorem append_eq_nil_iff {a b : Outline α} : a ++ b = .nil ↔ a = .nil ∧ b = .nil := by
  cases a with
  | nil => simp
  | line label inside rest => simp

/-- Outlines one after the other. -/
def concat : List (Outline α) → Outline α
  | [] => .nil
  | first :: rest => first ++ concat rest

/-! ## Labels -/

/-- Other labels for the same lines. -/
def map (f : α → β) : Outline α → Outline β
  | .nil => .nil
  | .line label inside rest => .line (f label) (map f inside) (map f rest)

@[simp]
theorem map_nil (f : α → β) : map f .nil = .nil := rfl

@[simp]
theorem map_line (f : α → β) (label : α) (inside rest : Outline α) :
    map f (.line label inside rest) = .line (f label) (map f inside) (map f rest) := rfl

@[simp]
theorem map_block (f : α → β) (label : α) (inside : Outline α) :
    map f (.block label inside) = .block (f label) (map f inside) := rfl

@[simp]
theorem map_single (f : α → β) (label : α) : map f (.single label) = .single (f label) := rfl

@[simp]
theorem map_append (f : α → β) (a b : Outline α) : map f (a ++ b) = map f a ++ map f b := by
  induction a with
  | nil => rfl
  | line label inside rest _ ih => simp [ih]

@[simp]
theorem map_eq_nil_iff {f : α → β} {outline : Outline α} : map f outline = .nil ↔ outline = .nil := by
  cases outline <;> simp

theorem map_map {γ : Type} (f : α → β) (g : β → γ) (outline : Outline α) :
    map g (map f outline) = map (fun label => g (f label)) outline := by
  induction outline with
  | nil => rfl
  | line label inside rest ihInside ihRest => simp [ihInside, ihRest]

/-- Whether all labels have a property. -/
def All (p : α → Prop) : Outline α → Prop
  | .nil => True
  | .line label inside rest => p label ∧ All p inside ∧ All p rest

variable {p q : α → Prop}

@[simp]
theorem all_nil : All p .nil := trivial

@[simp]
theorem all_line {label : α} {inside rest : Outline α} :
    All p (.line label inside rest) ↔ p label ∧ All p inside ∧ All p rest := Iff.rfl

@[simp]
theorem all_block {label : α} {inside : Outline α} :
    All p (.block label inside) ↔ p label ∧ All p inside := by
  simp [block]

@[simp]
theorem all_single {label : α} : All p (.single label) ↔ p label := by
  simp [single]

@[simp]
theorem all_append {a b : Outline α} : All p (a ++ b) ↔ All p a ∧ All p b := by
  induction a with
  | nil => simp
  | line label inside rest _ ih => simp [ih, and_assoc]

theorem All.mono {outline : Outline α} (h : All p outline) (hsub : ∀ label, p label → q label) :
    All q outline := by
  induction outline with
  | nil => trivial
  | line label inside rest ihInside ihRest =>
    exact ⟨hsub label h.1, ihInside h.2.1, ihRest h.2.2⟩

theorem All.and {outline : Outline α} (hp : All p outline) (hq : All q outline) :
    All (fun label => p label ∧ q label) outline := by
  induction outline with
  | nil => trivial
  | line label inside rest ihInside ihRest =>
    exact ⟨⟨hp.1, hq.1⟩, ihInside hp.2.1 hq.2.1, ihRest hp.2.2 hq.2.2⟩

theorem all_map {f : α → β} {p : β → Prop} {outline : Outline α} :
    All p (map f outline) ↔ All (fun label => p (f label)) outline := by
  induction outline with
  | nil => simp
  | line label inside rest ihInside ihRest => simp [ihInside, ihRest]

/-- Labels that stand for the labels of an outline. -/
theorem exists_map {f : β → α} {p : β → Prop} {outline : Outline α}
    (h : All (fun label => ∃ whole, f whole = label ∧ p whole) outline) :
    ∃ wholes : Outline β, map f wholes = outline ∧ All p wholes := by
  induction outline with
  | nil => exact ⟨.nil, rfl, trivial⟩
  | line label inside rest ihInside ihRest =>
    obtain ⟨⟨whole, rfl, hwhole⟩, hinside, hrest⟩ := h
    obtain ⟨wholeInside, rfl, hinsideAll⟩ := ihInside hinside
    obtain ⟨wholeRest, rfl, hrestAll⟩ := ihRest hrest
    exact ⟨.line whole wholeInside wholeRest, rfl, hwhole, hinsideAll, hrestAll⟩

/-! ## Layout -/

/-- The text of an outline of lines in an indentation. -/
def text (unit : String) : Outline String → String
  | .nil => ""
  | .line label inside rest =>
    label ++ indentLines (text unit inside) unit ++ text unit rest

variable {unit : String}

@[simp]
theorem text_nil : text unit .nil = "" := rfl

@[simp]
theorem text_block (label : String) (inside : Outline String) :
    text unit (.block label inside) = label ++ indentLines (text unit inside) unit := by
  simp [block, text]

@[simp]
theorem text_single (label : String) : text unit (.single label) = label := by
  simp [single]

/-- Outlines are laid out one after the other. -/
@[simp]
theorem text_append (a b : Outline String) : text unit (a ++ b) = text unit a ++ text unit b := by
  induction a with
  | nil => simp
  | line label inside rest _ ih => simp [text, ih, String.append_assoc]

/-- What is laid out is made of whole lines. -/
theorem isLines_text {outline : Outline String} (h : outline.All IsLines)
    (hsome : outline ≠ .nil) : IsLines (text unit outline) := by
  induction outline with
  | nil => exact absurd rfl hsome
  | line label inside rest ihInside ihRest =>
    obtain ⟨hlabel, hinside, hrest⟩ := h
    unfold text
    by_cases hlast : rest = .nil
    · subst hlast
      rw [text_nil, String.append_empty]
      by_cases hempty : inside = .nil
      · subst hempty
        simpa using hlabel
      · exact ((ihInside hinside hempty).indentLines unit).append_left label
    · exact (ihRest hrest hlast).append_left _

theorem isPiece_text {outline : Outline String} (h : outline.All IsLines) :
    IsPiece (text unit outline) := by
  by_cases hsome : outline = .nil
  · exact .inl (by rw [hsome, text_nil])
  · exact .inr (isLines_text h hsome)

/-- Lines have a text. -/
theorem text_eq_empty_iff {outline : Outline String} (h : outline.All IsLines) :
    text unit outline = "" ↔ outline = .nil := by
  refine ⟨fun hempty => ?_, fun hnil => by rw [hnil, text_nil]⟩
  by_contra hsome
  exact (isLines_text h hsome).ne_empty hempty

end Outline

end BlockScript
