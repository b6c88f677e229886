import BlockScript.Proofs.Code.Spelling

/-!
# Writing code

How the pieces that rules put together are the code of parts: one after the other,
one inside another one, and a statement in place of an empty body.

Results:

* `Scene.IsCode.append`, `Scene.isCode_block`: code of sequences and bodies.
* `Scene.Speaks.isCode_filled`: bodies that a language does not allow to be empty.
-/

namespace BlockScript

open BlockScript.Text

/-- A single line is indented by what stands before it. -/
theorem IsLine.indentLines {text : String} (h : IsLine text) (lead : String) :
    indentLines text lead = lead ++ text := by
  obtain ⟨line, rfl, hplain, -⟩ := h.exists_plain
  have hfeed : '\n' ∉ line.toList := fun hmem => absurd (hplain '\n' hmem) (by decide)
  rw [← String.toList_inj, toList_indentLines, String.toList_append]
  change indentChars lead.toList (line.toList ++ ['\n']) = _
  rw [indentChars_concat, splitLines_of_not_mem hfeed]
  simp

namespace Scene

variable {scene : Scene} {language : Language} {ref : Ref} {block : Block Ref}
  {text text' : String} {parts parts' : Layout} {role : Role}

/-! ## Sequences and bodies -/

theorem isCode_nil : scene.IsCode "" .nil :=
  ⟨.nil, rfl, trivial, rfl⟩

/-- Code after code. -/
theorem IsCode.append (h : scene.IsCode text parts) (h' : scene.IsCode text' parts') :
    scene.IsCode (text ++ text') (parts ++ parts') := by
  obtain ⟨code, hparts, hall, htext⟩ := h
  obtain ⟨code', hparts', hall', htext'⟩ := h'
  exact ⟨code ++ code', by simp [hparts, hparts'], by simp [hall, hall'], by simp [htext, htext']⟩

/-- A header with code inside it. -/
theorem isCode_block {part : Role × Ref} (h : scene.Spells part text)
    (hinside : scene.IsCode text' parts) :
    scene.IsCode (text ++ scene.indented text') (.block part parts) := by
  obtain ⟨code, hparts, hall, htext⟩ := hinside
  exact ⟨.block (part, text) code, by simp [hparts], by simp [h, hall], by simp [htext, indented]⟩

theorem isCode_single {part : Role × Ref} (h : scene.Spells part text) :
    scene.IsCode text (.single part) :=
  ⟨.single (part, text), by simp, by simp [h], by simp⟩

/-- A part of a block. -/
theorem spells_of_block (hblock : scene.graph.block? ref = some block) (hne : text ≠ "")
    (h : scene.SpellsOf ref block text role) : scene.Spells (role, ref) text :=
  ⟨hne, block, hblock, h⟩

/-- A part that there need not be a text for. -/
theorem isCode_piece (hblock : scene.graph.block? ref = some block)
    (h : scene.SpellsOf ref block text role) : scene.IsCode text (piece role ref text) := by
  unfold piece
  split
  · next hempty =>
    rw [hempty]
    exact isCode_nil
  · next hne => exact isCode_single (spells_of_block hblock hne h)

theorem isCode_comments (hblock : scene.graph.block? ref = some block) :
    scene.IsCode (scene.commentLines ref) (scene.comments ref) :=
  isCode_piece hblock rfl

theorem isCode_opening (hblock : scene.graph.block? ref = some block) :
    scene.IsCode (scene.startHook block) (scene.opening ref block) :=
  isCode_piece hblock rfl

theorem isCode_closing (hblock : scene.graph.block? ref = some block) :
    scene.IsCode (scene.endHook block) (scene.closing ref block) :=
  isCode_piece hblock rfl

theorem isCode_trapping (hblock : scene.graph.block? ref = some block) :
    scene.IsCode (scene.injectStatement scene.config.loopTrap block) (scene.trapping ref block) :=
  isCode_piece hblock rfl

theorem isCode_closer (hblock : scene.graph.block? ref = some block) :
    scene.IsCode scene.dialect.blockEnd (scene.closer ref) :=
  isCode_piece hblock (.inl rfl)

/-! ## Snippets inside a body -/

@[simp]
theorem indented_empty : scene.indented "" = "" :=
  indentLines_empty _

@[simp]
theorem injectStatement_empty : scene.injectStatement "" block = "" := rfl

/-- A snippet inside a body is an indented one. -/
theorem injectIndented_eq (snippet : String) :
    scene.injectIndented snippet block = scene.indented (scene.injectStatement snippet block) := by
  unfold injectIndented
  split
  · next hempty => simp [hempty]
  · rfl

theorem startHook_eq : scene.startHook block =
    scene.injectStatement scene.config.statementStart block := by
  unfold startHook
  split
  · next hempty => simp [hempty]
  · rfl

theorem endHook_eq : scene.endHook block =
    scene.injectStatement scene.config.statementEnd block := by
  unfold endHook
  split
  · next hempty => simp [hempty]
  · rfl

namespace Speaks

variable (h : scene.Speaks language)
include h

/-! ## Texts of code -/

theorem isPiece (hcode : scene.IsCode text parts) : IsPiece text := by
  obtain ⟨code, -, hall, rfl⟩ := hcode
  refine Outline.isPiece_text ?_
  rw [Outline.all_map]
  exact hall.mono fun line => h.isLines_of_spells

/-- Only no parts have no text. -/
theorem eq_empty_iff (hcode : scene.IsCode text parts) : text = "" ↔ parts = .nil := by
  obtain ⟨code, rfl, hall, rfl⟩ := hcode
  have hlines : (code.map Prod.snd).All IsLines := by
    rw [Outline.all_map]
    exact hall.mono fun line => h.isLines_of_spells
  rw [Outline.text_eq_empty_iff hlines]
  simp

theorem indented_append (hcode : scene.IsCode text parts) (rest : String) :
    scene.indented (text ++ rest) = scene.indented text ++ scene.indented rest :=
  indentLines_append (h.isPiece hcode) rest _

theorem indented_eq_empty_iff (hcode : scene.IsCode text parts) :
    scene.indented text = "" ↔ parts = .nil := by
  rw [← h.eq_empty_iff hcode]
  rcases h.isPiece hcode with rfl | hlines
  · simp
  · exact iff_of_false (hlines.indentLines _).ne_empty hlines.ne_empty

/-- A part with a text of the language. -/
theorem spells_of_fixed (hfixed : role.isFixed = true)
    (hblock : scene.graph.block? ref = some block)
    (hspells : scene.SpellsOf ref block text role) : scene.Spells (role, ref) text :=
  spells_of_block hblock (h.isLine_of_spellsOf hfixed hspells).isLines.ne_empty hspells

/-- A part with a text of the language stands on one line. -/
theorem indented_of_spells {part : Role × Ref} (hfixed : part.1.isFixed = true)
    (hspells : scene.Spells part text) : scene.indented text = scene.indent ++ text :=
  (h.isLine_of_spells hfixed hspells).indentLines _

/-! ## Empty bodies -/

/-- A statement stands in for an empty body if the language needs one. -/
theorem isCode_filled (hblock : scene.graph.block? ref = some block)
    (hcode : scene.IsCode text parts) :
    ∃ filled, scene.filled (scene.indented text) = scene.indented filled ∧
      scene.IsCode filled (scene.fill ref parts) := by
  unfold filled
  cases hempty : scene.dialect.emptyBody with
  | none =>
    refine ⟨text, rfl, ?_⟩
    cases parts with
    | nil => simpa [fill, hempty] using hcode
    | line part inside rest => exact hcode
  | some filler =>
    dsimp only
    by_cases hnil : parts = .nil
    · subst hnil
      have hspells : scene.Spells (.filler, ref) (scene.dialect.statement filler) :=
        h.spells_of_fixed rfl hblock ⟨filler, hempty, rfl⟩
      rw [if_pos ((h.indented_eq_empty_iff hcode).mpr rfl)]
      refine ⟨_, (h.indented_of_spells rfl hspells).symm, ?_⟩
      simpa [fill, hempty] using isCode_single hspells
    · rw [if_neg fun hno => hnil ((h.indented_eq_empty_iff hcode).mp hno)]
      refine ⟨text, rfl, ?_⟩
      cases parts with
      | nil => exact absurd rfl hnil
      | line part inside rest => exact hcode

end Speaks

end Scene

end BlockScript
