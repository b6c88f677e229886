import BlockScript.Proofs.Code.Rendering
import BlockScript.Proofs.Suite.Nesting
import BlockScript.Proofs.Text.Noted

/-!
# How statements start

Without snippets and comments every statement starts with a line of the language, which is
not blank.

Results:

* `Scene.Speaks.startsDark_of_follow`: the text that a rule makes of a block.
-/

namespace BlockScript

open BlockScript.Text

/-- Whether the first line of a layout has a text of the language. -/
def Layout.StartsFixed : Layout → Prop
  | .nil => False
  | .line part _ _ => part.1.isFixed = true

/-- A text that starts with a line is not blank there. -/
theorem IsLine.startsDark {text : String} (h : IsLine text) (rest : List Char) :
    StartsDark (text.toList ++ rest) := by
  obtain ⟨line, rfl, hplain, hblank⟩ := h.exists_plain
  rw [String.toList_append, List.append_assoc]
  exact startsDark_append hblank (fun hmem => absurd (hplain '\n' hmem) (by decide)) _

namespace Scene

variable {scene : Scene} {language : Language} {ref : Ref} {block : Block Ref} {room : Nat}
  {text : String} {parts : Layout} {s t : PassState}

/-- Without snippets a statement starts with a line of the language. -/
theorem IsBare.startsFixed (hbare : scene.IsBare) {lays : Option Ref → Ref → Layout → Prop}
    {loop : Option Ref} {form : BlockForm}
    (hparts : scene.RuleParts lays loop ref block form parts) : parts.StartsFixed := by
  cases hparts with
  | conditional harms hlast =>
    rw [hbare.opening_eq, Outline.nil_append]
    unfold Recipe.arms at harms
    cases harms with
    | cons hfirst _ =>
      obtain ⟨body, -, rfl⟩ := hfirst
      exact rfl
  | whileLoop hinside => exact rfl
  | @repeatLoop inside stored hstored hinside =>
    cases stored with
    | true => exact rfl
    | false => exact rfl
  | flow hjump =>
    rw [hbare.opening_eq, hbare.closing_eq, hbare.reopening_eq]
    exact rfl
  | conditionalReturn => exact rfl
  | simple hform => exact rfl

namespace Speaks

variable (h : scene.Speaks language)
include h

theorem startsDark_of_isCode (hcode : scene.IsCode text parts) (hstarts : parts.StartsFixed) :
    StartsDark text.toList := by
  obtain ⟨code, rfl, hall, rfl⟩ := hcode
  cases code with
  | nil => cases hstarts
  | line label inside rest =>
    obtain ⟨hspells, -⟩ := hall
    rw [Outline.map_line, Outline.text, String.append_assoc, String.toList_append]
    exact (h.isLine_of_spells hstarts hspells).startsDark _

/-- What a rule makes of a block as a text. -/
theorem startsDark_of_follow (hbare : scene.IsBare) (hblock : scene.graph.block? ref = some block)
    (henabled : block.enabled = true) (hs : s.Named scene.dialect.policy) {rule : Rule}
    (hrule : scene.rules.lookup block.type = .ok rule) (hvalue : rule.isValue = false)
    (hrun : scene.follow (scene.renderWithin room) ref block (rule.handler.recipe scene ref block) s =
      (.ok (.text text), t)) :
    StartsDark (oneTrailingNewline text).toList := by
  obtain ⟨form, hform, hform'⟩ := h.known _ _ hrule
  rw [hform] at hrun
  by_cases hdefinition : form = .procedureDefinition
  · subst hdefinition
    obtain ⟨hnothing, -⟩ := h.procedureDefinition_written (h.laysOut_renderWithin room)
      (fun _ hstate => hstate)
      (fun _ _ _ _ _ hv hw => (later_of_follow hw).names.named hv) hblock henabled hrule hform hs
      hrun
    cases hnothing
  · obtain ⟨code, parts, hcode, hparts, hwritten⟩ :=
      h.ruleParts_written (h.laysOut_renderWithin room) hblock hs hrule hform
        (hform'.symm.trans hvalue) hdefinition hrun
    cases hcode
    rw [oneTrailingNewline_of_isPiece (h.isPiece hwritten.code)]
    exact h.startsDark_of_isCode hwritten.code (hbare.startsFixed hparts)

end Speaks

end Scene

end BlockScript
