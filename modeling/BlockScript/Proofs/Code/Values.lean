import BlockScript.Proofs.Code.Rendering

/-!
# Values are single lines

Whatever texts, names and numbers the fields of a block hold, nothing of them breaks a
line: a text is quoted, a name is made an identifier and a number is written anew. So the
text of a value can be put into a line of code, and it is never taken for that of an empty
socket.

Results:

* `Scene.Speaks.isPlain_renderPlace`: the text of a value.
* `value_isSingleLine`: in every language, the text of a value is a line of its own.
-/

namespace BlockScript

open BlockScript.Reading BlockScript.Text

namespace Scene

variable {scene : Scene} {language : Language} {ref : Ref} {rendered : Rendered}
  {s t : PassState}

/-- A value renders to a text that is not empty and has no control character. -/
theorem Speaks.isPlain_renderPlace (h : scene.Speaks language)
    (hs : s.Named scene.dialect.policy) (hvalue : scene.holdsValue ref = true)
    (hrun : scene.renderPlace (some ref) s = (.ok rendered, t)) :
    ∃ code tier, rendered = .value code tier ∧ code ≠ "" ∧ IsPlainText code := by
  cases rendered with
  | text code =>
    have hno := h.holdsValue_of_placeCode hs hrun
    rw [hvalue] at hno
    cases hno
  | value code tier =>
    obtain ⟨target, htarget, hone⟩ := placeCode_eq_value hrun
    cases htarget
    obtain ⟨-, hoperand⟩ := h.phrased.isOperand_render hs hone
    obtain ⟨tree, hreads⟩ := id hoperand
    exact ⟨code, tier, rfl, hreads.ne_empty, hoperand.isPlain⟩

end Scene

/-- In every language and in every state of a pass, an enabled value block that renders
    without failure gives a text that is not empty, is one line, and has no control
    character. -/
theorem value_isSingleLine {language : Language} {config : Config} {workspace : Workspace}
    {ref : Ref} {rendered : Rendered} {s t : PassState}
    (hs : (Scene.ofLanguage language config workspace).Reached s)
    (hvalue : (Scene.ofLanguage language config workspace).holdsValue ref = true)
    (hrun : (Scene.ofLanguage language config workspace).renderPlace (some ref) s =
      (.ok rendered, t)) :
    ∃ code tier, rendered = .value code tier ∧ code ≠ "" ∧
      splitLines code.toList = [code.toList] ∧ ∀ c ∈ code.toList, 0x20 ≤ c.toNat := by
  obtain ⟨code, tier, hcode, hne, hplain⟩ :=
    (Scene.speaks_ofLanguage language config workspace).isPlain_renderPlace hs.named hvalue hrun
  have hfeed : '\n' ∉ code.toList := fun hmem => absurd (hplain '\n' hmem) (by decide)
  exact ⟨code, tier, hcode, hne, splitLines_of_not_mem hfeed, hplain⟩

/-- A call whose name, parameter and argument hold line breaks. -/
def Workspace.brokenLines : Workspace where
  tops := [1]
  graph := ⟨#[{ Block.ofType "text" with fields := [("TEXT", .text "it's\r\n\x01\t$")] },
    { Block.ofType "procedures_callreturn" with
      fields := [("NAME", .text "a\nb")]
      values := [("ARG0", some 0)]
      extraState := [("params", .arr [.str "\n"])] }]⟩

theorem value_isSingleLine_brokenLines :
    let scene := Scene.ofLanguage .php {} .brokenLines
    let rendered := Rendered.value "a_b(\"it's\\r\\n\\x01\\t\\$\")" Php.dialect.call
    ∃ t, scene.Reached {} ∧ scene.holdsValue 1 = true ∧
      scene.renderPlace (some 1) {} = (.ok rendered, t) ∧
      ∃ code tier, rendered = .value code tier ∧ code ≠ "" ∧
        splitLines code.toList = [code.toList] ∧ ∀ c ∈ code.toList, 0x20 ≤ c.toNat := by
  intro scene rendered
  have hvalue : scene.holdsValue 1 = true := by decide +kernel
  have hrendered : (scene.renderPlace (some 1) {}).1.toOption = some rendered := by decide +kernel
  have hrun := Pass.eq_of_toOption hrendered
  exact ⟨_, .start, hvalue, hrun, value_isSingleLine .start hvalue hrun⟩

end BlockScript
