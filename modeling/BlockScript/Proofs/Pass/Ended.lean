import BlockScript.Proofs.Code.Spelling
import BlockScript.Proofs.Graph.Pruned
import BlockScript.Proofs.Pass.Steps
import BlockScript.Proofs.Text.Annotated

/-!
# Statements end their lines

Whatever the rule for a block gives, and whatever stands around it, the text of a
statement is empty or ends in exactly one line feed. So the statements of a chain are put
one behind the other, and a body is indented line by line.

Nothing is asked of the rules, of the configuration or of the blocks.

Results:

* `Scene.isPiece_of_conclude`: what one rule gives is made of whole lines.
* `Scene.placeCode_eq_text`: the text of a place is that of its chain, statement by
  statement.
* `statements_end_once`: statements, chains and bodies.
-/

namespace BlockScript

namespace Text

/-- Whether a text is empty or ends in exactly one line feed. -/
def EndsOnce (text : String) : Prop :=
  text = "" ∨ ∃ cs c, text.toList = cs ++ [c, '\n'] ∧ c ≠ '\n'

theorem IsPiece.endsOnce {text : String} (h : IsPiece text) : EndsOnce text :=
  h.imp_right And.left

theorem IsPiece.append {a b : String} (ha : IsPiece a) (hb : IsPiece b) : IsPiece (a ++ b) := by
  rcases hb with rfl | hb
  · rwa [String.append_empty]
  · exact .inr (hb.append_left a)

theorem isPiece_concat {texts : List String} (h : ∀ text ∈ texts, IsPiece text) :
    IsPiece (concat texts) := by
  induction texts with
  | nil => exact .inl rfl
  | cons text texts ih =>
    obtain ⟨hfirst, hrest⟩ := List.forall_mem_cons.mp h
    exact hfirst.append (ih hrest)

/-- Whether a text has the lines of another one, and each of them behind a lead. -/
def IsLed (lead text led : String) : Prop :=
  ∃ lines : List (List Char), (∀ line ∈ lines, '\n' ∉ line) ∧ text.toList = endLines lines ∧
    led.toList = endLines (lines.map (lead.toList ++ ·))

/-- Whole lines are indented line by line. -/
theorem IsPiece.isLed_indentLines {text : String} (h : IsPiece text) (lead : String) :
    IsLed lead text (indentLines text lead) := by
  rcases h with rfl | ⟨⟨cs, c, hlist, -⟩, -⟩
  · exact ⟨[], by simp, rfl, by simp⟩
  · have hlist : text.toList = (cs ++ [c]) ++ ['\n'] := by simp [hlist]
    refine ⟨splitLines (cs ++ [c]), fun line => not_mem_of_mem_splitLines, ?_, ?_⟩
    · rw [endLines_eq_joinLines (splitLines_ne_nil _), joinLines_splitLines, hlist]
    · rw [toList_indentLines, hlist, indentChars_concat]

end Text

open BlockScript.Text

namespace Scene

variable {scene : Scene} {one : Ref → Pass Rendered} {s t : PassState}

/-! ## One statement -/

/-- What a rule for statements gives is made of whole lines in the end, with the comments
    above it and the hooks around it. -/
theorem isPiece_of_conclude {rule : Rule} {ref : Ref} {block : Block Ref} {product : Product}
    {text : String} (hcomments : IsPiece (scene.commentLines ref))
    (h : scene.conclude rule ref block product = .ok (.text text)) : IsPiece text := by
  unfold conclude at h
  split at h
  · cases product <;> cases h
  · cases product with
    | nothing =>
      cases h
      exact .inl rfl
    | text code =>
      cases h
      exact hcomments.append (isPiece_oneTrailingNewline _)
    | value code tier => cases h

/-- A rule for values gives no statement. -/
theorem conclude_ne_text {rule : Rule} {ref : Ref} {block : Block Ref} {product : Product}
    {text : String} (hvalue : rule.isValue = true) :
    scene.conclude rule ref block product ≠ .ok (.text text) := by
  unfold conclude
  rw [if_pos hvalue]
  cases product <;> rintro ⟨⟩

theorem isPiece_of_renderWithin (hcomments : ∀ ref, IsPiece (scene.commentLines ref))
    {room : Nat} {ref : Ref} {text : String}
    (h : scene.renderWithin room ref s = (.ok (.text text), t)) : IsPiece text := by
  obtain ⟨-, -, ⟨-, htext, -⟩ | ⟨_, _, _, -, -, -, -, -, -, hconclude⟩⟩ := renderWithin_eq_ok h
  · cases htext
    exact .inl rfl
  · exact isPiece_of_conclude (hcomments ref) hconclude

/-! ## Chains -/

/-- Whether blocks give texts one after the other, each from the state in which the one
    before it leaves the pass. -/
inductive GiveTexts (one : Ref → Pass Rendered) :
    List Ref → List String → PassState → PassState → Prop
  | nil (s : PassState) : GiveTexts one [] [] s s
  | cons {ref : Ref} {refs : List Ref} {text : String} {texts : List String} {s t u : PassState}
    (first : one ref s = (.ok (.text text), t)) (rest : GiveTexts one refs texts t u) :
    GiveTexts one (ref :: refs) (text :: texts) s u

theorem giveTexts_of_chainText {refs : List Ref} {code : String}
    (h : scene.chainText one refs s = (.ok code, t)) :
    ∃ texts, GiveTexts one refs texts s t ∧ code = concat texts := by
  induction refs generalizing s code with
  | nil =>
    cases h
    exact ⟨[], .nil _, rfl⟩
  | cons ref refs ih =>
    obtain ⟨rendered, u, hfirst, hrest⟩ := Pass.bind_eq_ok h
    cases rendered with
    | value code tier => cases hrest
    | text text =>
      obtain ⟨more, v, hmore, hcode⟩ := Pass.bind_eq_ok hrest
      obtain ⟨rfl, rfl⟩ := Pass.pure_eq_ok hcode
      obtain ⟨texts, htexts, rfl⟩ := ih hmore
      exact ⟨text :: texts, .cons hfirst htexts, rfl⟩

theorem GiveTexts.isPiece
    (hone : ∀ {ref text} {s t : PassState}, one ref s = (.ok (.text text), t) → IsPiece text)
    {refs : List Ref} {texts : List String} (h : GiveTexts one refs texts s t) :
    ∀ text ∈ texts, IsPiece text := by
  induction h with
  | nil s => simp
  | cons first rest ih => exact List.forall_mem_cons.mpr ⟨hone first, ih⟩

theorem giveTexts_of_chainCode {ref : Ref} {code : String}
    (h : scene.chainCode one ref s = (.ok code, t)) :
    ∃ refs texts, scene.graph.Chain (some ref) refs ∧
      GiveTexts one refs texts s t ∧ code = concat texts := by
  unfold chainCode at h
  obtain ⟨text, u, htext, hrest⟩ := Pass.bind_eq_ok h
  cases hrepeated : (scene.graph.chainFrom [] (some ref)).2 with
  | some repeated =>
    rw [hrepeated] at hrest
    cases hrest
  | none =>
    rw [hrepeated] at hrest
    obtain ⟨rfl, rfl⟩ := Pass.pure_eq_ok hrest
    obtain ⟨texts, htexts, hcode⟩ := giveTexts_of_chainText htext
    exact ⟨_, texts, .of_chainFrom hrepeated, htexts, hcode⟩

/-- The text of a place is that of the chain that starts there, unless the first block of
    the chain is of a type with values and gives a text all the same. -/
theorem placeCode_eq_text {place : Option Ref} {code : String}
    (h : scene.placeCode one place s = (.ok (.text code), t)) :
    (∃ ref block rule, scene.graph.block? ref = some block ∧ block.enabled = true ∧
      scene.rules.lookup block.type = .ok rule ∧ rule.isValue = true ∧
      one ref s = (.ok (.text code), t)) ∨
    ∃ refs texts, scene.graph.Chain place refs ∧ GiveTexts one refs texts s t ∧
      code = concat texts := by
  cases place with
  | none =>
    cases h
    exact .inr ⟨[], [], .none, .nil s, rfl⟩
  | some ref =>
    have hchain : ∀ {u : PassState}, (scene.chainCode one ref >>= fun code =>
        (pure (.text code) : Pass Rendered)) u = (.ok (.text code), t) →
        ∃ refs texts, scene.graph.Chain (some ref) refs ∧ GiveTexts one refs texts u t ∧
          code = concat texts := by
      intro u hrun
      obtain ⟨text, v, hcode, htext⟩ := Pass.bind_eq_ok hrun
      cases htext
      exact giveTexts_of_chainCode hcode
    unfold placeCode at h
    dsimp only at h
    cases hblock : scene.graph.block? ref with
    | none =>
      rw [hblock] at h
      cases h
      exact .inr ⟨[], [], .absent hblock, .nil s, rfl⟩
    | some block =>
      rw [hblock] at h
      dsimp only at h
      split at h
      · next henabled =>
        obtain ⟨rule, u, hrule, hrest⟩ := Pass.bind_eq_ok h
        obtain ⟨hlookup, rfl⟩ := Pass.ofExcept_eq_ok hrule
        split at hrest
        · next hvalue => exact .inl ⟨ref, block, rule, hblock, henabled, hlookup, hvalue, hrest⟩
        · exact .inr (hchain hrest)
      · exact .inr (hchain h)

/-- The text of a place is that of its chain, statement by statement. -/
theorem giveTexts_of_placeCode {room : Nat} {place : Option Ref} {code : String}
    (h : scene.placeCode (scene.renderWithin room) place s = (.ok (.text code), t)) :
    ∃ refs texts, scene.graph.Chain place refs ∧
      GiveTexts (scene.renderWithin room) refs texts s t ∧ code = concat texts := by
  refine (placeCode_eq_text h).resolve_left ?_
  rintro ⟨ref, block, rule, hblock, henabled, hlookup, hvalue, hone⟩
  obtain ⟨-, -, ⟨hno, -⟩ | ⟨block', rule', _, _, hblock', -, hlookup', -, -, hconclude⟩⟩ :=
    renderWithin_eq_ok hone
  · rcases hno with hno | ⟨block', hblock', hdisabled⟩
    · rw [hblock] at hno
      cases hno
    · rw [hblock] at hblock'
      cases hblock'
      rw [henabled] at hdisabled
      cases hdisabled
  · rw [hblock] at hblock'
    cases hblock'
    rw [hlookup] at hlookup'
    cases hlookup'
    exact conclude_ne_text hvalue hconclude

/-! ## Bodies -/

/-- Whether a text is the body that starts at a place: the texts of the statements of the
    chain, one behind the other, with every line one unit deeper. -/
def IsIndentedChain (scene : Scene) (one : Ref → Pass Rendered) (place : Option Ref)
    (body : String) (s t : PassState) : Prop :=
  ∃ refs texts, scene.graph.Chain place refs ∧ GiveTexts one refs texts s t ∧
    IsLed scene.indent (concat texts) body

theorem isIndentedChain_of_bodyText (hcomments : ∀ ref, IsPiece (scene.commentLines ref))
    {room : Nat} {block : Block Ref} {socket body : String}
    (h : scene.bodyText (scene.renderWithin room) block socket s = (.ok body, t)) :
    scene.IsIndentedChain (scene.renderWithin room) (block.statementInput socket) body s t := by
  obtain ⟨rendered, u, hrendered, hrest⟩ := Pass.bind_eq_ok h
  cases rendered with
  | value code tier => cases hrest
  | text code =>
    obtain ⟨rfl, rfl⟩ := Pass.pure_eq_ok hrest
    obtain ⟨refs, texts, hchain, htexts, rfl⟩ := giveTexts_of_placeCode hrendered
    have hpiece := isPiece_concat (htexts.isPiece fun h => isPiece_of_renderWithin hcomments h)
    exact ⟨refs, texts, hchain, htexts, hpiece.isLed_indentLines scene.indent⟩

end Scene

/-- Whatever the rules, the configuration and the blocks, and wherever a pass is: the text of
    a statement, and that of a chain of them, is empty or ends in exactly one line feed; and a
    body holds the texts of the statements of its chain, one behind the other, with every
    line, and nothing else, behind one unit of indentation. -/
theorem statements_end_once (language : Language) (config : Config) (rules : RuleTable)
    (workspace : Workspace) (room : Nat) (s t : PassState) :
    let scene : Scene := ⟨language.dialect, config, rules, workspace⟩
    (∀ ref text, scene.renderWithin room ref s = (.ok (.text text), t) → EndsOnce text) ∧
      (∀ place text, scene.placeCode (scene.renderWithin room) place s = (.ok (.text text), t) →
        EndsOnce text) ∧
      ∀ block socket body,
        scene.bodyText (scene.renderWithin room) block socket s = (.ok body, t) →
        scene.IsIndentedChain (scene.renderWithin room) (block.statementInput socket) body s t := by
  intro scene
  have hcomments : ∀ ref, IsPiece (scene.commentLines ref) := fun ref => Scene.isPiece_commentLines rfl ref
  refine ⟨fun ref text h => (Scene.isPiece_of_renderWithin hcomments h).endsOnce,
    fun place text h => ?_, fun block socket body => Scene.isIndentedChain_of_bodyText hcomments⟩
  obtain ⟨refs, texts, -, htexts, rfl⟩ := Scene.giveTexts_of_placeCode h
  exact (isPiece_concat
    (htexts.isPiece fun h => Scene.isPiece_of_renderWithin hcomments h)).endsOnce

/-! ### A body with notes -/

/-- The built-in rules and one for notes, whose text ends in more lines than it should. -/
def noteRules : RuleTable :=
  { RuleTable.ofLanguage "python" with
    rules := ("note", ⟨.statement, .always (.text "a\n\nb\n\n"), false, "note"⟩) ::
      (RuleTable.ofLanguage "python").rules }

/-- A loop over a note with a comment, a disabled note and another note. -/
def notes : Workspace where
  tops := [3]
  graph := ⟨#[{ Block.ofType "note" with
      id := some "m", comment := some "why\n", next := some 1 },
    { Block.ofType "note" with enabled := false, next := some 2 },
    { Block.ofType "note" with id := some "n" },
    { Block.ofType "controls_whileUntil" with statements := [("DO", some 0)] }]⟩

theorem statements_end_once_notes :
    let config : Config := { statementEnd := "leave(%1)\n\n" }
    let scene : Scene := ⟨Language.python.dialect, config, noteRules, notes⟩
    ∃ loop body t, scene.graph.block? 3 = some loop ∧
      scene.bodyText (scene.renderWithin 1) loop "DO" {} = (.ok body, t) ∧
      body = "  # why\n  # \n  a\n  \n  b\n  \n  leave('m')\n" ++
        "  a\n  \n  b\n  \n  leave('n')\n" ∧
      scene.IsIndentedChain (scene.renderWithin 1) (loop.statementInput "DO") body {} t := by
  intro config scene
  have hbody : (scene.bodyText (scene.renderWithin 1)
      { Block.ofType "controls_whileUntil" with statements := [("DO", some 0)] } "DO" {}).1.toOption =
      some ("  # why\n  # \n  a\n  \n  b\n  \n  leave('m')\n" ++
        "  a\n  \n  b\n  \n  leave('n')\n") := by
    decide +kernel
  have hrun := Pass.eq_of_toOption hbody
  exact ⟨_, _, _, rfl, hrun, rfl,
    (statements_end_once .python config noteRules notes 1 {} _).2.2 _ _ _ hrun⟩

end BlockScript
