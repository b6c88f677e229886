import BlockScript.Proofs.Recipe.InStep

/-!
# Recipes with and without comments

The recipe of a form goes on in the same way for bodies with comments in them and for the
same bodies without. Only the definition of a procedure has comments of its own, in the
text that it defines.

Results:

* `Scene.noted_commentLines`: the comments above a statement.
* `BlockForm.recipe_inStep`: the recipe of a form, with comments and without.
-/

namespace BlockScript

open BlockScript.Text

/-! ## Scenes with and without comments -/

/-- The mark of comment lines in a language. -/
def Language.commentMark : Language → String
  | .python => "#"
  | .lua => "--"
  | .php => "//"

theorem Language.isMark_commentMark (language : Language) :
    IsMark language.commentMark.toList where
  ne_nil := by cases language <;> decide
  dark c hc := by
    have hdark : language.commentMark.toList.all (fun c => !isBlank c) = true := by
      cases language <;> rfl
    simpa using List.all_eq_true.mp hdark c hc

/-- A comment line starts with the mark and a space. -/
theorem Language.commentStart_eq (language : Language) :
    language.dialect.commentStart.toList = language.commentMark.toList ++ [' '] := by
  cases language <;> rfl

/-- The scene without the comments of its blocks. -/
def Scene.withoutComments (scene : Scene) : Scene :=
  { scene with config := { scene.config with emitComments := false } }

@[simp]
theorem Scene.graph_withoutComments (scene : Scene) : scene.withoutComments.graph = scene.graph :=
  rfl

/-- Whether a scene puts nothing but comments around statements, and indents bodies by
    spaces and tabs. -/
structure Scene.OnlyComments (scene : Scene) : Prop where
  statementStart : scene.config.statementStart = ""
  statementEnd : scene.config.statementEnd = ""
  loopTrap : scene.config.loopTrap = ""
  indent (c : Char) (h : c ∈ scene.indent.toList) : isIndentChar c = true

/-! ## Headers of a language -/

/-- Whether a text ends with a line. -/
def EndsLine (text : String) : Prop :=
  text.toList.getLast? = some '\n'

theorem endsLine_append (before : String) {after : String} (h : EndsLine after) :
    EndsLine (before ++ after) := by
  unfold EndsLine at h ⊢
  rw [String.toList_append, List.getLast?_append, h]
  rfl

namespace Language

variable {language : Language}

theorem endsLine_statement (code : String) : EndsLine (language.dialect.statement code) := by
  cases language <;> exact endsLine_append _ rfl

theorem endsLine_ifHeader (condition : String) : EndsLine (language.dialect.ifHeader condition) := by
  cases language <;> exact endsLine_append _ rfl

theorem endsLine_elseIfHeader (condition : String) :
    EndsLine (language.dialect.elseIfHeader condition) := by
  cases language <;> exact endsLine_append _ rfl

theorem endsLine_elseHeader : EndsLine language.dialect.elseHeader := by
  cases language <;> rfl

theorem endsLine_whileHeader (condition : String) :
    EndsLine (language.dialect.whileHeader condition) := by
  cases language <;> exact endsLine_append _ rfl

theorem endsLine_repeatHeader (name count : String) :
    EndsLine (language.dialect.repeatHeader name count) := by
  cases language <;> exact endsLine_append _ rfl

theorem endsLine_procedureHeader (name args : String) :
    EndsLine (language.dialect.procedureHeader name args) := by
  cases language <;> exact endsLine_append _ rfl

theorem noted_blockEnd {mark : List Char} :
    Noted mark language.dialect.blockEnd language.dialect.blockEnd := by
  cases language
  · exact .empty
  · exact .refl rfl
  · exact .refl rfl

theorem noted_procedureEnd {mark : List Char} :
    Noted mark language.dialect.procedureEnd language.dialect.procedureEnd := by
  cases language
  · exact .empty
  · exact .refl rfl
  · exact .refl rfl

/-- A procedure starts with a word. -/
theorem startsDark_procedureHeader (name args : String) (rest : List Char) :
    StartsDark ((language.dialect.procedureHeader name args).toList ++ rest) := by
  cases language
  all_goals
    dsimp only [dialect, Python.dialect, Lua.dialect, Php.dialect]
    simp only [String.toList_append, List.append_assoc]
  · exact startsDark_append (show "def ".toList.all isBlank = false by decide) (by decide) _
  · exact startsDark_append (show "function ".toList.all isBlank = false by decide) (by decide) _
  · exact startsDark_append (show "function ".toList.all isBlank = false by decide) (by decide) _

end Language

namespace Scene

variable {scene : Scene} {language : Language} {mark : List Char} {block : Block Ref}

/-- A body stays without text, or has some. -/
theorem noted_filled (hdialect : scene.dialect = language.dialect) {body plainBody : String}
    (h : Noted mark body plainBody) : Noted mark (scene.filled body) (scene.filled plainBody) := by
  unfold filled
  rw [hdialect]
  cases language.dialect.emptyBody with
  | none => exact h
  | some filler =>
    dsimp only
    by_cases hempty : body = ""
    · rw [if_pos hempty, if_pos (h.eq_empty_iff.mp hempty)]
      exact .refl (endsLine_append _ (Language.endsLine_statement filler))
    · rw [if_neg hempty, if_neg fun hno => hempty (h.eq_empty_iff.mpr hno)]
      exact h

/-- Comments ahead of a statement. -/
theorem noted_commentLines (hdialect : scene.dialect = language.dialect) {code plain : String}
    (h : Noted language.commentMark.toList code plain) (hdark : StartsDark code.toList)
    (ref : Ref) : Noted language.commentMark.toList (scene.commentLines ref ++ code) plain := by
  have hcomments : scene.commentLines ref = "" ∨ ∃ comments, scene.commentLines ref =
      indentLines (comments ++ "\n") language.dialect.commentStart := by
    unfold commentLines
    rw [hdialect]
    split
    · exact .inl rfl
    · split
      · exact .inl rfl
      · exact .inr ⟨_, rfl⟩
  rcases hcomments with hnone | ⟨comments, hcomments⟩
  · rw [hnone, String.empty_append]
    exact h
  · rw [hcomments]
    exact h.commented language.isMark_commentMark language.commentStart_eq hdark

theorem commentLines_withoutComments (ref : Ref) : scene.withoutComments.commentLines ref = "" :=
  rfl

namespace OnlyComments

variable (h : scene.OnlyComments)
include h

theorem startHook_eq : scene.startHook block = "" := by
  rw [startHook, h.statementStart, if_pos rfl]

theorem endHook_eq : scene.endHook block = "" := by
  rw [endHook, h.statementEnd, if_pos rfl]

theorem closing_eq : scene.injectIndented scene.config.statementEnd block = "" := by
  rw [injectIndented, h.statementEnd, if_pos rfl]

theorem trap_eq : scene.injectIndented scene.config.loopTrap block = "" := by
  rw [injectIndented, h.loopTrap, if_pos rfl]

theorem hooks_eq : scene.indented (scene.startHook block ++ scene.endHook block) = "" := by
  rw [h.startHook_eq, h.endHook_eq]
  exact indentLines_empty _

theorem withoutComments : scene.withoutComments.OnlyComments :=
  ⟨h.statementStart, h.statementEnd, h.loopTrap, h.indent⟩

theorem trapped_eq (suppressHooks : Bool) (body : String) :
    scene.trapped suppressHooks body block = body := by
  unfold trapped
  simp [h.statementStart, h.statementEnd, h.loopTrap, injectIndented]

end OnlyComments

/-- A program without prefix, suffix and trap has nothing but comments around statements. -/
theorem onlyComments_ofLanguage {language : Language} {config : Config} {workspace : Workspace}
    (hstart : config.statementStart = "") (hend : config.statementEnd = "")
    (htrap : config.loopTrap = "")
    (hindent : ∀ unit ∈ config.indent, ∀ c ∈ unit.toList, isIndentChar c = true) :
    (ofLanguage language config workspace).OnlyComments := by
  refine ⟨hstart, hend, htrap, fun c hc => ?_⟩
  change c ∈ (config.indent.getD "  ").toList at hc
  cases hunit : config.indent with
  | none =>
    rw [hunit] at hc
    obtain rfl : c = ' ' := by simpa using hc
    rfl
  | some unit =>
    rw [hunit] at hc
    exact hindent unit hunit c hc

end Scene

/-! ## Whole recipes -/

namespace Recipe

variable {scene : Scene} {language : Language} {mark : List Char} (ref : Ref) (block : Block Ref)
  (h : scene.OnlyComments) (hdialect : scene.dialect = language.dialect)
include h hdialect

theorem inStep_arm (number : Nat) :
    InStep mark (Text.Noted mark) (arm scene block number) (arm scene block number) := by
  refine (inStep_valueOr _ _ _ _).bind_eq fun condition => ?_
  refine (inStep_body _ _).bind fun statements plainStatements hbody => .done ?_
  have hheader : EndsLine ((if number = 0 then scene.dialect.ifHeader
      else scene.dialect.elseIfHeader) condition) := by
    rw [hdialect]
    split
    · exact Language.endsLine_ifHeader condition
    · exact Language.endsLine_elseIfHeader condition
  rw [h.closing_eq, String.empty_append, String.empty_append]
  exact (Noted.refl hheader).append (Scene.noted_filled hdialect hbody)

theorem inStep_otherwise :
    InStep mark (Text.Noted mark) (otherwise scene block) (otherwise scene block) := by
  unfold otherwise
  split
  · refine (inStep_body _ _).bind fun statements plainStatements hbody => .done ?_
    rw [h.closing_eq, String.empty_append, String.empty_append]
    refine Noted.append (.refl ?_) (Scene.noted_filled hdialect hbody)
    rw [hdialect]
    exact Language.endsLine_elseHeader
  · exact .done .empty

theorem inStep_conditional :
    InStep mark (Product.Noted mark) (conditional scene block) (conditional scene block) := by
  refine (inStep_forEach (inStep_arm block h hdialect) _).bind fun arms plainArms harms => ?_
  refine (inStep_otherwise block h hdialect).bind fun last plainLast hlast => .done (.text ?_)
  rw [h.startHook_eq, String.empty_append, String.empty_append, hdialect]
  exact (((noted_concat harms).append hlast).append Language.noted_blockEnd).annotates

omit hdialect in
theorem inStep_addLoopTrap {body plainBody : String} (hbody : Text.Noted mark body plainBody) :
    InStep mark (Text.Noted mark) (ofExcept (scene.addLoopTrap body block))
      (ofExcept (scene.addLoopTrap plainBody block)) := by
  unfold Scene.addLoopTrap
  cases scene.rules.lookup block.type with
  | error failure => exact .fail failure
  | ok rule =>
    refine .done ?_
    rw [h.trapped_eq, h.trapped_eq]
    exact hbody

theorem inStep_loopStatements :
    InStep mark (Text.Noted mark) (loopStatements scene ref block)
      (loopStatements scene ref block) := by
  refine (inStep_body _ _).bind fun statements plainStatements hbody => ?_
  refine (inStep_addLoopTrap block h hbody).bind fun trapped plainTrapped htrapped => ?_
  split
  · exact .done (Scene.noted_filled hdialect htrapped)
  · next label _ =>
    refine .ask _ fun continued _ heq => ?_
    cases heq
    refine .done (Scene.noted_filled hdialect ?_)
    split
    · rw [String.append_assoc, String.append_assoc, String.append_assoc, String.append_assoc]
      exact htrapped.append (.refl (endsLine_append _ (endsLine_append _ rfl)))
    · exact htrapped

theorem inStep_whileLoop :
    InStep mark (Product.Noted mark) (whileLoop scene ref block) (whileLoop scene ref block) := by
  have hloop : ∀ condition, InStep mark (Product.Noted mark)
      (loopStatements scene ref block >>= fun statements => (pure (Product.text
        (scene.dialect.whileHeader condition ++ statements ++ scene.dialect.blockEnd)) :
          Recipe Product))
      (loopStatements scene ref block >>= fun statements => (pure (Product.text
        (scene.dialect.whileHeader condition ++ statements ++ scene.dialect.blockEnd)) :
          Recipe Product)) := by
    intro condition
    refine (inStep_loopStatements ref block h hdialect).bind fun body plainBody hbody =>
      .done (.text ?_)
    rw [hdialect]
    exact (((Noted.refl (Language.endsLine_whileHeader condition)).append hbody).append
      Language.noted_blockEnd).annotates
  refine (inStep_ofExcept _).bind_eq fun mode => ?_
  cases mode with
  | «until» | «while» =>
    refine (inStep_valueOr _ _ _ _).bind_eq fun condition => ?_
    exact hloop _

theorem inStep_repeatLoop :
    InStep mark (Product.Noted mark) (repeatLoop scene ref block) (repeatLoop scene ref block) := by
  have hcount : InStep mark Eq (repeatCount block) (repeatCount block) := by
    unfold repeatCount
    split
    · exact (inStep_ofExcept _).bind_eq fun _ => .done rfl
    · exact inStep_valueOr _ _ _ _
  have hloop : ∀ {assignment body plainBody : String} (counter bound : String),
      Text.Noted mark assignment assignment → Text.Noted mark body plainBody →
      Product.Noted mark
        (.text (assignment ++ scene.dialect.repeatHeader counter bound ++ body ++
          scene.dialect.blockEnd))
        (.text (assignment ++ scene.dialect.repeatHeader counter bound ++ plainBody ++
          scene.dialect.blockEnd)) := by
    intro assignment body plainBody counter bound hassignment hbody
    refine .text ?_
    rw [hdialect]
    exact (((hassignment.append (.refl (Language.endsLine_repeatHeader counter bound))).append
      hbody).append Language.noted_blockEnd).annotates
  refine hcount.bind_eq fun count => ?_
  refine (inStep_loopStatements ref block h hdialect).bind fun body plainBody hbody => ?_
  refine (inStep_freshName _ _).bind_eq fun counter => ?_
  split
  · next before after _ =>
    have hwhole := hloop counter (truncatedCount before after count) .empty hbody
    rw [String.empty_append] at hwhole
    exact .done hwhole
  · split
    · have hwhole := hloop counter count .empty hbody
      rw [String.empty_append] at hwhole
      exact .done hwhole
    · refine (inStep_freshName _ _).bind_eq fun bound => .done ?_
      refine hloop counter bound (.refl ?_) hbody
      rw [hdialect]
      exact Language.endsLine_statement _

omit h in
theorem inStep_outerDeclaration :
    InStep mark (fun outer plain => outer = plain ∧ Text.Noted mark outer outer)
      (outerDeclaration scene ref block) (outerDeclaration scene ref block) := by
  unfold outerDeclaration
  split
  · exact .done ⟨rfl, .empty⟩
  · next declaration hdeclaration =>
    refine (inStep_ofExcept _).bind_eq fun known => ?_
    refine (inStep_forEach_eq (fun _ => inStep_nameOf _ _) _).bind_eq fun named => ?_
    refine (inStep_forEach_eq (fun _ => inStep_nameOf _ _) _).bind_eq fun developer => ?_
    split
    · exact .done ⟨rfl, .empty⟩
    · refine .done ⟨rfl, .refl (endsLine_append _ ?_)⟩
      rw [hdialect] at hdeclaration
      cases language <;> cases hdeclaration
      · exact endsLine_append _ rfl
      · exact endsLine_append _ rfl

/-- The definition of a procedure, with the comments above it and without. -/
theorem inStep_procedureDefinition :
    InStep language.commentMark.toList (Product.Noted language.commentMark.toList)
      (procedureDefinition scene ref block) (procedureDefinition scene.withoutComments ref block) := by
  refine (inStep_nameOf _ _).bind_eq fun name => ?_
  refine (inStep_outerDeclaration ref block hdialect).bind fun outer _ houter => ?_
  obtain ⟨rfl, houter⟩ := houter
  refine (inStep_body _ _).bind fun statements plainStatements hbody => ?_
  refine (inStep_value _ _ _).bind_eq fun result => ?_
  refine (inStep_ofExcept _).bind_eq fun listed => ?_
  refine (inStep_forEach_eq (inStep_nameOf _) _).bind_eq fun args => ?_
  have hkey : startsWith importKey (procedureKey name) = false := by
    rw [Bool.eq_false_iff]
    intro himport
    have hno := isProcedureKey_of_import himport
    rw [isProcedureKey_procedureKey] at hno
    cases hno
  refine .define _ ?_ (fun himport => by rw [hkey] at himport; cases himport) (.done .nothing)
  rw [h.hooks_eq, h.trap_eq, h.withoutComments.hooks_eq, h.withoutComments.trap_eq,
    Scene.commentLines_withoutComments]
  simp only [String.append_empty, String.empty_append, ite_self]
  rw [hdialect, show scene.withoutComments.dialect = language.dialect from hdialect]
  have hbodies : ∀ alone : Bool, Text.Noted language.commentMark.toList
      (if alone then scene.filled statements else statements)
      (if alone then scene.filled plainStatements else plainStatements) := by
    intro alone
    cases alone with
    | true => exact Scene.noted_filled hdialect hbody
    | false => exact hbody
  have hlast : Text.Noted language.commentMark.toList
      (if result = "" then "" else returnStatement scene result)
      (if result = "" then "" else returnStatement scene result) := by
    split
    · exact .empty
    · unfold returnStatement
      rw [hdialect]
      exact .refl (endsLine_append _ (Language.endsLine_statement _))
  have hheader : EndsLine (language.dialect.procedureHeader name (joinWith ", " args)) :=
    Language.endsLine_procedureHeader name _
  have hcode := fun alone => ((((Noted.refl hheader).append houter).append (hbodies alone)).append
    hlast).append (@Language.noted_procedureEnd language _)
  refine (Scene.noted_commentLines hdialect (hcode _) ?_ ref).annotates
  simp only [String.toList_append, List.append_assoc]
  exact Language.startsDark_procedureHeader _ _ _

omit h hdialect in
/-- The recipe of a form without statements inside is answered the same way. -/
theorem inStep_of_holdsBodies {form : BlockForm} (hform : form.holdsBodies = false) :
    InStep mark (Product.Noted mark) (form.recipe scene ref block)
      (form.recipe scene ref block) := by
  have hnone : (form.recipe scene ref block).Only
      (fun request => ∀ socket loop, request ≠ .body socket loop) fun _ => True := by
    refine (form.recipe_asks scene ref block).mono (fun request hrequest socket loop heq => ?_)
      fun _ _ => trivial
    subst heq
    obtain ⟨⟨hholds, -⟩, -⟩ := hrequest
    rw [hform] at hholds
    cases hholds
  refine (InStep.of_only hnone).mono fun product _ heq => ?_
  subst heq
  cases product with
  | nothing => exact .nothing
  | text code => exact .text (.refl _)
  | value code tier => exact .value code tier

end Recipe

open Recipe in
/-- The recipe of a form, with comments and without. -/
theorem BlockForm.recipe_inStep {scene : Scene} {language : Language} (ref : Ref)
    (block : Block Ref) (h : scene.OnlyComments) (hdialect : scene.dialect = language.dialect)
    (form : BlockForm) :
    InStep language.commentMark.toList (Product.Noted language.commentMark.toList)
      (form.recipe scene ref block) (form.recipe scene.withoutComments ref block) := by
  cases form with
  | conditional => exact inStep_conditional block h hdialect
  | whileLoop => exact inStep_whileLoop ref block h hdialect
  | repeatLoop => exact inStep_repeatLoop ref block h hdialect
  | procedureDefinition => exact inStep_procedureDefinition ref block h hdialect
  | _ => exact inStep_of_holdsBodies ref block rfl

end BlockScript
