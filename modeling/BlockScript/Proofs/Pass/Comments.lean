import Mathlib.Data.List.Permutation
import BlockScript.Proofs.Code.Starts
import BlockScript.Proofs.Pass.Parallel
import BlockScript.Proofs.Text.Trimmed

/-!
# Programs with and without comments

Comments do not change a program. With comments and without them, a workspace is refused
for the same reason or accepted by both passes, and the two programs are the same once the
comment lines of both are deleted.

A comment stands above a statement that has text, so it neither takes the place of a
statement in an empty body nor keeps a blank line from being trimmed.

Results:

* `Scene.Speaks.parallel_renderWithin`: what a block renders to, with comments and without.
* `dropComments_generate`: whole programs.
-/

namespace BlockScript

open BlockScript.Text

namespace Scene

variable {scene : Scene} {language : Language} {ref : Ref} {block : Block Ref} {room : Nat}
  {mark : List Char} {policy : NamePolicy} {s t : PassState}

/-! ## Single blocks -/

theorem Speaks.withoutComments (h : scene.Speaks language) :
    scene.withoutComments.Speaks language :=
  ⟨h.dialect, h.rules⟩

theorem OnlyComments.isBare (h : scene.OnlyComments) : scene.withoutComments.IsBare :=
  ⟨h.statementStart, h.statementEnd, h.loopTrap, rfl⟩

theorem OnlyComments.statementText_eq (h : scene.OnlyComments) (rule : Rule) (code : String) :
    scene.statementText rule ref block code =
      scene.commentLines ref ++ oneTrailingNewline code := by
  unfold statementText
  rw [h.startHook_eq, h.endHook_eq, String.empty_append, String.append_empty, ite_self]

theorem parallel_permit (ref : Ref) (block : Block Ref) :
    Parallel mark policy Eq (scene.permit ref block) (scene.withoutComments.permit ref block) := by
  rintro s t ⟨entries, rfl, hentries, hnamed⟩
  have htwin : Twin mark policy s (s.withEntries entries) := ⟨entries, rfl, hentries, hnamed⟩
  change Alongside mark policy Eq
    ((if s.active.contains ref then throw (.containsItself block.idText)
      else if scene.config.maxDepth ≤ s.depth then throw (.tooDeep scene.config.maxDepth)
      else Pass.ofExcept (scene.rules.lookup block.type) : Pass Rule) s)
    ((if s.active.contains ref then throw (.containsItself block.idText)
      else if scene.config.maxDepth ≤ s.depth then throw (.tooDeep scene.config.maxDepth)
      else Pass.ofExcept (scene.rules.lookup block.type) : Pass Rule) (s.withEntries entries))
  split
  · exact .error htwin
  · split
    · exact .error htwin
    · exact Parallel.ofExcept _ _ _ htwin

/-- What is concluded from what a rule makes of a block, if its text starts with a line that
    is not blank. -/
theorem Speaks.parallel_conclude (h : scene.Speaks language) (hcomments : scene.OnlyComments)
    (ref : Ref) (block : Block Ref) {rule : Rule} {product plain : Product}
    (hproduct : product.Noted language.commentMark.toList plain)
    (hdark : rule.isValue = false → ∀ code, plain = .text code →
      StartsDark (oneTrailingNewline code).toList) :
    Parallel language.commentMark.toList policy (Rendered.Noted language.commentMark.toList)
      (Pass.ofExcept (scene.conclude rule ref block product))
      (Pass.ofExcept (scene.withoutComments.conclude rule ref block plain)) := by
  unfold conclude
  cases hvalue : rule.isValue with
  | true =>
    cases hproduct with
    | nothing => exact .throw _
    | text hcode => exact .throw _
    | value code tier => exact .pure (.value code tier)
  | false =>
    cases hproduct with
    | nothing => exact .pure (.text .empty)
    | @text code plainCode hcode =>
      have hnoted := hcode.oneTrailingNewline language.isMark_commentMark
      have hstart := hnoted.startsDark language.isMark_commentMark (hdark hvalue plainCode rfl)
      refine .pure (.text ?_)
      rw [hcomments.statementText_eq, hcomments.withoutComments.statementText_eq,
        commentLines_withoutComments, String.empty_append]
      exact noted_commentLines h.dialect hnoted hstart ref
    | value code tier => exact .throw _

namespace Speaks

variable (h : scene.Speaks language) (hcomments : scene.OnlyComments)
include h hcomments

/-- What a block renders to, with comments and without. -/
theorem parallel_renderWithin (room : Nat) (ref : Ref) :
    Parallel language.commentMark.toList scene.dialect.policy
      (Rendered.Noted language.commentMark.toList) (scene.renderWithin room ref)
      (scene.withoutComments.renderWithin room ref) := by
  induction room generalizing ref with
  | zero => exact .throw _
  | succ room ih =>
    unfold renderWithin
    rw [graph_withoutComments]
    cases hblock : scene.graph.block? ref with
    | none => exact .pure (.text .empty)
    | some block =>
      dsimp only
      split
      · exact .pure (.text .empty)
      · next henabled =>
        intro s t htwin
        refine (parallel_permit ref block s t htwin).bind fun rule plainRule u v hrule _ heq huv => ?_
        subst heq
        obtain ⟨hlookup, rfl, -⟩ := permit_eq_ok hrule
        obtain ⟨form, hform, -⟩ := h.known _ _ hlookup
        have hrecipe : (rule.handler.recipe scene ref block).InStep language.commentMark.toList
            (Product.Noted language.commentMark.toList)
            (rule.handler.recipe scene.withoutComments ref block) := by
          rw [hform]
          exact form.recipe_inStep ref block hcomments h.dialect
        have hinside := (parallel_follow block ih hcomments rfl ref hrecipe).entering ref
        refine (hinside _ _ huv).bind fun product plain w x _ hplain hproduct hwx => ?_
        refine h.parallel_conclude hcomments ref block hproduct (fun hvalue code hcode => ?_) w x hwx
        subst hcode
        obtain ⟨y, hfollow, -⟩ := Pass.between_eq_ok hplain
        have hnamed : PassState.Named scene.dialect.policy
            { v with depth := v.depth + 1, active := ref :: v.active } :=
          ⟨fun hname => huv.named.assigned hname, fun hname => huv.named.helpers hname⟩
        exact h.withoutComments.startsDark_of_follow hcomments.isBare hblock
          (by simpa using henabled) hnamed hlookup hvalue hfollow

/-- The text of what starts at the top, with the comments above it and without. -/
theorem noted_topText {rendered plain : Rendered}
    (hrendered : rendered.Noted language.commentMark.toList plain) (hs : s.Named scene.dialect.policy)
    (hrun : scene.withoutComments.renderPlace (some ref) s = (.ok plain, t)) :
    Noted language.commentMark.toList (scene.topText ref rendered)
      (scene.withoutComments.topText ref plain) := by
  cases hrendered with
  | text hcode => exact hcode
  | value code tier =>
    obtain ⟨target, htarget, hone⟩ := placeCode_eq_value hrun
    cases htarget
    unfold topText nakedValue
    dsimp only
    rw [graph_withoutComments]
    cases scene.graph.block? ref with
    | none => exact .empty
    | some block =>
      have hspells : scene.withoutComments.SpellsOf ref block (scene.dialect.nakedValue code) .value :=
        ⟨_, code, tier, s, t, hs, hone, rfl⟩
      have hline := h.withoutComments.isLine_of_spellsOf rfl hspells
      have hstart := hline.startsDark []
      rw [List.append_nil] at hstart
      dsimp only
      rw [hcomments.startHook_eq, hcomments.endHook_eq, hcomments.withoutComments.startHook_eq,
        hcomments.withoutComments.endHook_eq, commentLines_withoutComments]
      simp only [String.empty_append, String.append_empty]
      exact noted_commentLines h.dialect (.refl hline.1) hstart ref

/-- The texts of the top blocks. -/
theorem parallel_topTexts (refs : List Ref) :
    Parallel language.commentMark.toList scene.dialect.policy
      (List.Forall₂ (Noted language.commentMark.toList)) (scene.topTexts refs)
      (scene.withoutComments.topTexts refs) := by
  induction refs with
  | nil => exact .pure .nil
  | cons ref refs ih =>
    rw [topTexts_cons, topTexts_cons]
    intro s t htwin
    have hplace : Parallel language.commentMark.toList scene.dialect.policy
        (Rendered.Noted language.commentMark.toList) (scene.renderPlace (some ref))
        (scene.withoutComments.renderPlace (some ref)) :=
      parallel_placeCode (h.parallel_renderWithin hcomments _) (some ref)
    refine (hplace s t htwin).bind fun rendered plain u v _ hrun hrendered huv => ?_
    have htext := h.noted_topText hcomments hrendered htwin.named hrun
    refine ih.bind (fun texts plainTexts htexts => .pure ?_) u v huv
    by_cases hempty : scene.topText ref rendered = ""
    · rw [if_pos hempty, if_pos (htext.eq_empty_iff.mp hempty)]
      exact htexts
    · rw [if_neg hempty, if_neg fun hno => hempty (htext.eq_empty_iff.mpr hno)]
      exact .cons htext htexts

end Speaks

/-! ## Assembling programs -/

/-- Whether a text is another one with comments. -/
def AnnotatesText (mark : List Char) (text plain : String) : Prop :=
  Annotates mark text.toList plain.toList

/-- Texts with line feeds between them. -/
theorem annotates_joinWith {separator : String} (feeds : List Char)
    (hseparator : separator.toList = '\n' :: feeds)
    (hfeeds : feeds = [] ∨ feeds.getLast? = some '\n') {texts plainTexts : List String}
    (h : List.Forall₂ (AnnotatesText mark) texts plainTexts) :
    AnnotatesText mark (joinWith separator texts) (joinWith separator plainTexts) := by
  induction h with
  | nil => exact .refl _
  | @cons text plain texts plainTexts hfirst hrest ih =>
    cases hrest with
    | nil => exact hfirst
    | @cons next plainNext rest plainRest _ _ =>
      have hjoin : ∀ text next rest, (joinWith separator (text :: next :: rest)).toList =
          text.toList ++ '\n' :: (feeds ++ (joinWith separator (next :: rest)).toList) := by
        intro text next rest
        rw [joinWith, String.toList_append, String.toList_append, hseparator, List.append_assoc,
          List.cons_append]
        exact fun hno => List.cons_ne_nil _ _ hno
      unfold AnnotatesText
      rw [hjoin, hjoin]
      exact hfirst.append (ih.append_left hfeeds)

/-- The imports are the same. -/
theorem imports_eq {entries plainEntries : List (String × String)}
    (h : List.Forall₂ (NotedEntry mark) entries plainEntries) :
    ((entries.filter fun entry => isImportKey entry.1).map fun entry => strip entry.2) =
      (plainEntries.filter fun entry => isImportKey entry.1).map fun entry => strip entry.2 := by
  induction h with
  | nil => rfl
  | @cons entry plain entries plainEntries hfirst _ ih =>
    rw [List.filter_cons, List.filter_cons, hfirst.key]
    split
    · next himport =>
      rw [List.map_cons, List.map_cons, ih, hfirst.imported (by rw [hfirst.key]; exact himport)]
    · exact ih

section Finish

variable (hmark : IsMark mark) {entries plainEntries : List (String × String)} {code plain : String}

include hmark

/-- Definitions that are not blank, as they stand ahead of the main part. -/
theorem annotates_definitions (h : List.Forall₂ (NotedEntry mark) entries plainEntries)
    (keep : String → Bool) {trim : String → String}
    (htrim : ∀ {text plain : String}, AnnotatesText mark text plain →
      AnnotatesText mark (trim text) (trim plain)) :
    List.Forall₂ (AnnotatesText mark)
      ((entries.filter fun entry => keep entry.1 && !isBlankText entry.2).map fun entry =>
        trim entry.2)
      ((plainEntries.filter fun entry => keep entry.1 && !isBlankText entry.2).map fun entry =>
        trim entry.2) := by
  induction h with
  | nil => exact .nil
  | cons hfirst _ ih =>
    rw [List.filter_cons, List.filter_cons, hfirst.key, hfirst.text.isBlankText_eq hmark]
    split
    · exact .cons (htrim hfirst.text) ih
    · exact ih

/-- Texts of which those are left out that are empty. -/
theorem annotates_filter {texts plainTexts : List String}
    (h : List.Forall₂ (AnnotatesText mark) texts plainTexts) :
    List.Forall₂ (AnnotatesText mark) (texts.filter (· ≠ "")) (plainTexts.filter (· ≠ "")) := by
  refine List.rel_filter (fun text plain htext => ?_) h
  have hempty : text = "" ↔ plain = "" := by
    rw [← String.toList_eq_nil_iff, ← String.toList_eq_nil_iff]
    exact htext.eq_nil_iff hmark
  simpa using not_congr hempty

omit hmark in
/-- The parts of a program that are there, and its main part. -/
theorem annotates_parts (hcode : AnnotatesText mark code plain) {parts plainParts : List String}
    (hparts : List.Forall₂ (AnnotatesText mark) parts plainParts) :
    AnnotatesText mark
      (if parts.isEmpty then code else joinWith "\n\n" parts ++ "\n\n\n" ++ code)
      (if plainParts.isEmpty then plain
        else joinWith "\n\n" plainParts ++ "\n\n\n" ++ plain) := by
  cases hparts with
  | nil => exact hcode
  | cons hfirst hrest =>
    have hseparator : "\n\n".toList = ['\n', '\n'] := rfl
    have hjoined := annotates_joinWith ['\n'] hseparator (.inr rfl) (.cons hfirst hrest)
    have hmain : Annotates mark (['\n', '\n'] ++ code.toList) (['\n', '\n'] ++ plain.toList) :=
      hcode.append_left (.inr rfl)
    rw [if_neg (by simp), if_neg (by simp)]
    unfold AnnotatesText
    simpa using hjoined.append hmain

/-- The definitions and the main part of a program. -/
theorem annotates_finish {definitions plainDefinitions : Definitions}
    (h : List.Forall₂ (NotedEntry mark) definitions.entries plainDefinitions.entries)
    (hcode : AnnotatesText mark code plain) :
    AnnotatesText mark (scene.finish definitions code)
      (scene.withoutComments.finish plainDefinitions plain) := by
  have hdialect : scene.withoutComments.dialect = scene.dialect := rfl
  unfold finish
  rw [hdialect]
  split
  · have hothers := annotates_definitions hmark h (fun key => !isImportKey key)
      fun htext => htext.trimNewlines hmark
    unfold withImportsFirst
    rw [imports_eq h]
    exact annotates_parts hcode (annotates_filter hmark
      (.cons (.refl _) (.cons (annotates_joinWith ['\n'] (by rfl) (.inr rfl) hothers) .nil)))
  · exact annotates_parts hcode (annotates_definitions hmark h (fun _ => true)
      fun htext => htext.dropNewlines)

end Finish

/-! ## Programs -/

theorem reserve_withoutComments (kind : NameKind) (names : List String) :
    scene.withoutComments.reserve kind names = scene.reserve kind names := by
  induction names with
  | nil => rfl
  | cons name names ih =>
    rw [reserve, reserve, ih]
    rfl

theorem reserveDefined_withoutComments (names : List Scalar) :
    scene.withoutComments.reserveDefined names = scene.reserveDefined names := by
  induction names with
  | nil => rfl
  | cons name names ih =>
    cases name with
    | text name =>
      rw [reserveDefined, reserveDefined, ih]
      rfl
    | _ => rfl

/-- Names are reserved without a look at the comments. -/
theorem reserveNames_withoutComments :
    scene.withoutComments.reserveNames = scene.reserveNames := by
  unfold reserveNames
  simp only [reserve_withoutComments, reserveDefined_withoutComments]
  rfl

/-- Whole programs, with comments and without. -/
theorem Speaks.alongside_program (h : scene.Speaks language) (hcomments : scene.OnlyComments) :
    Alongside language.commentMark.toList scene.dialect.policy
      (fun program plain => AnnotatesText language.commentMark.toList program.code plain.code)
      (scene.program {}) (scene.withoutComments.program {}) := by
  have hreserve : Alongside language.commentMark.toList scene.dialect.policy Eq
      (scene.reserveNames {}) (scene.withoutComments.reserveNames {}) := by
    have hnamed := (scene.named_kept.reserveNames {}).named PassState.named_empty
    rw [reserveNames_withoutComments]
    generalize scene.reserveNames {} = run at hnamed
    obtain ⟨result, s⟩ := run
    cases result with
    | ok _ => exact .ok rfl (.refl hnamed)
    | error failure => exact .error (.refl hnamed)
  refine hreserve.bind fun _ _ u v _ _ _ huv => ?_
  refine (h.parallel_topTexts hcomments _ u v huv).bind fun texts plainTexts w x _ _ htexts hwx => ?_
  obtain ⟨entries, rfl, hentries, hnamed⟩ := hwx
  have hmain : AnnotatesText language.commentMark.toList (joinWith "\n" texts)
      (joinWith "\n" plainTexts) :=
    annotates_joinWith [] rfl (.inl rfl) (htexts.imp fun _ _ htext => htext.annotates)
  exact .ok ((annotates_finish language.isMark_commentMark hentries hmain).tidy
    language.isMark_commentMark) ⟨entries, rfl, hentries, hnamed⟩

/-- The runs end in the same way, with texts that are the same without comments, and with
    the same warnings. -/
theorem Speaks.dropComments_program (h : scene.Speaks language) (hcomments : scene.OnlyComments) :
    (scene.program {}).1.map (fun program => dropComments language.commentMark program.code) =
        (scene.withoutComments.program {}).1.map
          (fun program => dropComments language.commentMark program.code) ∧
      (scene.program {}).2.warnings = (scene.withoutComments.program {}).2.warnings := by
  have hruns := h.alongside_program hcomments
  generalize scene.program {} = run at hruns ⊢
  generalize scene.withoutComments.program {} = plain at hruns ⊢
  cases hruns with
  | ok hcode htwin =>
    obtain ⟨entries, rfl, -, -⟩ := htwin
    exact ⟨congrArg Except.ok hcode.dropComments_eq, rfl⟩
  | error htwin =>
    obtain ⟨entries, rfl, -, -⟩ := htwin
    exact ⟨rfl, rfl⟩

end Scene

/-- Comments do not change a program. -/
theorem dropComments_generate (language : Language) (config : Config) (workspace : Workspace)
    (hstart : config.statementStart = "") (hend : config.statementEnd = "")
    (htrap : config.loopTrap = "")
    (hindent : ∀ unit ∈ config.indent, ∀ c ∈ unit.toList, isIndentChar c = true) :
    (generate language { config with emitComments := true } workspace).1.map
          (fun program => dropComments language.commentMark program.code) =
        (generate language { config with emitComments := false } workspace).1.map
          (fun program => dropComments language.commentMark program.code) ∧
      (generate language { config with emitComments := true } workspace).2 =
        (generate language { config with emitComments := false } workspace).2 := by
  have hcomments :
      (Scene.ofLanguage language { config with emitComments := true } workspace).OnlyComments :=
    Scene.onlyComments_ofLanguage hstart hend htrap hindent
  exact (Scene.speaks_ofLanguage language _ workspace).dropComments_program hcomments

/-! ### A loop without a body -/

/-- A loop with a comment of two lines, and a disabled block with a comment for its body. -/
def remarked : Workspace where
  tops := [1]
  graph := ⟨#[{ Block.ofType "controls_flow_statements" with
      enabled := false
      comment := some "later" },
    { Block.ofType "controls_whileUntil" with
      comment := some "never\nyet"
      statements := [("DO", some 0)] }]⟩

theorem generate_remarked (emits : Bool) :
    ((generate .python { emitComments := emits } remarked).1.toOption.map fun program =>
        program.code) =
      some ((if emits then "# never\n# yet\n" else "") ++ "while False:\n  pass\n") := by
  have hall : (Scene.ofLanguage .python { emitComments := emits } remarked).workspace.allBlocks =
      [1, 0] :=
    show remarked.allBlocks = [1, 0] by cbv
  have hused : (Scene.ofLanguage .python { emitComments := emits } remarked).usedVariables =
      .ok [] := by
    unfold Scene.usedVariables Workspace.usedVariables
    rw [hall]
    cases emits <;> rfl
  have hdefined : (Scene.ofLanguage .python { emitComments := emits } remarked).definedNames =
      [] := by
    unfold Scene.definedNames
    rw [hall]
    rfl
  unfold generate
  rw [Scene.program, Pass.bind_apply, Scene.reserveNames_of_noNames hused rfl hdefined]
  cases emits <;> decide +kernel

theorem dropComments_generate_remarked :
    ({} : Config).statementStart = "" ∧ ({} : Config).statementEnd = "" ∧
      ({} : Config).loopTrap = "" ∧
      (∀ unit ∈ ({} : Config).indent, ∀ c ∈ unit.toList, isIndentChar c = true) ∧
      ((generate .python { emitComments := true } remarked).1.toOption.map fun program =>
        program.code) = some "# never\n# yet\nwhile False:\n  pass\n" ∧
      (generate .python { emitComments := true } remarked).1.map
          (fun program => dropComments Language.python.commentMark program.code) =
        (generate .python { emitComments := false } remarked).1.map
          (fun program => dropComments Language.python.commentMark program.code) ∧
      (generate .python { emitComments := true } remarked).2 =
        (generate .python { emitComments := false } remarked).2 :=
  ⟨rfl, rfl, rfl, by simp, generate_remarked true,
    dropComments_generate .python {} remarked rfl rfl rfl (by simp)⟩

end BlockScript
