import BlockScript.Proofs.Code.Parts
import BlockScript.Proofs.Expression.Lua
import BlockScript.Proofs.Expression.Php
import BlockScript.Proofs.Expression.Python
import BlockScript.Proofs.Graph.Links
import BlockScript.Proofs.Reading.Control
import BlockScript.Proofs.Recipe.Follow

/-!
# Values and names in statements

The texts that stand in statements, for all languages: values, which are cut into
tokens, and names. What a recipe can yield during a pass is what it gives for sound
answers.

Results:

* `Language.faithful`: the tables of every language give the texts of its phrases.
* `Scene.Phrased.of_yields`: what a recipe yields.
* `IsOperand.isPlain`, `NamePolicy.IsName.isPlain`: values and names have no control
  character.
-/

namespace BlockScript

open BlockScript.Number BlockScript.Reading

namespace Language

/-- The expressions of a language. -/
def grammar : Language → Grammar
  | .python => Python.grammar
  | .lua => Lua.grammar
  | .php => Php.grammar

/-- Which words of a language can be called. -/
def isFunctionName : Language → String → Bool
  | .python => Python.isFunctionName
  | .lua => Lua.isFunctionName
  | .php => Php.isFunctionName

/-- The phrases of a language. -/
def phrases : Language → PhraseBook
  | .python => Python.phrases
  | .lua => Lua.phrases
  | .php => Php.phrases

/-- The tables of a language give the texts of its phrases. -/
theorem faithful (language : Language) :
    language.dialect.Faithful language.grammar language.isFunctionName language.phrases := by
  cases language with
  | python => exact Python.faithful
  | lua => exact Lua.faithful
  | php => exact Php.faithful

theorem lexis_plain (language : Language) : language.grammar.lexis.Plain := by
  cases language with
  | python => exact Python.lexis_plain
  | lua => exact Lua.lexis_plain
  | php => exact Php.lexis_plain

end Language

/-! ## Values -/

namespace Reading

/-- Whether a text is a value in a grammar where certain words can be called. -/
def IsOperand (g : Grammar) (allowed : String → Bool) (code : String) : Prop :=
  ∃ tree, Reads g allowed g.levels code tree

variable {g : Grammar} {allowed : String → Bool} {language : Language} {code : String}

theorem isOperand_of_renders {tier : Tier} {tree : Expr} (h : Renders g allowed code tier tree) :
    IsOperand g allowed code :=
  ⟨_, h.reads.weaken (List.dropWhile_suffix _)⟩

theorem isOperand_of_fills {tier : Tier} {strict : Bool} {tree : Expr}
    (h : Fills g allowed tier strict code tree) : IsOperand g allowed code :=
  ⟨_, h.reads.weaken (Grammar.position_suffix _ _ _)⟩

/-- No control character stands in a value. -/
theorem IsOperand.isPlain (h : IsOperand language.grammar language.isFunctionName code) :
    ∀ c ∈ code.toList, IsPlain c := by
  obtain ⟨tree, hreads⟩ := h
  obtain ⟨tokens, ⟨first, mode, last, hrun, -⟩, -⟩ := hreads.reads
  exact language.lexis_plain.of_run (show Mode.blank.OpenedPlain from trivial) hrun

end Reading

/-- Whether a text is a value of a language. -/
abbrev Language.IsOperand (language : Language) (code : String) : Prop :=
  Reading.IsOperand language.grammar language.isFunctionName code

/-- The literal for a field value is that of a double. -/
theorem literalOf?_of_literal? {value : Json} {text : String}
    (h : (literal? value).toOption = some (some text)) : ∃ d, literalOf? d = some text := by
  unfold literal? at h
  cases hd : doubleOf value with
  | ok d =>
    rw [hd] at h
    exact ⟨d, Option.some.inj h⟩
  | error failure =>
    rw [hd] at h
    cases h

/-! ## Names -/

/-- No control character stands in a name. -/
theorem NamePolicy.IsName.isPlain {language : Language} {text : String}
    (h : language.dialect.policy.IsName text) : ∀ c ∈ text.toList, IsPlain c := by
  obtain ⟨kind, word, rfl, hfits⟩ := h
  have hsign : ∀ c ∈ (language.dialect.policy.sign kind).toList, IsPlain c := by
    intro c hc
    have hall : ((language.dialect.policy.sign kind).toList.all fun c => decide (IsPlain c)) = true := by
      cases language <;> cases kind <;> decide
    exact of_decide_eq_true (List.all_eq_true.mp hall c hc)
  obtain ⟨first, rest, hword, hfirst, -, hrest⟩ := hfits.identifier
  intro c hc
  rw [String.toList_append, hword] at hc
  rcases List.mem_append.mp hc with hc | hc
  · exact hsign c hc
  · rcases List.mem_cons.mp hc with rfl | hc
    · exact isPlain_of_isSafeChar hfirst
    · exact isPlain_of_isSafeChar (hrest c hc)

namespace Scene

/-- Whether a scene is one of a language with its built-in rules. -/
structure Speaks (scene : Scene) (language : Language) : Prop where
  dialect : scene.dialect = language.dialect
  rules : scene.rules = .ofLanguage language.name

theorem speaks_ofLanguage (language : Language) (config : Config) (workspace : Workspace) :
    (ofLanguage language config workspace).Speaks language :=
  ⟨rfl, rfl⟩

/-- Whether a rule is that for definitions of procedures shows by the type of a block. -/
theorem handler_eq_procedureDefinition_iff {language type : String} {rule : Rule}
    (h : (RuleTable.ofLanguage language).lookup type = .ok rule) :
    rule.handler = .form .procedureDefinition ↔ type ∈ definitionTypes := by
  have hall : ∀ entry ∈ (RuleTable.ofLanguage "").rules,
      entry.2.handler = .form .procedureDefinition ↔ entry.1 ∈ definitionTypes := by decide
  have hmem := Json.mem_of_find? (RuleTable.find?_of_lookup h)
  exact hall _ hmem

/-- Whether the values of a scene are the phrases of a book, to be read in a grammar where
    certain words can be called. -/
structure Phrased (scene : Scene) (g : Grammar) (allowed : String → Bool) (book : PhraseBook) :
    Prop where
  faithful : scene.dialect.Faithful g allowed book
  known : scene.rules.Known

variable {scene : Scene} {language : Language} {g : Grammar} {allowed : String → Bool}
  {book : PhraseBook} {ref : Ref} {block : Block Ref} {room : Nat} {code : String}
  {s t : PassState} {α : Type}

namespace Speaks

variable (h : scene.Speaks language)
include h

theorem known : scene.rules.Known :=
  h.rules ▸ RuleTable.known_ofLanguage language.name

theorem phrased : scene.Phrased language.grammar language.isFunctionName language.phrases :=
  ⟨h.dialect ▸ language.faithful, h.known⟩

end Speaks

namespace Phrased

open Recipe

variable (h : scene.Phrased g allowed book)
include h

/-! ## What recipes yield -/

/-- Blocks render to the texts of their trees. -/
theorem allRender (final : PassState) (room : Nat) :
    scene.AllRender g allowed final (scene.renderWithin room) (scene.treeWithin book final room) :=
  renderWithin_sound h.faithful h.known room

/-- What a recipe yields is what it gives for sound answers. -/
theorem of_yields {recipe : Recipe α} {P : α → Prop} {result : α}
    (hgives : ∀ final tree, recipe.Gives (scene.SoundAnswer g allowed final tree block) P)
    (hyields : scene.Yields ref block recipe result) : P result := by
  obtain ⟨room, s, t, hs, hrun⟩ := hyields
  exact of_gives (scene.named_kept.renderWithin room) (answer_sound h.faithful (h.allRender t room))
    (hgives t _) hs hrun ⟨id, id⟩

/-- A value, unless the socket is empty. -/
theorem isOperand_value {socket : String} {tier : Tier} {strict : Bool}
    (hyields : scene.Yields ref block (value socket tier strict) code) :
    (code = "" ↔ scene.plugged block socket = none) ∧ (code ≠ "" → IsOperand g allowed code) := by
  refine h.of_yields (P := fun code => (code = "" ↔ scene.plugged block socket = none) ∧
    (code ≠ "" → IsOperand g allowed code)) (fun final tree => ?_) hyields
  refine (gives_value _ _ _).mono fun code hcode => ⟨hcode.eq_empty_iff, fun hne => ?_⟩
  unfold SocketText at hcode
  split at hcode
  · exact absurd hcode hne
  · obtain ⟨tree, -, hfills⟩ := hcode
    exact isOperand_of_fills hfills

/-- A socket with a fallback. -/
theorem isOperand_valueOr {socket fallback : String} {tier : Tier} {strict : Bool} {tree : Expr}
    (hfallback : Fills g allowed tier strict fallback tree)
    (hyields : scene.Yields ref block (valueOr socket tier strict fallback) code) :
    IsOperand g allowed code := by
  refine h.of_yields (P := IsOperand g allowed) (fun final tree => ?_) hyields
  refine (gives_valueOr hfallback).mono fun code ⟨plugged, _, hfills⟩ => ?_
  exact isOperand_of_fills hfills

/-- A condition, or else the value for false. -/
theorem isOperand_condition {socket : String} {tier : Tier}
    (hyields : scene.Yields ref block (valueOr socket tier false scene.dialect.falseLiteral) code) :
    IsOperand g allowed code :=
  h.isOperand_valueOr (h.faithful.fills_atomic (h.faithful.renders_truth false) tier false) hyields

/-- What a return gives back. -/
theorem isOperand_returned (hreturned : scene.IsReturned ref block code) :
    IsOperand g allowed code := by
  rcases hreturned with ⟨hyields, hne⟩ | hyields
  · exact (h.isOperand_value hyields).2 hne
  · exact h.isOperand_valueOr (h.faithful.fills_atomic h.faithful.renders_null .none false) hyields

/-- The condition of a loop. -/
theorem isOperand_loopCondition (hcondition : scene.IsCondition ref block code) :
    IsOperand g allowed code := by
  obtain ⟨mode, inner, -, hmode⟩ := hcondition
  cases mode with
  | «while» =>
    obtain ⟨rfl, hyields⟩ := hmode
    exact h.isOperand_condition hyields
  | «until» =>
    obtain ⟨rfl, hyields⟩ := hmode
    have hfalse := h.faithful.fills_atomic (h.faithful.renders_truth false)
      scene.dialect.logicNot.tier false
    refine h.of_yields (P := fun code => IsOperand g allowed (scene.dialect.logicNot.text ++ code))
      (fun final tree => ?_) hyields
    refine (gives_valueOr hfalse).mono fun code ⟨plugged, _, hfills⟩ => ?_
    exact isOperand_of_renders (h.faithful.logicNot hfills)

/-- The count of a loop. -/
theorem isOperand_repeatCount (hyields : scene.Yields ref block (repeatCount block) code) :
    IsOperand g allowed code := by
  have hzero : Fills g allowed .none false "0" .zero := h.faithful.fills_zero .none false
  refine h.of_yields (P := IsOperand g allowed) (fun final tree => ?_) hyields
  unfold repeatCount
  split
  · refine (gives_result _).bind fun literal hliteral => ?_
    rw [gives_pure]
    cases literal with
    | none => exact isOperand_of_fills hzero
    | some text =>
      obtain ⟨d, hd⟩ := literalOf?_of_literal? hliteral
      exact isOperand_of_renders (h.faithful.renders_literal hd)
  · refine (gives_valueOr hzero).mono fun code ⟨plugged, _, hfills⟩ => ?_
    exact isOperand_of_fills hfills

/-- What a value block renders to. -/
theorem isOperand_render {tier : Tier} (hs : s.Named scene.dialect.policy)
    (hrun : scene.renderWithin room ref s = (.ok (.value code tier), t)) :
    scene.holdsValue ref = true ∧ IsOperand g allowed code := by
  obtain ⟨hholds, tree, -, hrenders⟩ := h.allRender t room ref _ s t hs hrun ⟨id, id⟩
  exact ⟨hholds, isOperand_of_renders hrenders⟩

end Phrased

/-! ## Plain statements -/

/-- Whether a text is a call of a procedure. -/
def IsCall (scene : Scene) (g : Grammar) (allowed : String → Bool) (code : String) : Prop :=
  ∃ name args, scene.dialect.policy.IsName name ∧ (∀ arg ∈ args, IsOperand g allowed arg) ∧
    code = name ++ "(" ++ Text.joinWith ", " args ++ ")"

/-- Whether a text is that of a statement with none inside it. -/
def IsStatement (scene : Scene) (g : Grammar) (allowed : String → Bool) : BlockForm → String → Prop
  | .variableAssignment, text => ∃ name value, scene.dialect.policy.IsName name ∧
      IsOperand g allowed value ∧ text = scene.dialect.statement (name ++ " = " ++ value)
  | .change, text => ∃ name summand tree, scene.dialect.policy.IsName name ∧
      Fills g allowed scene.dialect.changeOperand.tier scene.dialect.changeOperand.strict summand
        tree ∧
      text = scene.dialect.changeStatement name summand
  | .procedureCallStatement, text => ∃ code, IsOperand g allowed code ∧
      scene.IsCall g allowed code ∧ text = scene.dialect.statement code
  | _, _ => False

theorem gives_isName {final : PassState} {tree : Ref → Option Expr} (kind : NameKind)
    (name : Json) :
    (Recipe.nameOf kind name).Gives (scene.SoundAnswer g allowed final tree block)
      scene.dialect.policy.IsName :=
  (Recipe.gives_nameOf kind name).mono fun _ ⟨_, _, _, word, htext, hfits⟩ =>
    ⟨kind, word, htext, hfits⟩

/-- The fallback of a summand is the number zero. -/
theorem Speaks.fallback_changeOperand (h : scene.Speaks language) :
    scene.dialect.changeOperand.fallback = "0" := by
  rw [h.dialect]
  cases language <;> rfl

namespace Phrased

open Recipe

variable (h : scene.Phrased g allowed book)
include h

theorem isStatement_variableAssignment {product : Product}
    (hyields : scene.Yields ref block (variableAssignment scene.dialect block) product) :
    ∃ text, product = .text text ∧ scene.IsStatement g allowed .variableAssignment text := by
  refine h.of_yields (P := fun product => ∃ text, product = .text text ∧
    scene.IsStatement g allowed .variableAssignment text) (fun final tree => ?_) hyields
  refine (gives_valueOr (h.faithful.fills_zero _ _)).bind fun value ⟨_, _, hfills⟩ => ?_
  refine (gives_isName _ _).bind fun name hname => ?_
  exact ⟨_, rfl, name, value, hname, isOperand_of_fills hfills, rfl⟩

theorem isStatement_change (hfallback : scene.dialect.changeOperand.fallback = "0")
    {product : Product} (hyields : scene.Yields ref block (change scene.dialect block) product) :
    ∃ text, product = .text text ∧ scene.IsStatement g allowed .change text := by
  have hzero : Fills g allowed scene.dialect.changeOperand.tier
      scene.dialect.changeOperand.strict scene.dialect.changeOperand.fallback .zero := by
    rw [hfallback]
    exact h.faithful.fills_zero _ _
  refine h.of_yields (P := fun product => ∃ text, product = .text text ∧
    scene.IsStatement g allowed .change text) (fun final tree => ?_) hyields
  refine (gives_importAll _).bind fun _ _ => ?_
  refine (gives_valueOr hzero).bind fun summand ⟨_, _, hfills⟩ => ?_
  refine (gives_isName _ _).bind fun name hname => ?_
  exact ⟨_, rfl, name, summand, _, hname, hfills, rfl⟩

theorem isStatement_procedureCallStatement {product : Product}
    (hyields : scene.Yields ref block (procedureCallStatement scene block) product) :
    ∃ text, product = .text text ∧ scene.IsStatement g allowed .procedureCallStatement text := by
  refine h.of_yields (P := fun product => ∃ text, product = .text text ∧
    scene.IsStatement g allowed .procedureCallStatement text) (fun final tree => ?_) hyields
  have hnull := h.faithful.fills_atomic h.faithful.renders_null .none false
  unfold procedureCallStatement Recipe.call
  rw [gives_bind]
  refine (gives_nameOf _ _).bind fun name ⟨_, _, _, word, htext, hfits⟩ => ?_
  refine (gives_result _).bind fun list _ => ?_
  refine (gives_forEach _ fun i _ => gives_valueOr hnull).bind fun codes hcodes => ?_
  obtain ⟨trees, -, hfills⟩ := Dialect.Faithful.argTrees_of_forall₂ hcodes
  obtain rfl : name = word := by simpa [NamePolicy.sign] using htext
  have hargs : ∀ arg ∈ codes, IsOperand g allowed arg := by
    intro arg harg
    obtain ⟨i, hi, rfl⟩ := List.mem_iff_getElem.mp harg
    exact isOperand_of_fills (hfills.get hi (hfills.length_eq ▸ hi))
  exact ⟨_, rfl, _, isOperand_of_renders (h.faithful.renders_call hfits hfills .none),
    ⟨name, codes, ⟨.procedure, name, htext, hfits⟩, hargs, rfl⟩, rfl⟩

/-- The text of a statement with none inside it. -/
theorem isStatement_of_yields (hfallback : scene.dialect.changeOperand.fallback = "0")
    {form : BlockForm} {product : Product} (hform : form.isSimple = true)
    (hyields : scene.Yields ref block (form.recipe scene ref block) product) :
    ∃ text, product = .text text ∧ scene.IsStatement g allowed form text := by
  cases form with
  | variableAssignment => exact h.isStatement_variableAssignment hyields
  | change => exact h.isStatement_change hfallback hyields
  | procedureCallStatement => exact h.isStatement_procedureCallStatement hyields
  | _ => cases hform

end Phrased

end Scene

end BlockScript
