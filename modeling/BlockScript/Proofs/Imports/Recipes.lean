import BlockScript.Proofs.Imports.Texts
import BlockScript.Proofs.Names.Capture
import BlockScript.Proofs.Recipe.Commented
import BlockScript.Proofs.Recipe.Meets
import BlockScript.Proofs.Recipe.Stock

/-!
# The imports that recipes ask for

A recipe puts fixed text around the texts that it is answered. Some of the fixed text uses
names from modules, and so do the texts of helpers. In either case the recipe asks for the
imports as well. So what it writes is covered by the imports of the whole program if what it
is answered is.

Results:

* `covered_function`, `covered_single`: the functions that rules call come with their imports.
* `imports_recipe`: what the recipe of any form writes is covered, and so is what it defines.
-/

namespace BlockScript.Python

open BlockScript.Number BlockScript.Text Recipe

/-! ## Requests and answers -/

/-- What has to be among the imports of a program ahead of a request. A definition that is
    no import has to be covered, and a helper needs all of its imports. -/
def Needs (stock : List String) : Request → Prop
  | .define key code => key = importKey ++ code ∨ CoveredText stock code
  | .helper _ template =>
    ∃ helper ∈ dialect.helpers, helper.template = template ∧ helper.imports ⊆ stock
  | _ => True

/-- What is known of an answer: a text is covered, and an import that was asked for is among
    the imports of the program. -/
def Supplies (stock : List String) : (request : Request) → request.Answer → Prop
  | .value .., code | .name .., code | .freshName .., code | .helper .., code =>
    Covered stock code
  | .body .., code => CoveredText stock code
  | .define key code, _ => key = importKey ++ code → code ∈ stock
  | .enclosingLoop, _ | .markContinue, _ | .loopContinued _, _ | .warn _, _ => True

/-- Whether what a recipe asks for and gives is covered by imports. -/
abbrev Imports {α : Type} (stock : List String) (P : α → Prop) (recipe : Recipe α) : Prop :=
  recipe.Meets (Needs stock) (Supplies stock) P

/-- Whether what a rule makes of a block is covered by imports. -/
def CoveredProduct (stock : List String) : Product → Prop
  | .nothing => True
  | .text code => CoveredText stock code
  | .value code _ => Covered stock code

variable {stock : List String} {α : Type}

/-! ## Texts around texts -/

section Around

variable {a b before after sign text : String}

/-- Fixed text that uses no name from a module. -/
theorem Covered.fixed (h : Covered [] text) : Covered stock text :=
  h.mono (List.nil_subset _)

theorem opensLoose_append (hne : a ≠ "") (h : opensLoose a = true) (b : String) :
    opensLoose (a ++ b) = true := by
  obtain ⟨c, cs, hchars⟩ := List.exists_cons_of_ne_nil
    fun hnil => hne (String.toList_eq_nil_iff.mp hnil)
  unfold opensLoose at h ⊢
  rw [String.toList_append, hchars]
  rwa [hchars] at h

theorem endsLoose_append (hne : b ≠ "") (h : endsLoose b = true) (a : String) :
    endsLoose (a ++ b) = true := by
  obtain ⟨cs, c, hchars⟩ := (List.eq_nil_or_concat' b.toList).resolve_left
    fun hnil => hne (String.toList_eq_nil_iff.mp hnil)
  unfold endsLoose at h ⊢
  rw [String.toList_append, hchars, ← List.append_assoc, List.getLast?_concat]
  rwa [hchars, List.getLast?_concat] at h

/-- Fixed text ahead that lets anything go on. -/
theorem Covered.lead (h : Covered stock text) (before : String) (hbefore : Covered [] before)
    (hends : endsLoose before = true) : Covered stock (before ++ text) :=
  hbefore.fixed.ahead hends h

/-- A text between two others that let anything go on. -/
theorem Covered.around (hbefore : Covered stock before) (hends : endsLoose before = true)
    (h : Covered stock text) (hafter : Covered stock after) (hopens : opensLoose after = true) :
    Covered stock (before ++ text ++ after) :=
  (hbefore.ahead hends h).behind hafter hopens

/-- Whether a text can stand between any two others: it lets anything go on at both its ends. -/
abbrev IsGlue (stock : List String) (sign : String) : Prop :=
  Covered stock sign ∧ sign ≠ "" ∧ opensLoose sign = true ∧ endsLoose sign = true

/-- Two texts with one between them that lets anything go on. -/
theorem Covered.joined (ha : Covered stock a) (hsign : IsGlue stock sign) (hb : Covered stock b) :
    Covered stock (a ++ sign ++ b) :=
  (ha.behind hsign.1 hsign.2.2.1).ahead (endsLoose_append hsign.2.1 hsign.2.2.2 a) hb

theorem Covered.joinedBy (ha : Covered stock a) (sign : String) (hsign : IsGlue [] sign)
    (hb : Covered stock b) : Covered stock (a ++ sign ++ b) :=
  ha.joined ⟨hsign.1.fixed, hsign.2⟩ hb

theorem Covered.comma (ha : Covered stock a) (hb : Covered stock b) :
    Covered stock (a ++ ", " ++ b) :=
  ha.joinedBy ", " (by decide) hb

/-- Two texts with a sign between them. -/
theorem Covered.between (ha : Covered stock a) (hsign : Covered [] (" " ++ sign ++ " "))
    (hb : Covered stock b) : Covered stock (a ++ " " ++ sign ++ " " ++ b) := by
  have hglue : IsGlue [] (" " ++ sign ++ " ") := by
    refine ⟨hsign, by simp, ?_, endsLoose_append (by decide) (by decide) _⟩
    rw [String.append_assoc]
    exact opensLoose_append (by decide) (by decide) _
  have hwhole := ha.joinedBy _ hglue hb
  rwa [← String.append_assoc, ← String.append_assoc] at hwhole

/-- Two arguments. -/
theorem Covered.aroundPair (hbefore : Covered stock before) (hends : endsLoose before = true)
    (ha : Covered stock a) (hb : Covered stock b) (hafter : Covered stock after)
    (hopens : opensLoose after = true) :
    Covered stock (before ++ a ++ ", " ++ b ++ after) := by
  have hwhole := hbefore.around hends (ha.comma hb) hafter hopens
  rwa [← String.append_assoc, ← String.append_assoc] at hwhole

theorem Covered.opening (ha : Covered stock a) :
    Covered stock (a ++ "(") ∧ endsLoose (a ++ "(") = true :=
  ⟨ha.behind (.fixed (by decide)) (by decide), endsLoose_append (by decide) (by decide) _⟩

/-- A call. -/
theorem Covered.call (ha : Covered stock a) (h : Covered stock text) :
    Covered stock (a ++ "(" ++ text ++ ")") :=
  ha.opening.1.around ha.opening.2 h (.fixed (by decide)) (by decide)

theorem Covered.callPair {name : String} (hname : Covered stock name) (ha : Covered stock a)
    (hb : Covered stock b) : Covered stock (name ++ "(" ++ a ++ ", " ++ b ++ ")") :=
  hname.opening.1.aroundPair hname.opening.2 ha hb (.fixed (by decide)) (by decide)

theorem Covered.ite {p : Prop} [Decidable p] (ha : Covered stock a) (hb : Covered stock b) :
    Covered stock (if p then a else b) := by
  split <;> assumption

theorem covered_joinWith {texts : List String} (h : ∀ text ∈ texts, Covered stock text) :
    Covered stock (joinWith ", " texts) := by
  induction texts with
  | nil => exact covered_empty
  | cons text texts ih =>
    obtain ⟨hfirst, hrest⟩ := List.forall_mem_cons.mp h
    cases texts with
    | nil => exact hfirst
    | cons next texts => exact hfirst.comma (ih hrest)

/-- Fixed text at the end of the line. -/
theorem Covered.endsLine (h : Covered stock text) (after : String) (hafter : Covered [] after)
    (hopens : opensLoose after = true) :
    CoveredText stock (text ++ (after ++ "\n")) := by
  rw [← String.append_assoc]
  exact (h.behind hafter.fixed hopens).wholeLine

end Around

/-! ## Requests -/

section Requests

variable {fallback : String}

theorem imports_value (socket : String) (tier : Tier) (strict : Bool) :
    Imports stock (Covered stock) (value socket tier strict) :=
  meets_ask trivial

theorem imports_valueOr (socket : String) (tier : Tier) (strict : Bool)
    (h : Covered [] fallback) :
    Imports stock (Covered stock) (valueOr socket tier strict fallback) := by
  refine (imports_value socket tier strict).bind fun code hcode => ?_
  show Covered stock (if code = "" then fallback else code)
  split
  · exact h.fixed
  · exact hcode

theorem imports_operand (socket : String) {position : Operand}
    (h : Covered [] position.fallback) :
    Imports stock (Covered stock) (operand socket position) :=
  imports_valueOr _ _ _ h

theorem imports_body (socket : String) : Imports stock (CoveredText stock) (body socket) :=
  meets_ask trivial

theorem imports_nameOf (kind : NameKind) (name : Json) :
    Imports stock (Covered stock) (nameOf kind name) := by
  cases name with
  | str name => exact meets_ask trivial
  | _ => trivial

theorem imports_freshName (kind : NameKind) (base : String) :
    Imports stock (Covered stock) (freshName kind base) :=
  meets_ask trivial

theorem imports_ofExcept (x : Except Failure α) :
    Imports stock (fun _ => True) (ofExcept x) :=
  meets_ofExcept fun _ _ => trivial

theorem imports_forEach {ι : Type} {f : ι → Recipe α} {P : α → Prop} (items : List ι)
    (h : ∀ item, Imports stock P (f item)) :
    Imports stock (fun results => ∀ result ∈ results, P result) (forEach f items) :=
  meets_forEach items h

/-- Imports that a recipe asks for are among those of the program. -/
theorem imports_importAll (statements : List String) :
    Imports stock (fun _ => statements ⊆ stock) (importAll statements) :=
  meets_importAll (P := (· ∈ stock)) statements (fun _ => .inl rfl) fun _ hreply => hreply rfl

theorem imports_helper {form : Helper} (hform : form ∈ dialect.helpers)
    (himports : form.imports ⊆ stock) :
    Imports stock (Covered stock) (helper form.key form.template) :=
  meets_ask ⟨form, hform, rfl, himports⟩

/-- The functions that rules call come with the imports for their names. -/
theorem covered_function : ∀ function ∈ dialect.callees.filterMap Callee.function?,
    Covered function.2 function.1 := by
  decide

theorem imports_calleeName {callee : Callee} (h : callee ∈ dialect.callees) :
    Imports stock (Covered stock) (calleeName callee) := by
  cases callee with
  | function name imports =>
    have hname : Covered imports name :=
      covered_function (name, imports) (List.mem_filterMap.mpr ⟨_, h, rfl⟩)
    exact (imports_importAll imports).bind fun _ himports => hname.mono himports
  | helper form =>
    exact (imports_importAll form.imports).bind fun _ himports =>
      imports_helper (Dialect.mem_helpers h) himports

end Requests

/-! ## Values -/

section Values

variable (block : Block Ref)

theorem imports_compare :
    Imports stock (CoveredProduct stock) (Recipe.compare dialect block) := by
  refine (imports_ofExcept _).bind fun op _ => ?_
  refine (imports_valueOr _ _ _ (by decide)).bind fun a ha => ?_
  refine (imports_valueOr _ _ _ (by decide)).bind fun b hb => ha.between ?_ hb
  cases op <;> decide

theorem imports_logic : Imports stock (CoveredProduct stock) (Recipe.logic dialect block) := by
  have htrue : Covered stock dialect.trueLiteral := .fixed (by decide)
  have hfalse : Covered stock dialect.falseLiteral := .fixed (by decide)
  refine (imports_ofExcept _).bind fun op _ => ?_
  refine (imports_value _ _ _).bind fun a ha => (imports_value _ _ _).bind fun b hb => ?_
  refine Covered.between (.ite (.ite hfalse ?_) ha) (by cases op <;> decide)
    (.ite (.ite hfalse ?_) hb)
  all_goals cases op <;> assumption

theorem imports_logicNot : Imports stock (CoveredProduct stock) (logicNot dialect) :=
  (imports_valueOr _ _ _ (by decide)).bind fun _ h => h.lead _ (by decide) (by decide)

theorem imports_truthValue : Imports stock (CoveredProduct stock) (truthValue dialect block) :=
  Covered.ite (b := dialect.falseLiteral) (.fixed (by decide)) (.fixed (by decide))

theorem imports_ternary : Imports stock (CoveredProduct stock) (ternary dialect) := by
  refine (imports_operand _ (by decide)).bind fun condition hcondition => ?_
  refine (imports_operand _ (by decide)).bind fun consequent hconsequent => ?_
  refine (imports_operand _ (by decide)).bind fun alternative halternative => ?_
  have hchosen : Covered stock (consequent ++ " if " ++ condition) :=
    hconsequent.joinedBy _ (by decide) hcondition
  exact hchosen.joinedBy " else " (by decide) halternative

theorem imports_number : Imports stock (CoveredProduct stock) (number dialect block) := by
  refine (imports_ofExcept _).bind fun d _ => ?_
  split
  · next code hcode => exact covered_of_isLiteral (literalOf?_shape hcode)
  · refine Covered.fixed (?_ : Covered [] (if d = .nan then dialect.notANumber
      else if d.isPositive then dialect.infinity else dialect.minusInfinity).text)
    split
    · decide
    · split <;> decide

theorem imports_arithmetic :
    Imports stock (CoveredProduct stock) (Recipe.arithmetic dialect block) := by
  refine (imports_ofExcept _).bind fun op _ => ?_
  refine (imports_valueOr _ _ _ (by decide)).bind fun a ha => ?_
  refine (imports_valueOr _ _ _ (by decide)).bind fun b hb => ha.between ?_ hb
  cases op <;> decide

theorem imports_modulo : Imports stock (CoveredProduct stock) (modulo dialect) := by
  refine (imports_valueOr _ _ _ (by decide)).bind fun a ha => ?_
  exact (imports_valueOr _ _ _ (by decide)).bind fun b hb => ha.between (by decide) hb

/-- The texts around the operands of functions use names of their imports. -/
theorem covered_single (op : SingleOp) :
    Covered (dialect.single op).imports (dialect.single op).before ∧
      endsLoose (dialect.single op).before = true ∧
      Covered (dialect.single op).imports (dialect.single op).after ∧
      opensLoose (dialect.single op).after = true := by
  cases op <;> decide

theorem imports_single : Imports stock (CoveredProduct stock) (Recipe.single dialect block) := by
  refine (imports_ofExcept _).bind fun op _ => ?_
  by_cases hneg : op = .neg
  · rw [if_pos hneg]
    refine (imports_valueOr _ _ _ (by decide)).bind fun code hcode => ?_
    show Covered stock ("-" ++ if startsNegative code then " " ++ code else code)
    refine Covered.lead ?_ _ (by decide) (by decide)
    split
    · exact hcode.lead _ (by decide) (by decide)
    · exact hcode
  · rw [if_neg hneg]
    refine (imports_valueOr _ _ _ (by decide)).bind fun code hcode => ?_
    refine (imports_importAll _).bind fun _ himports => ?_
    obtain ⟨hbefore, hends, hafter, hopens⟩ := covered_single op
    exact (hbefore.mono himports).around hends hcode (hafter.mono himports) hopens

theorem imports_constant :
    Imports stock (CoveredProduct stock) (Recipe.constant dialect block) := by
  refine (imports_ofExcept _).bind fun name _ => (imports_importAll _).bind fun _ himports => ?_
  have hname : Covered (dialect.constant name).imports (dialect.constant name).text := by
    cases name <;> decide
  exact hname.mono himports

theorem covered_plainTest (property : NumberProperty) :
    Covered [] (plainTest dialect property).before ∧
      endsLoose (plainTest dialect property).before = true ∧
      Covered [] (plainTest dialect property).after ∧
      opensLoose (plainTest dialect property).after = true := by
  cases property <;> decide

theorem imports_property : Imports stock (CoveredProduct stock) (property dialect block) := by
  refine (imports_ofExcept _).bind fun property _ => ?_
  split
  · refine (imports_valueOr _ _ _ (by decide)).bind fun number hnumber => ?_
    refine (imports_importAll _).bind fun _ himports => ?_
    have hform : dialect.primeHelper ∈ dialect.helpers := List.mem_cons_self
    exact (imports_helper hform himports).bind fun name hname => hname.call hnumber
  · refine (imports_valueOr _ _ _ (by decide)).bind fun number hnumber => ?_
    refine (imports_valueOr _ _ _ (by decide)).bind fun divisor hdivisor => ?_
    split
    · exact .fixed (by decide)
    · have hremainder : Covered stock (number ++ " % " ++ divisor) :=
        hnumber.joinedBy _ (by decide) hdivisor
      exact hremainder.behind (.fixed (by decide)) (by decide)
  · refine (imports_valueOr _ _ _ (by decide)).bind fun number hnumber => ?_
    obtain ⟨hbefore, hends, hafter, hopens⟩ := covered_plainTest property
    exact hbefore.fixed.around hends hnumber hafter.fixed hopens

theorem imports_onList : Imports stock (CoveredProduct stock) (Recipe.onList dialect block) := by
  refine (imports_ofExcept _).bind fun op _ => ?_
  refine (imports_valueOr _ _ _ (by decide)).bind fun items hitems => ?_
  exact (imports_calleeName (Dialect.onList_mem_callees op)).bind fun name hname =>
    hname.call hitems

theorem imports_constrain : Imports stock (CoveredProduct stock) (constrain dialect) := by
  refine (imports_valueOr _ _ _ (by decide)).bind fun number hnumber => ?_
  refine (imports_valueOr _ _ _ (by decide)).bind fun low hlow => ?_
  refine (imports_valueOr _ _ _ (by decide)).bind fun high hhigh => ?_
  have hmaximum : Covered stock dialect.maximum := .fixed (by decide)
  have hminimum : Covered stock dialect.minimum := .fixed (by decide)
  exact hminimum.callPair (hmaximum.callPair hnumber hlow) hhigh

theorem imports_randomInteger :
    Imports stock (CoveredProduct stock) (randomInteger dialect) := by
  refine (imports_importAll ["import random"]).bind fun _ himports => ?_
  refine (imports_valueOr _ _ _ (by decide)).bind fun low hlow => ?_
  refine (imports_valueOr _ _ _ (by decide)).bind fun high hhigh => ?_
  have hname : Covered stock "random.randint" := Covered.mono (by decide) himports
  exact hname.callPair hlow hhigh

theorem imports_randomFraction :
    Imports stock (CoveredProduct stock) (randomFraction dialect) := by
  refine (imports_importAll _).bind fun _ himports => ?_
  exact Covered.mono (by decide) himports

theorem imports_arcTangent : Imports stock (CoveredProduct stock) (arcTangent dialect) := by
  refine (imports_importAll _).bind fun _ himports => ?_
  refine (imports_valueOr _ _ _ (by decide)).bind fun x hx => ?_
  refine (imports_valueOr _ _ _ (by decide)).bind fun y hy => ?_
  have hbefore : Covered stock dialect.arcTangent.before := Covered.mono (by decide) himports
  have hafter : Covered stock dialect.arcTangent.after := Covered.mono (by decide) himports
  exact hbefore.aroundPair (by decide) hy hx hafter (by decide)

theorem imports_text : Imports stock (CoveredProduct stock) (text dialect block) :=
  covered_quote _

theorem covered_literal {times : Json} {code : Option String} (h : literal? times = .ok code) :
    Covered stock (code.getD "0") := by
  unfold literal? at h
  cases hnumber : doubleOf times with
  | error failure =>
    rw [hnumber] at h
    cases h
  | ok d =>
    rw [hnumber] at h
    cases h
    show Covered stock ((literalOf? d).getD "0")
    cases htext : literalOf? d with
    | none => exact .fixed (by decide)
    | some text => exact covered_of_isLiteral (literalOf?_shape htext)

theorem imports_repeatCount : Imports stock (Covered stock) (repeatCount block) := by
  unfold repeatCount
  split
  · exact (meets_ofExcept fun _ => covered_literal).bind fun _ hcode => hcode
  · exact imports_valueOr _ _ _ (by decide)

theorem covered_truncatedCount {count : String} (h : Covered stock count) :
    Covered stock (truncatedCount "int(" ")" count) := by
  unfold truncatedCount
  split
  · exact covered_of_isLiteral (isLiteral_toString _)
  · exact (h.lead "int(" (by decide) (by decide)).behind (.fixed (by decide)) (by decide)

theorem imports_variableValue : Imports stock (CoveredProduct stock) (variableValue block) :=
  (imports_nameOf _ _).bind fun _ hname => hname

end Values

/-! ## Statements -/

section Statements

variable {scene : Scene} (ref : Ref) (block : Block Ref)

theorem imports_nameStatement {before : String} (hname : Covered stock before) {value : String}
    (hvalue : Covered stock value) :
    CoveredText stock (dialect.statement (before ++ " = " ++ value)) :=
  (hname.joinedBy " = " (by decide) hvalue).wholeLine

theorem imports_variableAssignment :
    Imports stock (CoveredProduct stock) (variableAssignment dialect block) :=
  (imports_valueOr _ _ _ (by decide)).bind fun _ hvalue =>
    (imports_nameOf _ _).bind fun _ hname => imports_nameStatement hname hvalue

/-- The type of a number is looked up in a module. -/
theorem imports_change : Imports stock (CoveredProduct stock) (change dialect block) := by
  refine (imports_importAll _).bind fun _ himports => ?_
  refine (imports_operand _ (by decide)).bind fun summand hsummand => ?_
  refine (imports_nameOf _ _).bind fun name hname => ?_
  have htest : IsGlue dialect.changeImports ", Number) else 0) + " := by decide
  have hfirst : Covered stock (name ++ " = (" ++ name) :=
    hname.joinedBy _ (by decide) hname
  have hsecond : Covered stock (name ++ " = (" ++ name ++ " if isinstance(" ++ name) :=
    hfirst.joinedBy _ (by decide) hname
  exact (hsecond.joined ⟨htest.1.mono himports, htest.2⟩ hsummand).wholeLine

/-- A header with one text in it. -/
theorem coveredText_header {code : String} (before : String) (hbefore : Covered [] before)
    (hends : endsLoose before = true) (hcode : Covered stock code) :
    CoveredText stock (before ++ code ++ (":" ++ "\n")) :=
  (hcode.lead before hbefore hends).endsLine ":" (by decide) (by decide)

variable (h : scene.OnlyComments) (hdialect : scene.dialect = dialect)
include h hdialect

theorem coveredText_statement {code : String} (hcode : Covered stock code) :
    CoveredText stock (scene.indent ++ scene.dialect.statement code) := by
  rw [hdialect]
  exact hcode.indentedLine h.indent

theorem coveredText_returned {result : String} (hresult : Covered stock result) :
    CoveredText stock (returnStatement scene result) :=
  coveredText_statement h hdialect
    (hresult.lead "return " (by decide) (by decide))

theorem coveredText_filled {body : String} (hbody : CoveredText stock body) :
    CoveredText stock (scene.filled body) := by
  unfold Scene.filled
  split
  · exact hbody
  · next filler hfiller =>
    rw [hdialect] at hfiller
    cases hfiller
    split
    · exact coveredText_statement h hdialect (.fixed (by decide))
    · exact hbody

theorem imports_arm (number : Nat) :
    Imports stock (CoveredText stock) (arm scene block number) := by
  unfold arm
  rw [h.closing_eq, hdialect]
  refine (imports_valueOr _ _ _ (by decide)).bind fun condition hcondition => ?_
  refine (imports_body _).bind fun statements hstatements => ?_
  refine CoveredText.append ?_ (coveredText_filled h hdialect (by rwa [String.empty_append]))
  split
  · exact coveredText_header "if " (by decide) (by decide) hcondition
  · exact coveredText_header "elif " (by decide) (by decide) hcondition

theorem imports_otherwise : Imports stock (CoveredText stock) (otherwise scene block) := by
  unfold otherwise
  rw [h.closing_eq, hdialect]
  split
  · refine (imports_body _).bind fun statements hstatements => ?_
    have hline : Covered stock "else:" := .fixed (by decide)
    have helse : CoveredText stock dialect.elseHeader := hline.wholeLine
    exact helse.append (coveredText_filled h hdialect (by rwa [String.empty_append]))
  · exact coveredText_empty

theorem imports_conditional :
    Imports stock (CoveredProduct stock) (Recipe.conditional scene block) := by
  unfold Recipe.conditional
  rw [h.startHook_eq, hdialect]
  refine (imports_forEach _ (imports_arm block h hdialect)).bind fun arms harms => ?_
  refine (imports_otherwise block h hdialect).bind fun last hlast => ?_
  have hwhole := ((coveredText_empty.append (coveredText_concat harms)).append hlast).append
    coveredText_empty
  exact hwhole

omit hdialect in
/-- Without a trap and hooks the body of a loop stays as it is. -/
theorem eq_of_addLoopTrap {statements trapped : String}
    (hrun : scene.addLoopTrap statements block = .ok trapped) : statements = trapped := by
  unfold Scene.addLoopTrap at hrun
  cases hrule : scene.rules.lookup block.type with
  | error failure =>
    rw [hrule] at hrun
    cases hrun
  | ok rule =>
    rw [hrule] at hrun
    simpa [h.trapped_eq] using Except.ok.inj hrun

theorem imports_loopStatements :
    Imports stock (CoveredText stock) (loopStatements scene ref block) := by
  unfold loopStatements
  refine Meets.bind (P := CoveredText stock) (meets_ask trivial) fun statements hstatements => ?_
  have htrap : ∀ trapped, scene.addLoopTrap statements block = .ok trapped →
      CoveredText stock trapped := fun trapped htrapped =>
    eq_of_addLoopTrap block h htrapped ▸ hstatements
  refine (meets_ofExcept htrap).bind fun trapped htrapped => ?_
  rw [hdialect]
  exact coveredText_filled h hdialect htrapped

theorem imports_whileLoop :
    Imports stock (CoveredProduct stock) (whileLoop scene ref block) := by
  have hloop : ∀ condition, Covered stock condition →
      Imports stock (CoveredProduct stock) (loopStatements scene ref block >>= fun statements =>
        (pure (Product.text (dialect.whileHeader condition ++ statements ++ dialect.blockEnd)) :
          Recipe Product)) := by
    intro condition hcondition
    refine (imports_loopStatements ref block h hdialect).bind fun statements hstatements => ?_
    have hheader : CoveredText stock (dialect.whileHeader condition) :=
      coveredText_header "while " (by decide) (by decide) hcondition
    exact (hheader.append hstatements).append coveredText_empty
  unfold whileLoop
  rw [hdialect]
  refine (imports_ofExcept _).bind fun mode _ => ?_
  cases mode with
  | «until» =>
    refine (imports_valueOr _ _ _ (by decide)).bind fun condition hcondition => ?_
    exact hloop _ (hcondition.lead _ (by decide) (by decide))
  | «while» => exact (imports_valueOr _ _ _ (by decide)).bind hloop

theorem imports_repeatLoop :
    Imports stock (CoveredProduct stock) (repeatLoop scene ref block) := by
  unfold repeatLoop
  rw [hdialect]
  refine (imports_repeatCount block).bind fun count hcount => ?_
  refine (imports_loopStatements ref block h hdialect).bind fun statements hstatements => ?_
  refine (imports_freshName _ _).bind fun counter hcounter => ?_
  have hname : Covered stock ("for " ++ counter) :=
    hcounter.lead _ (by decide) (by decide)
  have hrange : Covered stock ("for " ++ counter ++ " in range(" ++
      truncatedCount "int(" ")" count) :=
    hname.joinedBy _ (by decide) (covered_truncatedCount hcount)
  have hheader : CoveredText stock
      (dialect.repeatHeader counter (truncatedCount "int(" ")" count)) :=
    hrange.endsLine "):" (by decide) (by decide)
  exact (hheader.append hstatements).append coveredText_empty

theorem imports_flow : Imports stock (CoveredProduct stock) (flow scene block) := by
  have hreopened : ∀ loop, reopened scene loop = .ok "" := fun loop => by
    rw [reopened, if_pos h.statementStart]
  unfold flow
  rw [h.startHook_eq, h.endHook_eq, hdialect]
  refine (imports_ofExcept _).bind fun jump _ => ?_
  have hnone : (jump = .continue && dialect.continueLabel.isSome) = false := by
    cases jump <;> rfl
  rw [hnone]
  refine Meets.bind (P := fun _ => True) (meets_ask trivial) fun loop _ => ?_
  have hwhole : ∀ {code}, Covered stock code →
      CoveredText stock ("" ++ "" ++ "" ++ dialect.statement code) := fun hcode =>
    ((coveredText_empty.append coveredText_empty).append coveredText_empty).append hcode.wholeLine
  cases loop with
  | none =>
    refine Meets.bind (P := fun _ => True) (meets_ask trivial) fun _ _ => hwhole ?_
    cases jump <;> exact .fixed (by decide)
  | some loop =>
    dsimp only
    rw [hreopened]
    refine hwhole ?_
    cases jump <;> exact .fixed (by decide)

theorem imports_outerDeclaration :
    Imports stock (CoveredText stock) (outerDeclaration scene ref block) := by
  unfold outerDeclaration
  rw [hdialect]
  refine (imports_ofExcept _).bind fun known _ => ?_
  refine (imports_forEach _ fun _ => imports_nameOf _ _).bind fun named hnamed => ?_
  refine (imports_forEach _ fun _ => imports_nameOf _ _).bind fun developer hdeveloper => ?_
  split
  · exact coveredText_empty
  · next hnames =>
    have hall : Covered stock (joinWith ", " (named ++ developer)) :=
      covered_joinWith (List.forall_mem_append.mpr ⟨hnamed, hdeveloper⟩)
    exact (hall.lead "global " (by decide) (by decide)).indentedLine h.indent

/-- The definition of a procedure is covered if the comments above it are. -/
theorem imports_procedureDefinition (hcomments : CoveredText stock (scene.commentLines ref)) :
    Imports stock (CoveredProduct stock) (procedureDefinition scene ref block) := by
  unfold procedureDefinition
  rw [h.hooks_eq, h.trap_eq, hdialect]
  refine (imports_nameOf _ _).bind fun name hname => ?_
  refine (imports_outerDeclaration ref block h hdialect).bind fun outer houter => ?_
  refine (imports_body _).bind fun statements hstatements => ?_
  refine (imports_value _ _ _).bind fun result hresult => ?_
  refine (imports_ofExcept _).bind fun listed _ => ?_
  refine (imports_forEach _ fun _ => imports_nameOf _ _).bind fun args hargs => ?_
  refine Meets.bind (P := fun _ => True) ⟨.inr (hcomments.append ?_), fun _ _ => trivial⟩
    fun _ _ => trivial
  have hdef : Covered stock ("def " ++ name ++ "(" ++ joinWith ", " args) :=
    (hname.lead "def " (by decide) (by decide)).joinedBy _ (by decide) (covered_joinWith hargs)
  have hheader : CoveredText stock (dialect.procedureHeader name (joinWith ", " args)) :=
    hdef.endsLine "):" (by decide) (by decide)
  have hbody : ∀ alone : Bool, CoveredText stock
      (if alone then scene.filled statements else statements) := by
    intro alone
    cases alone with
    | true => exact coveredText_filled h hdialect hstatements
    | false => exact hstatements
  have hlast : CoveredText stock (if result = "" then "" else returnStatement scene result) := by
    split
    · exact coveredText_empty
    · exact coveredText_returned h hdialect hresult
  simp only [String.append_empty, ite_self]
  exact (((hheader.append houter).append (hbody _)).append hlast).append coveredText_empty

omit h in
theorem imports_call : Imports stock (Covered stock) (call scene block) := by
  unfold call
  rw [hdialect]
  refine (imports_nameOf _ _).bind fun name hname => (imports_ofExcept _).bind fun listed _ => ?_
  exact (imports_forEach _ fun _ => imports_valueOr _ _ _ (by decide)).bind fun args hargs =>
    hname.call (covered_joinWith hargs)

theorem imports_conditionalReturn :
    Imports stock (CoveredProduct stock) (conditionalReturn scene block) := by
  unfold conditionalReturn
  rw [h.closing_eq, hdialect]
  refine (imports_valueOr _ _ _ (by decide)).bind fun condition hcondition => ?_
  have hheader : CoveredText stock (dialect.ifHeader condition) :=
    coveredText_header "if " (by decide) (by decide) hcondition
  have hwhole : ∀ {last}, CoveredText stock last →
      CoveredText stock (dialect.ifHeader condition ++ "" ++ last ++ dialect.blockEnd) :=
    fun hlast => ((hheader.append coveredText_empty).append hlast).append coveredText_empty
  split
  · refine (imports_valueOr _ _ _ (by decide)).bind fun result hresult => ?_
    exact hwhole (coveredText_returned h hdialect hresult)
  · exact hwhole (hdialect ▸ coveredText_statement h hdialect (.fixed (by decide)))

omit h in
theorem imports_procedureCallStatement :
    Imports stock (CoveredProduct stock) (procedureCallStatement scene block) :=
  (imports_call block hdialect).bind fun _ hcode => hdialect ▸ hcode.wholeLine

end Statements

/-- What a rule makes of a block is covered by the imports of the program, and so is what it
    defines. -/
theorem imports_recipe {scene : Scene} (h : scene.OnlyComments) (hdialect : scene.dialect = dialect)
    (ref : Ref) (block : Block Ref) (hcomments : CoveredText stock (scene.commentLines ref))
    (form : BlockForm) : Imports stock (CoveredProduct stock) (form.recipe scene ref block) := by
  obtain ⟨spoken, config, rules, workspace⟩ := scene
  obtain rfl : spoken = dialect := hdialect
  cases form with
  | conditional => exact imports_conditional block h rfl
  | whileLoop => exact imports_whileLoop ref block h rfl
  | repeatLoop => exact imports_repeatLoop ref block h rfl
  | flow => exact imports_flow block h rfl
  | compare => exact imports_compare block
  | logic => exact imports_logic block
  | logicNot => exact imports_logicNot
  | truthValue => exact imports_truthValue block
  | nullValue => exact (Covered.fixed (by decide) : Covered stock "None")
  | ternary => exact imports_ternary
  | number => exact imports_number block
  | arithmetic => exact imports_arithmetic block
  | modulo => exact imports_modulo
  | single => exact imports_single block
  | constant => exact imports_constant block
  | property => exact imports_property block
  | change => exact imports_change block
  | onList => exact imports_onList block
  | constrain => exact imports_constrain
  | randomInteger => exact imports_randomInteger
  | randomFraction => exact imports_randomFraction
  | arcTangent => exact imports_arcTangent
  | text => exact imports_text block
  | variableValue => exact imports_variableValue block
  | variableAssignment => exact imports_variableAssignment block
  | procedureDefinition => exact imports_procedureDefinition ref block h rfl hcomments
  | procedureCall => exact (imports_call block rfl).bind fun _ hcode => hcode
  | procedureCallStatement => exact imports_procedureCallStatement block rfl
  | conditionalReturn => exact imports_conditionalReturn block h rfl

end BlockScript.Python
