import BlockScript.Proofs.Expression.Faithful
import BlockScript.Proofs.Recipe.Gives

/-!
# The rules of values

In a faithful dialect every rule for a value gives the text of the tree that its
block denotes, provided that its sockets are answered with the texts of their
trees, and its names with identifiers of the program.

Results:

* `gives_valueOr`: a socket with a fallback is an operand.
* one lemma for every rule, such as `gives_compare`.
-/

namespace BlockScript

open BlockScript.Number BlockScript.Reading BlockScript.Text

namespace Scene

variable (scene : Scene) (g : Grammar) (allowed : String → Bool) (final : PassState)
  (one : Ref → Option Expr) (block : Block Ref)

/-- Whether a text is that of a value socket: none if the socket is empty, and
    else an operand with the tree of what is plugged in. -/
def SocketText (socket : String) (tier : Tier) (strict : Bool) (code : String) : Prop :=
  match scene.plugged block socket with
  | none => code = ""
  | some target => ∃ tree, one target = some tree ∧ Fills g allowed tier strict code tree

/-- Whether an answer is right with regard to the trees of what is plugged in and
    the identifiers of a final state. -/
def SoundAnswer : (request : Request) → request.Answer → Prop
  | .value socket tier strict, code => scene.SocketText g allowed one block socket tier strict code
  | .name kind name, text => final.identifier? scene.dialect.policy kind name = some text ∧
      ∃ word, text = scene.dialect.policy.sign kind ++ word ∧ scene.dialect.policy.Fits kind word
  | .helper key _, name => final.helperName? key = some name ∧
      scene.dialect.policy.Fits .procedure name
  | _, _ => True

end Scene

/-- Whether a product is the text of an expression with a certain tree. -/
def Product.IsText (g : Grammar) (allowed : String → Bool) (tree? : Option Expr)
    (product : Product) : Prop :=
  ∃ code tier tree, product = .value code tier ∧ tree? = some tree ∧
    Renders g allowed code tier tree

variable {scene : Scene} {g : Grammar} {allowed : String → Bool} {final : PassState}
  {one : Ref → Option Expr} {block : Block Ref} {book : PhraseBook} {tier : Tier} {strict : Bool}

/-! ## Operands -/

theorem Scene.SocketText.eq_empty_iff {socket code : String}
    (h : scene.SocketText g allowed one block socket tier strict code) :
    code = "" ↔ scene.plugged block socket = none := by
  unfold Scene.SocketText at h
  split at h
  · next hnone => simp [h, hnone]
  · next target hsome =>
    obtain ⟨tree, -, hfills⟩ := h
    simp [hfills.ne_empty, hsome]

/-- A socket with a fallback as an operand. -/
theorem Scene.SocketText.withFallback {socket code fallback : String} {fallbackTree : Expr}
    (h : scene.SocketText g allowed one block socket tier strict code)
    (hfallback : scene.plugged block socket = none →
      Fills g allowed tier strict fallback fallbackTree) :
    ∃ tree, scene.operandTree one block socket fallbackTree = some tree ∧
      Fills g allowed tier strict (if code = "" then fallback else code) tree := by
  have hempty := h.eq_empty_iff
  unfold Scene.SocketText at h
  unfold Scene.operandTree
  cases hplugged : scene.plugged block socket with
  | none => exact ⟨fallbackTree, rfl, by rw [if_pos (hempty.mpr hplugged)]; exact hfallback hplugged⟩
  | some target =>
    simp only [hplugged] at h
    obtain ⟨tree, htree, hfills⟩ := h
    exact ⟨tree, htree, by rw [if_neg hfills.ne_empty]; exact hfills⟩

namespace Recipe

/-- The text of a value socket. -/
theorem gives_value (socket : String) (tier : Tier) (strict : Bool) :
    (value socket tier strict).Gives (scene.SoundAnswer g allowed final one block)
      (scene.SocketText g allowed one block socket tier strict) :=
  fun _ h => h

/-- A socket with a fallback is an operand. -/
theorem gives_valueOr {socket fallback : String} {fallbackTree : Expr}
    (h : Fills g allowed tier strict fallback fallbackTree) :
    (valueOr socket tier strict fallback).Gives (scene.SoundAnswer g allowed final one block)
      fun code => ∃ tree, scene.operandTree one block socket fallbackTree = some tree ∧
        Fills g allowed tier strict code tree :=
  (gives_value socket tier strict).bind fun _ hcode => hcode.withFallback fun _ => h

/-- An identifier of the program. -/
theorem gives_nameOf (kind : NameKind) (name : Json) :
    (nameOf kind name).Gives (scene.SoundAnswer g allowed final one block) fun text =>
      ∃ content, name = .str content ∧
        final.identifier? scene.dialect.policy kind content = some text ∧
        ∃ word, text = scene.dialect.policy.sign kind ++ word ∧
          scene.dialect.policy.Fits kind word := by
  cases name with
  | str content => exact fun text h => ⟨content, rfl, h⟩
  | _ => trivial

/-- A result that needs no request. -/
theorem gives_result {α : Type} (x : Except Failure α)
    {sound : (request : Request) → request.Answer → Prop} :
    (ofExcept x).Gives sound fun result => x.toOption = some result :=
  gives_ofExcept fun result h => by rw [h]; rfl

end Recipe

/-- Whether a recipe gives the text of the tree of a block of a form, if its
    requests are answered soundly. -/
def Scene.FormGives (scene : Scene) (g : Grammar) (allowed : String → Bool) (book : PhraseBook)
    (final : PassState) (one : Ref → Option Expr) (block : Block Ref) (form : BlockForm)
    (recipe : Recipe Product) : Prop :=
  recipe.Gives (scene.SoundAnswer g allowed final one block)
    (Product.IsText g allowed (scene.formTree book final one block form))

/-- Whether blocks of a form are expressions. -/
def BlockForm.isValue : BlockForm → Bool
  | .conditional | .whileLoop | .repeatLoop | .flow | .change | .variableAssignment
  | .procedureDefinition | .procedureCallStatement | .conditionalReturn => false
  | _ => true

namespace Dialect.Faithful

open BlockScript.Recipe

variable (h : scene.dialect.Faithful g allowed book)
include h

attribute [local simp] Scene.formTree

/-! ## Comparisons and logic -/

theorem gives_compare : scene.FormGives g allowed book final one block .compare
    (Recipe.compare scene.dialect block) := by
  refine (gives_result _).bind fun op hop => ?_
  refine (gives_valueOr (h.fills_zero _ _)).bind fun a ⟨ta, hta, hfa⟩ => ?_
  refine (gives_valueOr (h.fills_zero _ _)).bind fun b ⟨tb, htb, hfb⟩ => ?_
  refine ⟨_, _, _, rfl, ?_, renders_of_entry (h.compare op) ?_ (.cons hfa (.cons hfb .nil))⟩
  · simp [hop, hta, htb]
  · simp [infixParts, Part.chars]

/-- What stands for a missing side of a conjunction or disjunction. -/
theorem fills_missingSide (op : LogicOp) {a b : String} {tier' : Tier} {strict' : Bool}
    (ha : scene.SocketText g allowed one block "A" tier strict a)
    (hb : scene.SocketText g allowed one block "B" tier strict b) :
    Fills g allowed tier' strict'
      (if a = "" && b = "" then scene.dialect.falseLiteral
        else match op with
          | .and => scene.dialect.trueLiteral
          | .or => scene.dialect.falseLiteral)
      (scene.missingSide book op block) := by
  have hempty : (a = "" && b = "") =
      ((scene.plugged block "A").isNone && (scene.plugged block "B").isNone) := by
    rw [Bool.eq_iff_iff]
    simp [ha.eq_empty_iff, hb.eq_empty_iff]
  have htruth := fun b => h.fills_atomic (h.renders_truth b) tier' strict'
  unfold Scene.missingSide
  rw [hempty]
  cases ((scene.plugged block "A").isNone && (scene.plugged block "B").isNone) with
  | true => exact htruth false
  | false =>
    cases op with
    | and => exact htruth true
    | or => exact htruth false

theorem gives_logic : scene.FormGives g allowed book final one block .logic
    (Recipe.logic scene.dialect block) := by
  refine (gives_result _).bind fun op hop => ?_
  refine (gives_value _ _ _).bind fun a ha => ?_
  refine (gives_value _ _ _).bind fun b hb => ?_
  obtain ⟨ta, hta, hfa⟩ := ha.withFallback fun _ => h.fills_missingSide op ha hb
  obtain ⟨tb, htb, hfb⟩ := hb.withFallback fun _ => h.fills_missingSide op ha hb
  refine ⟨_, _, _, rfl, ?_, renders_of_entry (h.logic op) ?_ (.cons hfa (.cons hfb .nil))⟩
  · simp [hop, hta, htb]
  · cases op <;> simp [infixParts, Part.chars]

theorem gives_logicNot : scene.FormGives g allowed book final one block .logicNot
    (Recipe.logicNot scene.dialect) := by
  have htrue := h.fills_atomic (h.renders_truth true) scene.dialect.logicNot.tier false
  refine (gives_valueOr htrue).bind fun code ⟨tree, htree, hfills⟩ => ?_
  exact ⟨_, _, _, rfl, by simp [htree], h.logicNot hfills⟩

theorem gives_truthValue : scene.FormGives g allowed book final one block .truthValue
    (Recipe.truthValue scene.dialect block) := by
  have htruth := h.renders_truth (block.textField? "BOOL" = some "TRUE")
  simp only [decide_eq_true_eq] at htruth
  exact ⟨_, _, _, rfl, rfl, htruth⟩

theorem gives_nullValue : scene.FormGives g allowed book final one block .nullValue
    (Recipe.nullValue scene.dialect) :=
  ⟨_, _, _, rfl, rfl, h.renders_null⟩

/-- An operand of a choice. -/
theorem gives_operand {socket : String} {position : Operand} {code : String} {tree : Expr}
    (hfallback : position.fallback = code) (hcode : Renders g allowed code .atomic tree) :
    (operand socket position).Gives (scene.SoundAnswer g allowed final one block) fun code =>
      ∃ plugged, scene.operandTree one block socket tree = some plugged ∧
        Fills g allowed position.tier position.strict code plugged :=
  gives_valueOr (hfallback ▸ h.fills_atomic hcode _ _)

theorem gives_ternary : scene.FormGives g allowed book final one block .ternary
    (Recipe.ternary scene.dialect) := by
  obtain ⟨parts, hlayout, hentry⟩ := h.ternary
  have hfalse := h.renders_truth false
  refine (h.gives_operand h.condition hfalse).bind fun c ⟨tc, htc, hfc⟩ => ?_
  refine (h.gives_operand h.consequent h.renders_null).bind fun a ⟨ta, hta, hfa⟩ => ?_
  refine (h.gives_operand h.alternative h.renders_null).bind fun b ⟨tb, htb, hfb⟩ => ?_
  refine ⟨_, _, _, rfl, ?_, renders_of_entry hentry (hlayout c a b)
    (.cons hfc (.cons hfa (.cons hfb .nil)))⟩
  simp [htc, hta, htb]

/-! ## Numbers and their operators -/

omit h in
theorem numberTree_of_positive {d : Double} {code : String} (hcode : literalOf? d = some code)
    (hhead : code.toList.head? ≠ some '-') : book.numberTree d = .number code := by
  unfold PhraseBook.numberTree
  rw [hcode]
  dsimp only
  split
  · next hlist =>
    rw [hlist] at hhead
    exact absurd rfl hhead
  · rfl

omit h in
theorem numberTree_of_negative {d : Double} {code : String} {digits : List Char}
    (hcode : literalOf? d = some code) (hlist : code.toList = '-' :: digits) :
    book.numberTree d = .unary book.minus (.number (String.ofList digits)) := by
  unfold PhraseBook.numberTree
  rw [hcode]
  simp [hlist]

omit h in
theorem head?_ne_minus {cs : List Char} (h : Numeral cs) : cs.head? ≠ some '-' := by
  obtain ⟨c, cs, rfl⟩ := List.exists_cons_of_ne_nil h.ne_nil
  simp only [List.head?_cons, ne_eq, Option.some.injEq]
  rintro rfl
  exact absurd h.head_isDigit (by decide)

/-- The literal of a number. -/
theorem renders_literal {d : Double} {code : String} (hcode : literalOf? d = some code) :
    Renders g allowed code (if startsNegative code then scene.dialect.negation.tier else .atomic)
      (book.numberTree d) := by
  rcases literalOf?_shape hcode with hnumeral | ⟨digits, hlist, hnumeral⟩
  · have hhead := head?_ne_minus hnumeral
    have hpositive : startsNegative code = false := by simpa [startsNegative] using hhead
    rw [numberTree_of_positive hcode hhead, hpositive]
    exact ⟨reads_numeral hnumeral, fun hzero => ⟨by simpa [Expr.zero] using hzero, rfl⟩⟩
  · have hnegative : startsNegative code = true := by simp [startsNegative, hlist]
    have hdigits : Reads g allowed (g.position scene.dialect.negation.tier false)
        (String.ofList digits) (.number (String.ofList digits)) :=
      reads_numeral (by simpa using hnumeral)
    have hcode' : code = "-" ++ String.ofList digits := by
      rw [← String.toList_inj, hlist]
      simp
    rw [numberTree_of_negative hcode hlist, hnegative, h.minus, hcode']
    refine ⟨hdigits.minus h.readsMinus ?_, fun hzero => by cases hzero⟩
    simpa using head?_ne_minus hnumeral

theorem gives_number : scene.FormGives g allowed book final one block .number
    (Recipe.number scene.dialect block) := by
  refine (gives_result _).bind fun d hd => ?_
  have htree : scene.formTree book final one block .number = some (book.numberTree d) := by
    simp [hd]
  cases hliteral : literalOf? d with
  | some code => exact ⟨_, _, _, rfl, htree, h.renders_literal hliteral⟩
  | none =>
    refine ⟨_, _, _, rfl, htree, ?_⟩
    unfold PhraseBook.numberTree
    rw [hliteral]
    dsimp only
    split
    · exact renders_fixed h.notANumber
    · split
      · exact renders_fixed h.infinity
      · exact renders_fixed h.minusInfinity

theorem gives_arithmetic : scene.FormGives g allowed book final one block .arithmetic
    (Recipe.arithmetic scene.dialect block) := by
  refine (gives_result _).bind fun op hop => ?_
  refine (gives_valueOr (h.fills_zero _ _)).bind fun a ⟨ta, hta, hfa⟩ => ?_
  refine (gives_valueOr (h.fills_zero _ _)).bind fun b ⟨tb, htb, hfb⟩ => ?_
  refine ⟨_, _, _, rfl, ?_, renders_of_entry (h.arithmetic op) ?_ (.cons hfa (.cons hfb .nil))⟩
  · simp [hop, hta, htb]
  · simp [infixParts, Part.chars]

theorem gives_modulo : scene.FormGives g allowed book final one block .modulo
    (Recipe.modulo scene.dialect) := by
  refine (gives_valueOr (h.fills_zero _ _)).bind fun a ⟨ta, hta, hfa⟩ => ?_
  refine (gives_valueOr (h.fills_zero _ _)).bind fun b ⟨tb, htb, hfb⟩ => ?_
  refine ⟨_, _, _, rfl, ?_, renders_of_entry h.modulo ?_ (.cons hfa (.cons hfb .nil))⟩
  · simp [hta, htb]
  · simp [infixParts, Part.chars]

/-- The negation of an operand. -/
theorem renders_negated {code : String} {tree : Expr}
    (hfills : Fills g allowed scene.dialect.negation.tier false code tree) :
    Renders g allowed (negated scene.dialect code).text (negated scene.dialect code).tier
      (.unary "-" tree) := by
  simpa [negated, h.negation, startsNegative] using hfills.negated h.readsMinus

theorem gives_single : scene.FormGives g allowed book final one block .single
    (Recipe.single scene.dialect block) := by
  refine (gives_result _).bind fun op hop => ?_
  by_cases hneg : op = .neg
  · subst hneg
    refine (gives_valueOr (h.fills_zero _ _)).bind fun code ⟨tree, htree, hfills⟩ => ?_
    refine ⟨_, _, _, rfl, ?_, h.renders_negated hfills⟩
    simp [hop, htree, h.negative, Phrase.filled, Phrase.tree]
  · rw [if_neg hneg]
    refine (gives_valueOr (h.fills_zero _ _)).bind fun code ⟨tree, htree, hfills⟩ => ?_
    refine (gives_importAll _).bind fun _ _ => ?_
    refine ⟨_, _, _, rfl, ?_, renders_of_entry (h.single op hneg) ?_ (.cons hfills .nil)⟩
    · simp [hop, htree]
    · simp [aroundParts, Part.chars]

theorem gives_constant : scene.FormGives g allowed book final one block .constant
    (Recipe.constant scene.dialect block) := by
  refine (gives_result _).bind fun name hname => ?_
  refine (gives_importAll _).bind fun _ _ => ?_
  exact ⟨_, _, _, rfl, by simp [hname], renders_fixed (h.constant name)⟩

theorem gives_randomFraction : scene.FormGives g allowed book final one block .randomFraction
    (Recipe.randomFraction scene.dialect) := by
  refine (gives_importAll _).bind fun _ _ => ?_
  exact ⟨_, _, _, rfl, rfl, renders_fixed h.randomFraction⟩

theorem gives_arcTangent : scene.FormGives g allowed book final one block .arcTangent
    (Recipe.arcTangent scene.dialect) := by
  refine (gives_importAll _).bind fun _ _ => ?_
  refine (gives_valueOr (h.fills_zero _ _)).bind fun x ⟨tx, htx, hfx⟩ => ?_
  refine (gives_valueOr (h.fills_zero _ _)).bind fun y ⟨ty, hty, hfy⟩ => ?_
  refine ⟨_, _, _, rfl, ?_, renders_of_entry h.arcTangent ?_ (.cons hfy (.cons hfx .nil))⟩
  · simp [htx, hty]
  · simp [Part.chars]

theorem gives_constrain : scene.FormGives g allowed book final one block .constrain
    (Recipe.constrain scene.dialect) := by
  refine (gives_valueOr (h.fills_zero _ _)).bind fun number ⟨tn, htn, hfn⟩ => ?_
  refine (gives_valueOr h.low).bind fun low ⟨tl, htl, hfl⟩ => ?_
  refine (gives_valueOr (fills_fixed h.high)).bind fun high ⟨th, hth, hfh⟩ => ?_
  refine ⟨_, _, _, rfl, ?_, renders_of_entry h.constrain ?_
    (.cons hfn (.cons hfl (.cons hfh .nil)))⟩
  · simp [htn, htl, hth]
  · simp [Part.chars]

/-! ## Functions and tests -/

omit h in
theorem treeList_holes (trees : List Expr) :
    Phrase.treeList (fun i => trees.getD i .emptyList)
      ((List.range trees.length).map Phrase.hole) = trees := by
  have hlist : ∀ (holes : List Nat) (f : Nat → Expr),
      Phrase.treeList f (holes.map Phrase.hole) = holes.map f := by
    intro holes f
    induction holes with
    | nil => rfl
    | cons i holes ih => simp [Phrase.treeList, Phrase.tree, ih]
  rw [hlist]
  refine List.ext_getElem (by simp) fun i hi hi' => ?_
  simp [hi']

omit h in
/-- The characters of the arguments of a call and what closes them. -/
theorem chars_argParts (texts : Nat → String) (i : Nat) (rest : List Nat) :
    (argParts (i :: rest)).flatMap (Part.chars texts) =
      (joinWith ", " ((i :: rest).map texts)).toList ++ [')'] := by
  induction rest generalizing i with
  | nil => simp [argParts, Part.chars, joinWith]
  | cons j rest ih =>
    simp only [argParts, List.flatMap_cons, ih, List.map_cons, joinWith]
    simp [Part.chars]

/-- Whether calls by a name are calls of a function of the phrase book. -/
def CallsAs (g : Grammar) (allowed : String → Bool) (final : PassState) (tier : Tier) (count : Nat)
    (function : PhraseFunction) (name : String) : Prop :=
  ∀ codes trees, codes.length = count → List.Forall₂ (Fills g allowed .none false) codes trees →
    ∃ callee, final.callee? function = some callee ∧
      Renders g allowed (name ++ "(" ++ joinWith ", " codes ++ ")") tier (.call callee trees)

omit h in
theorem allFill_of_forall₂ {codes : List String} {trees : List Expr}
    (hfills : List.Forall₂ (Fills g allowed .none false) codes trees) :
    AllFill g allowed (argPositions codes.length) codes trees := by
  induction hfills with
  | nil => exact .nil
  | cons hfirst _ ih => exact .cons hfirst ih

omit h in
theorem map_getD_range (codes : List String) :
    (List.range codes.length).map (fun i => codes.getD i "") = codes :=
  List.ext_getElem (by simp) fun i hi hi' => by simp [hi']

/-- Calls of a word of the program. -/
theorem renders_call {word : String} (hword : scene.dialect.policy.Fits .procedure word)
    {codes : List String} {trees : List Expr}
    (hfills : List.Forall₂ (Fills g allowed .none false) codes trees) (tier : Tier) :
    Renders g allowed (word ++ "(" ++ joinWith ", " codes ++ ")") tier
      (.call (.name word) trees) :=
  ⟨reads_call h.readsCalls (h.marks _ (mem_marks_of_delimiter (by simp))) (h.procedure hword) (hfills.imp fun _ _ hfill => hfill.whole),
    fun hzero => by cases hzero⟩

omit h in
/-- Calls of a function that the language has. -/
theorem callsAs_function {name : String} {imports : List String} {function : PhraseFunction}
    {count : Nat} {tier : Tier} (hcount : 0 < count)
    (hmatches : (Callee.function name imports).matches g allowed tier count function = true) :
    CallsAs g allowed final tier count function name := by
  intro codes trees hlength hfills
  subst hlength
  cases function with
  | helper key => cases hmatches
  | path word fields =>
    have htrees : codes.length = trees.length := hfills.length_eq
    have hcode : (name ++ "(" ++ joinWith ", " codes ++ ")").toList =
        (Part.text (name ++ "(") :: argParts (List.range codes.length)).flatMap
          (Part.chars fun i => codes.getD i "") := by
      obtain ⟨n, hn⟩ := Nat.exists_eq_add_of_lt hcount
      have hrange : List.range codes.length = 0 :: (List.range (0 + n)).map Nat.succ := by
        rw [hn, List.range_succ_eq_map]
      rw [List.flatMap_cons, hrange, chars_argParts, ← hrange, map_getD_range]
      simp [Part.chars]
    have hrenders := renders_of_entry hmatches hcode (allFill_of_forall₂ hfills)
    rw [htrees] at hrenders
    exact ⟨_, rfl, by simpa only [Phrase.filled, Phrase.tree, treeList_holes] using hrenders⟩

/-- Calls of a helper. -/
theorem callsAs_helper {key name : String} (hname : final.helperName? key = some name)
    (hfits : scene.dialect.policy.Fits .procedure name) (tier : Tier) (count : Nat) :
    CallsAs g allowed final tier count (.helper key) name := fun _ _ _ hfills =>
  ⟨.name name, by simp [PassState.callee?, hname], h.renders_call hfits hfills tier⟩

theorem gives_calleeName {callee : Callee} {function : PhraseFunction} {count : Nat} {tier : Tier}
    (hcount : 0 < count) (hmatches : callee.matches g allowed tier count function = true) :
    (calleeName callee).Gives (scene.SoundAnswer g allowed final one block)
      (CallsAs g allowed final tier count function) := by
  cases callee with
  | function name imports =>
    exact (gives_importAll imports).bind fun _ _ => callsAs_function hcount hmatches
  | helper form =>
    cases function with
    | path word fields => cases hmatches
    | helper key =>
      obtain rfl : form.key = key := by simpa [Callee.matches] using hmatches
      exact (gives_importAll form.imports).bind fun _ _ _ hname =>
        h.callsAs_helper hname.1 hname.2 tier count

omit h in
/-- A call with one argument. -/
theorem callsAs_one {function : PhraseFunction} {name code : String} {tier : Tier} {tree : Expr}
    (hcalls : CallsAs g allowed final tier 1 function name)
    (hfills : Fills g allowed .none false code tree) :
    ∃ callee, final.callee? function = some callee ∧
      Renders g allowed (name ++ "(" ++ code ++ ")") tier (.call callee [tree]) :=
  hcalls [code] [tree] rfl (.cons hfills .nil)

omit h in
/-- A call with two arguments. -/
theorem callsAs_two {function : PhraseFunction} {name a b : String} {tier : Tier} {ta tb : Expr}
    (hcalls : CallsAs g allowed final tier 2 function name)
    (ha : Fills g allowed .none false a ta) (hb : Fills g allowed .none false b tb) :
    ∃ callee, final.callee? function = some callee ∧
      Renders g allowed (name ++ "(" ++ a ++ ", " ++ b ++ ")") tier (.call callee [ta, tb]) := by
  have := hcalls [a, b] [ta, tb] rfl (.cons ha (.cons hb .nil))
  simpa [joinWith, String.append_assoc] using this

theorem gives_onList : scene.FormGives g allowed book final one block .onList
    (Recipe.onList scene.dialect block) := by
  refine (gives_result _).bind fun op hop => ?_
  have hname : (calleeName (scene.dialect.onList op)).Gives
      (scene.SoundAnswer g allowed final one block)
      (CallsAs g allowed final scene.dialect.call 1 (book.onList op)) :=
    h.gives_calleeName Nat.zero_lt_one (h.onList op)
  have hempty : Fills g allowed .none false scene.dialect.emptyList .emptyList :=
    fills_fixed h.emptyList
  split
  · refine hname.bind fun name hcalls => ?_
    refine (gives_valueOr hempty).bind fun items ⟨tree, htree, hfills⟩ => ?_
    obtain ⟨callee, hcallee, hrenders⟩ := callsAs_one hcalls hfills
    exact ⟨_, _, _, rfl, by simp [hop, htree, hcallee], hrenders⟩
  · refine (gives_valueOr hempty).bind fun items ⟨tree, htree, hfills⟩ => ?_
    refine hname.bind fun name hcalls => ?_
    obtain ⟨callee, hcallee, hrenders⟩ := callsAs_one hcalls hfills
    exact ⟨_, _, _, rfl, by simp [hop, htree, hcallee], hrenders⟩

theorem gives_randomInteger : scene.FormGives g allowed book final one block .randomInteger
    (Recipe.randomInteger scene.dialect) := by
  have hmatches := h.randomInteger
  have hzero := h.fills_zero .none false
  unfold Recipe.randomInteger
  cases hcallee : scene.dialect.randomInteger with
  | function name imports =>
    rw [hcallee] at hmatches
    have hcalls : CallsAs g allowed final scene.dialect.call 2 book.randomInteger name :=
      callsAs_function Nat.two_pos hmatches
    refine (gives_importAll imports).bind fun _ _ => ?_
    refine (gives_valueOr hzero).bind fun low ⟨tl, htl, hfl⟩ => ?_
    refine (gives_valueOr hzero).bind fun high ⟨th, hth, hfh⟩ => ?_
    obtain ⟨callee, hcallee, hrenders⟩ := callsAs_two hcalls hfl hfh
    exact ⟨_, _, _, rfl, by simp [htl, hth, hcallee], hrenders⟩
  | helper form =>
    rw [hcallee] at hmatches
    refine (gives_valueOr hzero).bind fun low ⟨tl, htl, hfl⟩ => ?_
    refine (gives_valueOr hzero).bind fun high ⟨th, hth, hfh⟩ => ?_
    refine (h.gives_calleeName Nat.two_pos hmatches).bind fun name hcalls => ?_
    obtain ⟨callee, hcallee, hrenders⟩ := callsAs_two hcalls hfl hfh
    exact ⟨_, _, _, rfl, by simp [htl, hth, hcallee], hrenders⟩

/-- A test of one number that needs no helper. -/
theorem renders_test {property : NumberProperty} (hprime : property ≠ .prime)
    (hdivisible : property ≠ .divisibleBy) {code : String} {tree : Expr}
    (hfills : Fills g allowed (plainTest scene.dialect property).operand
      (plainTest scene.dialect property).strict code tree) :
    Renders g allowed ((plainTest scene.dialect property).before ++ code ++
        (plainTest scene.dialect property).after)
      (plainTest scene.dialect property).result ((book.test property).filled [tree]) := by
  refine renders_of_entry (h.test property hprime hdivisible) ?_ (.cons hfills .nil)
  simp [aroundParts, Part.chars]

/-- A test whether a number divides another one. -/
theorem renders_divisible {a b : String} {ta tb : Expr}
    (ha : Fills g allowed scene.dialect.modulo.tier false a ta)
    (hb : Fills g allowed scene.dialect.modulo.tier true b tb) :
    Renders g allowed (a ++ " % " ++ b ++ " == 0") (scene.dialect.compare .eq).tier
      (book.divisible.filled [ta, tb]) :=
  renders_of_entry h.divisible (by simp [Part.chars]) (.cons ha (.cons hb .nil))

theorem gives_property : scene.FormGives g allowed book final one block .property
    (Recipe.property scene.dialect block) := by
  have hzero := h.fills_zero
  refine (gives_result _).bind fun property hproperty => ?_
  cases property with
  | prime =>
    refine (gives_valueOr (hzero _ _)).bind fun number ⟨tree, htree, hfills⟩ => ?_
    refine (gives_importAll _).bind fun _ _ => ?_
    intro name hname
    have hcalls := h.callsAs_helper hname.1 hname.2 scene.dialect.call 1
    obtain ⟨callee, hcallee, hrenders⟩ := callsAs_one hcalls hfills
    exact ⟨_, _, _, rfl, by simp [hproperty, htree, h.prime, hcallee], hrenders⟩
  | divisibleBy =>
    refine (gives_valueOr (hzero _ _)).bind fun number ⟨tn, htn, hfn⟩ => ?_
    refine (gives_valueOr (hzero _ _)).bind fun divisor ⟨td, htd, hfd⟩ => ?_
    have hiszero := hfd.isZero_eq h.readsZero
    by_cases hdivisor : divisor = "0"
    · rw [if_pos hdivisor]
      refine ⟨_, _, _, rfl, ?_, h.renders_truth false⟩
      simp [hproperty, htn, htd, hiszero, hdivisor]
    · rw [if_neg hdivisor]
      refine ⟨_, _, _, rfl, ?_, h.renders_divisible hfn hfd⟩
      simp [hproperty, htn, htd, hiszero, hdivisor]
  | even | odd | whole | positive | negative =>
    refine (gives_valueOr (hzero _ _)).bind fun number ⟨tree, htree, hfills⟩ => ?_
    refine ⟨_, _, _, rfl, ?_, h.renders_test (by decide) (by decide) hfills⟩
    simp [hproperty, htree]

/-! ## Texts, variables and calls of procedures -/

theorem gives_text : scene.FormGives g allowed book final one block .text
    (Recipe.text scene.dialect block) :=
  ⟨_, _, _, rfl, rfl, (h.quote _).weaken List.nil_suffix, fun hzero => by cases hzero⟩

theorem gives_variableValue : scene.FormGives g allowed book final one block .variableValue
    (Recipe.variableValue block) := by
  refine (gives_nameOf _ _).bind fun text ⟨content, hfield, hidentifier, word, htext, hfits⟩ => ?_
  refine ⟨_, _, .name text, rfl, by simp [hfield, hidentifier], ?_, fun hzero => ?_⟩
  · rw [htext]
    exact (h.identifier hfits).weaken List.nil_suffix
  · cases hzero

omit h in
/-- The arguments of a call. -/
theorem argTrees_of_forall₂ {indices : List Nat} {codes : List String}
    (hcodes : List.Forall₂ (fun i code => ∃ tree,
      scene.operandTree one block ("ARG" ++ toString i) (book.null.filled []) = some tree ∧
        Fills g allowed .none false code tree) indices codes) :
    ∃ trees, scene.argTrees book one block indices = some trees ∧
      List.Forall₂ (Fills g allowed .none false) codes trees := by
  induction hcodes with
  | nil => exact ⟨[], rfl, .nil⟩
  | cons hfirst _ ih =>
    obtain ⟨tree, htree, hfills⟩ := hfirst
    obtain ⟨trees, htrees, hrest⟩ := ih
    refine ⟨tree :: trees, ?_, .cons hfills hrest⟩
    rw [Scene.argTrees, htree, htrees]
    rfl

omit h in
theorem params_toOption {list : List Json} (hparams : (params block).toOption = some list) :
    block.params.toOption = some list := by
  unfold params at hparams
  cases hblock : block.params with
  | ok list' => simpa [hblock, Except.toOption] using hparams
  | error kind => simp [hblock, Except.toOption] at hparams

theorem gives_procedureCall : scene.FormGives g allowed book final one block .procedureCall
    (Recipe.procedureCall scene block) := by
  have hnull := h.fills_atomic h.renders_null .none false
  unfold Scene.FormGives Recipe.procedureCall Recipe.call
  rw [gives_bind]
  refine (gives_nameOf _ _).bind fun name ⟨content, hfield, hidentifier, word, htext, hfits⟩ => ?_
  refine (gives_result _).bind fun list hparams => ?_
  refine (gives_forEach _ fun i _ => gives_valueOr hnull).bind fun codes hcodes => ?_
  obtain ⟨trees, htrees, hfills⟩ := argTrees_of_forall₂ hcodes
  obtain rfl : name = word := by simpa [NamePolicy.sign] using htext
  refine ⟨_, _, .call (.name name) trees, rfl, ?_, h.renders_call hfits hfills _⟩
  simp [hfield, hidentifier, params_toOption hparams, htrees]

/-- Every rule for a value gives the text of the tree that its block denotes. -/
theorem gives_recipe {ref : Ref} {form : BlockForm} (hvalue : form.isValue = true) :
    scene.FormGives g allowed book final one block form (form.recipe scene ref block) := by
  cases form with
  | conditional | whileLoop | repeatLoop | flow | change | variableAssignment
  | procedureDefinition | procedureCallStatement | conditionalReturn => cases hvalue
  | compare => exact h.gives_compare
  | logic => exact h.gives_logic
  | logicNot => exact h.gives_logicNot
  | truthValue => exact h.gives_truthValue
  | nullValue => exact h.gives_nullValue
  | ternary => exact h.gives_ternary
  | number => exact h.gives_number
  | arithmetic => exact h.gives_arithmetic
  | modulo => exact h.gives_modulo
  | single => exact h.gives_single
  | constant => exact h.gives_constant
  | property => exact h.gives_property
  | onList => exact h.gives_onList
  | constrain => exact h.gives_constrain
  | randomInteger => exact h.gives_randomInteger
  | randomFraction => exact h.gives_randomFraction
  | arcTangent => exact h.gives_arcTangent
  | text => exact h.gives_text
  | variableValue => exact h.gives_variableValue
  | procedureCall => exact h.gives_procedureCall

end Dialect.Faithful

end BlockScript
