import Mathlib.Data.List.Permutation
import BlockScript.Proofs.Code.Rendering
import BlockScript.Proofs.Names.Course

/-!
# Names that the fixed text relies on

The tables of a dialect hold text that goes into a program as it is: what stands around
operands, headers of statements, imports, and the texts of helper functions. This text
calls functions, and names modules and constants, of the language. A program means what
it should only if no identifier given out is such a name, so the reserved words have to
have all of them.

The names are read off the tables, by the tokens of the language. A name counts if it is
neither bound by the text itself, as the parameters and local variables of helpers are, nor
a member, a label or a cast.

Results:

* `Language.protects_reliedNames`: a name that the fixed text relies on is reserved or
  `unprotected`.
* `captured_iff_unprotected`: the names that a pass can give out although the fixed text
  relies on them are the `unprotected` ones.
-/

namespace BlockScript

open BlockScript.Text BlockScript.Reading

/-! ## Fixed text -/

/-- The helper that a call needs, if it is one. -/
def Callee.helper? : Callee → Option Helper
  | .function .. => none
  | .helper form => some form

/-- The function of the language that is called, with its imports. -/
def Callee.function? : Callee → Option (String × List String)
  | .function name imports => some (name, imports)
  | .helper _ => none

namespace Dialect

variable (dialect : Dialect)

/-- The functions that rules call by name. -/
def callees : List Callee :=
  Choice.members.map dialect.onList ++ [dialect.randomInteger]

/-- The helper functions. -/
def helpers : List Helper :=
  dialect.primeHelper :: dialect.callees.filterMap Callee.helper?

/-- The texts around operands and of constant expressions. -/
def expressionTexts : List String :=
  Choice.members.map (fun op => (dialect.compare op).text) ++
    Choice.members.map (fun op => (dialect.logic op).text) ++
    Choice.members.map (fun op => (dialect.arithmetic op).text) ++
    Choice.members.map (fun op => (dialect.single op).before ++ (dialect.single op).after) ++
    Choice.members.map (fun name => (dialect.constant name).text) ++
    Choice.members.map (fun property =>
      (Recipe.plainTest dialect property).before ++ (Recipe.plainTest dialect property).after) ++
    (dialect.callees.filterMap Callee.function?).map Prod.fst ++
    [dialect.trueLiteral, dialect.falseLiteral, dialect.nullLiteral, dialect.emptyList,
      dialect.infinity.text, dialect.minusInfinity.text, dialect.notANumber.text,
      dialect.logicNot.text, dialect.negation.text, dialect.modulo.text,
      dialect.ternary.layout dialect.ternary.condition.fallback
        dialect.ternary.consequent.fallback dialect.ternary.alternative.fallback,
      dialect.minimum, dialect.maximum, dialect.lowFallback, dialect.highFallback,
      dialect.randomFraction.text, dialect.arcTangent.before ++ dialect.arcTangent.after]

/-- The texts of statements, with nothing where names, expressions and bodies go. -/
def statementTexts : List String :=
  [dialect.nakedValue "", dialect.ifHeader "", dialect.elseIfHeader "", dialect.elseHeader,
    dialect.whileHeader "", dialect.repeatHeader "" "", dialect.blockEnd, dialect.statement "break",
    dialect.statement dialect.continueStatement, dialect.statement "return",
    dialect.procedureHeader "" "", dialect.procedureEnd, dialect.changeStatement "" "",
    dialect.changeOperand.fallback] ++
    dialect.emptyBody.toList ++ dialect.continueLabel.toList ++ dialect.initialValue.toList ++
    (dialect.globalDeclaration.map fun declaration => declaration "").toList ++
    match dialect.repeatCount with
    | .truncated before after => [before ++ after]
    | .stored => []

/-- The texts of imports. -/
def importTexts : List String :=
  dialect.changeImports ++ dialect.randomFraction.imports ++ dialect.arcTangent.imports ++
    Choice.members.flatMap (fun op => (dialect.single op).imports) ++
    Choice.members.flatMap (fun name => (dialect.constant name).imports) ++
    dialect.helpers.flatMap Helper.imports ++
    (dialect.callees.filterMap Callee.function?).flatMap Prod.snd

/-- All fixed text outside helpers. -/
def frameTexts : List String :=
  dialect.expressionTexts ++ dialect.statementTexts ++ dialect.importTexts

end Dialect

/-! ## Names in a text -/

/-- The characters of an ASCII text, one for each byte. -/
def asciiChars (text : String) : List Char :=
  text.toByteArray.data.toList.map fun byte => Char.ofNat byte.toNat

/-- The text of a helper without its name. -/
def Helper.body (helper : Helper) : List Char :=
  replaceFrom (asciiChars Definitions.placeholder) [] 0 (asciiChars helper.template)

/-- The characters ahead of a mark. -/
def upToMark (mark : List Char) : List Char → List Char
  | [] => []
  | c :: rest => if mark.isPrefixOf (c :: rest) then [] else c :: upToMark mark rest

/-- The names that tokens refer to. What follows a point is a member, what follows `goto` or
    `::` a label, and some words between parentheses are casts. -/
def usedNames (casts : List String) : Option Token → List Token → List String
  | _, [] => []
  | before, .name word :: rest =>
    let elsewhere := [.mark ".", .mark "goto", .mark "::"].any (before = some ·)
    let cast := before = some (.mark "(") && casts.contains word && rest.head? = some (.mark ")")
    if elsewhere || cast then usedNames casts (some (.name word)) rest
    else word :: usedNames casts (some (.name word)) rest
  | _, token :: rest => usedNames casts (some token) rest

/-- The names between the first parentheses. -/
def parameterNames (tokens : List Token) : List String :=
  usedNames [] none
    ((tokens.dropWhile (· ≠ .mark "(")).takeWhile (· ≠ .mark ")"))

/-- The names that tokens assign to, and those that loops run through, which stand between
    `for` and `in` or `=`. -/
def assignedNames : (inLoop : Bool) → List Token → List String
  | _, [] => []
  | inLoop, .name word :: rest =>
    if inLoop || rest.head? = some (.mark "=") then word :: assignedNames inLoop rest
    else assignedNames inLoop rest
  | inLoop, token :: rest =>
    if token = .mark "for" then assignedNames true rest
    else if token = .mark "in" || token = .mark "=" then assignedNames false rest
    else assignedNames inLoop rest

namespace Language

variable (language : Language)

/-- The tokens of a line without its comment. -/
def lineTokens? (line : List Char) : Option (List Token) := do
  let lexis : Lexis := { language.grammar.lexis with refused := [] }
  let code := upToMark (asciiChars language.dialect.commentStart) line
  let (tokens, mode) ← lexis.run .blank code
  let last ← lexis.finish mode
  return tokens ++ last

/-- The tokens of the lines of a text. -/
def textTokens? (text : List Char) : Option (List Token) :=
  ((splitLines text).mapM language.lineTokens?).map List.flatten

/-- Whether a name is a variable that shows by its sigil. All of these in the fixed text
    belong to the helper that they stand in. -/
def isMarkedVariable (word : String) : Bool :=
  language.grammar.lexis.sigil.any fun sigil => (asciiChars word).head? = some sigil

/-- The names that a text refers to. -/
def namesIn (tokens : List Token) : List String :=
  (usedNames language.grammar.casts none tokens).filter fun word => !language.isMarkedVariable word

/-- The names that a helper refers to and does not bind itself. -/
def namesInHelper (tokens : List Token) : List String :=
  let bound := parameterNames tokens ++ assignedNames false tokens
  (language.namesIn tokens).filter fun word => !bound.contains word

/-- The names that the fixed text relies on, if all of it is cut into tokens. -/
def reliedNames? : Option (List String) := do
  let frames ← language.dialect.frameTexts.mapM fun text => language.textTokens? (asciiChars text)
  let helpers ← language.dialect.helpers.mapM fun helper => language.textTokens? helper.body
  return frames.flatMap language.namesIn ++ helpers.flatMap language.namesInHelper

/-- The names that the fixed text relies on although they are not reserved. In PHP only
    those of functions can be given out, as variables have a sigil. -/
def unprotected : Language → NameKind → List String
  | .lua, _ => ["_"]
  | .php, .procedure =>
    ["true", "false", "null", "INF", "NAN", "M_PI", "M_E", "M_SQRT2", "M_SQRT1_2",
      "SORT_NUMERIC", "getrandmax"]
  | .php, _ | .python, _ => []

/-- Whether names are reserved or unprotected, and all unprotected ones are among them. -/
def protects (names : List String) : Bool :=
  names.all (fun name => !language.isMarkedVariable name &&
    (language.dialect.policy.reserved.contains name ||
      (language.unprotected .procedure).contains name)) &&
    (language.unprotected .procedure).all names.contains

/-- The fixed text is cut into tokens, and its names are as they should be. -/
theorem protects_reliedNames : language.reliedNames?.any language.protects = true := by
  cases language <;> decide +kernel

/-- So there are such names. -/
theorem exists_reliedNames :
    ∃ names, language.reliedNames? = some names ∧ language.protects names = true := by
  have hprotects := language.protects_reliedNames
  cases hnames : language.reliedNames? with
  | none =>
    rw [hnames] at hprotects
    cases hprotects
  | some names =>
    rw [hnames] at hprotects
    exact ⟨names, rfl, hprotects⟩

/-- A kind without a sign has the same unprotected names as procedures have. -/
theorem unprotected_eq {kind : NameKind} (h : language.dialect.policy.sign kind = "") :
    language.unprotected kind = language.unprotected .procedure := by
  cases language with
  | python | lua => rfl
  | php =>
    cases kind with
    | procedure => rfl
    | «variable» | developerVariable => exact absurd h (by decide)

theorem sign_of_unprotected {kind : NameKind} {name : String}
    (h : name ∈ language.unprotected kind) : language.dialect.policy.sign kind = "" := by
  cases language with
  | python | lua => cases kind <;> rfl
  | php =>
    cases kind with
    | procedure => rfl
    | «variable» | developerVariable => cases h

end Language

/-! ## Identifiers of a pass -/

/-- The state at the end of a pass, whether it succeeds or not. -/
def Language.finalState (language : Language) (config : Config) (workspace : Workspace) :
    PassState :=
  ((Scene.ofLanguage language config workspace).program {}).2

/-- The identifiers given out with their kinds: those of logical names, those of helpers,
    and those that belong to neither, which are the counters and bounds of loops. -/
inductive PassState.Gives (state : PassState) : NameKind → String → Prop
  | named {kind : NameKind} {name word : String}
    (h : state.names.assigned.lookup (kind, name) = some word) : Gives state kind word
  | helper {key word : String} (h : Json.find? state.definitions.helpers key = some word) :
    Gives state .procedure word
  | own {word : String} (taken : word ∈ state.names.taken)
    (unnamed : ∀ key, state.names.assigned.lookup key ≠ some word)
    (noHelper : ∀ key, Json.find? state.definitions.helpers key ≠ some word) :
    Gives state .variable word

/-- Whether an identifier is a name, in any case if its kind ignores case. -/
def NamePolicy.Captures (policy : NamePolicy) (kind : NameKind) (word name : String) : Prop :=
  policy.sign kind ++ word = name ∨ kind ∈ policy.caseInsensitive ∧ lower word = lower name

variable {language : Language} {kind : NameKind} {word name : String}

/-! ### No reserved name is captured -/

/-- Every word given out fits the language as some kind. -/
theorem Scene.Leads.fits {scene : Scene} {s t : PassState} (h : scene.Leads s t)
    (hs : ∀ word ∈ s.names.taken, ∃ kind, scene.dialect.policy.Fits kind word) :
    ∀ word ∈ t.names.taken, ∃ kind, scene.dialect.policy.Fits kind word := by
  have hnew : ∀ (table : NameTable) (name : String) (kind : NameKind),
      ∃ kind', scene.dialect.policy.Fits kind'
        (table.allocate scene.dialect.policy name kind).1 :=
    fun table name kind => ⟨kind, NameTable.fits_allocate name⟩
  induction h with
  | refl => exact hs
  | @tail t u _ hstep ih =>
    cases hstep with
    | unnamed h => rwa [h]
    | name kind name =>
      show ∀ word ∈ (t.names.get scene.dialect.policy name kind).2.taken,
        ∃ kind, scene.dialect.policy.Fits kind word
      unfold NameTable.get
      dsimp only
      split
      · exact ih
      · exact List.forall_mem_cons.mpr ⟨hnew t.names name kind, ih⟩
    | freshName kind base =>
      exact List.forall_mem_cons.mpr ⟨hnew t.names base kind, ih⟩

/-- The identifiers of a pass fit the language. -/
theorem PassState.Gives.fits {config : Config} {workspace : Workspace}
    (h : (language.finalState config workspace).Gives kind word) :
    language.dialect.policy.Fits kind word := by
  have hnamed : (language.finalState config workspace).Named language.dialect.policy :=
    ((Scene.named_kept (.ofLanguage language config workspace)).program {}).named
      PassState.named_empty
  cases h with
  | named h => exact hnamed.assigned h
  | helper h => exact hnamed.helpers h
  | own taken =>
    have hleads := (Scene.leads_kept (.ofLanguage language config workspace)).program {}
    obtain ⟨kind, hfits⟩ := hleads.fits (fun _ hno => by cases hno) word taken
    have hcase : NameKind.variable ∉ language.dialect.policy.caseInsensitive := by
      cases language <;> decide
    exact ⟨hfits.identifier, hfits.notReserved, fun hyes => absurd hyes hcase⟩

theorem asciiChars_append (a b : String) : asciiChars (a ++ b) = asciiChars a ++ asciiChars b := by
  simp [asciiChars]

/-- Only a name of a kind without a sign can be captured, as no name that the fixed text
    relies on has one. -/
theorem NamePolicy.Captures.sign_eq (h : language.dialect.policy.Captures kind word name)
    (hmarked : language.isMarkedVariable name = false) :
    language.dialect.policy.sign kind = "" := by
  cases language with
  | python | lua => cases kind <;> rfl
  | php =>
    have hsigned : Language.isMarkedVariable .php ("$" ++ word) = true := by
      unfold Language.isMarkedVariable
      rw [asciiChars_append]
      rfl
    cases kind with
    | procedure => rfl
    | «variable» | developerVariable =>
      rcases h with rfl | ⟨hkind, -⟩
      · exact absurd (hmarked.symm.trans hsigned) (by decide)
      · exact absurd hkind (by decide)

/-- An identifier that fits is no reserved name, whether case counts or not. -/
theorem NamePolicy.Fits.not_captures (h : language.dialect.policy.Fits kind word)
    (hname : name ∈ language.dialect.policy.reserved)
    (hsign : language.dialect.policy.sign kind = "") :
    ¬language.dialect.policy.Captures kind word name := by
  rintro (heq | ⟨hkind, hlower⟩)
  · rw [hsign, String.empty_append] at heq
    exact h.notReserved (heq ▸ hname)
  · exact h.notFolded hkind name hname hlower.symm

/-! ### Every other name can be given out -/

/-- The base of an identifier is the identifier. -/
theorem safeName_of_isIdentifier (h : IsIdentifier word) : safeName word = word := by
  obtain ⟨c, cs, hword, hc, hdigit, hcs⟩ := h
  have hmap : word.toList.map (fun c => if isSafeChar c then c else '_') = c :: cs := by
    rw [hword]
    refine (List.map_congr_left fun d hd => ?_).trans (List.map_id _)
    have hsafe : isSafeChar d = true := by
      rcases List.mem_cons.mp hd with rfl | hd
      · exact hc
      · exact hcs d hd
    simp [hsafe]
  unfold safeName
  rw [hmap]
  dsimp only
  rw [if_neg (by simp [hdigit]), ← hword, String.ofList_toList]

/-- The first request of a pass gets the name itself if that fits. -/
theorem nameOf_first {policy : NamePolicy} (h : policy.Fits kind word) :
    ∃ t, Pass.nameOf policy kind word {} = (.ok (policy.sign kind ++ word), t) ∧
      t.names.assigned.lookup (kind, lower word) = some word := by
  have hfirst : (NameTable.allocate policy {} word kind).1 = word := by
    obtain ⟨count, hcount, -, hearlier⟩ := NameTable.allocate_spec policy {} word kind
    rw [hcount, safeName_of_isIdentifier h.identifier]
    cases count with
    | zero => rfl
    | succ count =>
      have hclash := hearlier 0 (by omega)
      rw [safeName_of_isIdentifier h.identifier] at hclash
      simp only [candidate, if_true, NameTable.clashes, NameTable.avoided, List.nil_append,
        Bool.or_eq_true, Bool.and_eq_true, List.contains_iff_mem, List.any_eq_true,
        decide_eq_true_eq] at hclash
      rcases hclash with hmem | ⟨hkind, reserved, hreserved, hlower⟩
      · exact absurd hmem h.notReserved
      · exact absurd hlower (h.notFolded hkind reserved hreserved)
  refine ⟨(Pass.nameOf policy kind word {}).2, ?_, ?_⟩
  · show (Except.ok (policy.sign kind ++ (NameTable.allocate policy {} word kind).1),
      (Pass.nameOf policy kind word {}).2) = _
    rw [hfirst]
  · show [((kind, lower word), (NameTable.allocate policy {} word kind).1)].lookup
      (kind, lower word) = some word
    rw [hfirst, List.lookup_cons_self]

/-- A workspace in which a name of a kind is the first one that is asked for. -/
def naming (word : String) : NameKind → Workspace
  | .variable => { declaredVariables := [word] }
  | .developerVariable => { developerVariables := [word] }
  | .procedure =>
    { tops := [0]
      graph := ⟨#[{ Block.ofType "procedures_defnoreturn" with
        fields := [("NAME", .text word)] }]⟩ }

theorem allBlocks_naming_procedure (word : String) : (naming word .procedure).allBlocks = [0] := by
  cbv

theorem usedVariables_naming (language : Language) (kind : NameKind) (h : word ≠ "") :
    (Scene.ofLanguage language {} (naming word kind)).usedVariables =
      .ok (if kind = .variable then [word] else []) := by
  cases kind with
  | «variable» =>
    have hused : (naming word .variable).usedVariables = .ok (Workspace.addName [] word) := rfl
    unfold Scene.usedVariables
    rw [show (Scene.ofLanguage language {} (naming word .variable)).workspace.usedVariables = _
      from hused]
    simp [Workspace.addName, h]
  | developerVariable => rfl
  | procedure =>
    have hused : (naming word .procedure).usedVariables = .ok [] := by
      unfold Workspace.usedVariables
      rw [allBlocks_naming_procedure]
      cbv
    unfold Scene.usedVariables
    rw [show (Scene.ofLanguage language {} (naming word .procedure)).workspace.usedVariables = _
      from hused]
    rfl

theorem definedNames_naming (h : word ≠ "") :
    (Scene.ofLanguage language {} (naming word .procedure)).definedNames = [.text word] := by
  have hgiven : (Scalar.text word).isGiven = true := by simpa [Scalar.isGiven] using h
  unfold Scene.definedNames
  rw [show (Scene.ofLanguage language {} (naming word .procedure)).workspace.allBlocks = [0] from
    allBlocks_naming_procedure word]
  show (List.filterMap _ [0]) = _
  simp only [List.filterMap_cons, List.filterMap_nil]
  have hname : (do
      let block ← (Scene.ofLanguage language {} (naming word .procedure)).graph.block? 0
      Scene.definedName? block) = Option.filter Scalar.isGiven (some (.text word)) := rfl
  rw [hname, Option.filter_some, if_pos hgiven]

/-- Reserving the names of such a workspace goes on from the request. -/
theorem keepsNames_reserveNames_naming (h : word ≠ "") :
    KeepsNames language.dialect.policy (Pass.nameOf language.dialect.policy kind word {}).2
      ((Scene.ofLanguage language {} (naming word kind)).reserveNames {}).2 := by
  have hkept := (Scene.ofLanguage language {} (naming word kind)).named_kept
  have hused := usedVariables_naming language kind h
  cases kind with
  | «variable» =>
    unfold Scene.reserveNames
    rw [hused, Pass.ofExcept_bind, if_pos rfl]
    refine (hkept.reserve_first .variable word [] {}).trans ?_
    refine hkept.bind_after (Scene.reserve _ .variable [word]) (fun names => ?_) {}
    refine hkept.bind (hkept.reserve .developerVariable _) fun developer => ?_
    refine hkept.bind (hkept.reserveDefined _) fun _ => ?_
    split
    · exact hkept.pure _
    · split
      · exact hkept.pure _
      · exact hkept.define _ _
  | developerVariable =>
    unfold Scene.reserveNames
    rw [hused, Pass.ofExcept_bind, if_neg (by decide),
      show Scene.reserve _ .variable [] = Pass.ofExcept (.ok []) from rfl, Pass.ofExcept_bind]
    refine (hkept.reserve_first .developerVariable word [] {}).trans ?_
    refine hkept.bind_after (Scene.reserve _ .developerVariable [word]) (fun names => ?_) {}
    refine hkept.bind (hkept.reserveDefined _) fun _ => ?_
    split
    · exact hkept.pure _
    · split
      · exact hkept.pure _
      · exact hkept.define _ _
  | procedure =>
    rw [Scene.reserveNames_of_noVariables hused rfl, definedNames_naming h]
    exact hkept.bind_after (Pass.nameOf _ .procedure word) (fun _ => hkept.pure _) {}

/-- The pass over such a workspace goes on from that request. -/
theorem keepsNames_naming (language : Language) (kind : NameKind) (h : word ≠ "") :
    KeepsNames language.dialect.policy (Pass.nameOf language.dialect.policy kind word {}).2
      (language.finalState {} (naming word kind)) :=
  (keepsNames_reserveNames_naming h).trans
    ((Scene.ofLanguage language {} (naming word kind)).named_kept.program_after {})

/-- A word that fits is given out for its name, if that is asked for first. -/
theorem gives_of_fits (h : language.dialect.policy.Fits kind word) :
    (language.finalState {} (naming word kind)).Gives kind word := by
  obtain ⟨t, hrun, hassigned⟩ := nameOf_first h
  have hword : word ≠ "" := by
    rintro rfl
    obtain ⟨c, cs, hchars, -⟩ := h.identifier
    cases hchars
  have hlater := (keepsNames_naming language kind hword).grows
  rw [hrun] at hlater
  exact .named (hlater.assigned hassigned)

/-- No unprotected name is refused. -/
theorem fits_unprotected (h : name ∈ language.unprotected kind) :
    language.dialect.policy.Fits kind name := by
  have hall : ∀ name ∈ language.unprotected kind, safeName name = name ∧
      name ∉ language.dialect.policy.reserved ∧
      (kind ∈ language.dialect.policy.caseInsensitive →
        ∀ reserved ∈ language.dialect.policy.reserved, lower reserved ≠ lower name) := by
    cases language <;> cases kind <;> decide +kernel
  obtain ⟨hsafe, hnot, hfolded⟩ := hall name h
  exact ⟨hsafe ▸ isIdentifier_safeName name, hnot, hfolded⟩

/-! ### What is captured -/

/-- The names that a pass can give out although the fixed text relies on them. -/
theorem captured_iff_unprotected (language : Language) :
    ∃ names, language.reliedNames? = some names ∧ ∀ kind name,
      (name ∈ names ∧ ∃ config workspace word,
        (language.finalState config workspace).Gives kind word ∧
          language.dialect.policy.Captures kind word name) ↔
        name ∈ language.unprotected kind := by
  obtain ⟨names, hnames, hprotects⟩ := language.exists_reliedNames
  simp only [Language.protects, Bool.and_eq_true, List.all_eq_true, Bool.or_eq_true,
    Bool.not_eq_true', List.contains_iff_mem] at hprotects
  obtain ⟨hguarded, hlisted⟩ := hprotects
  refine ⟨names, hnames, fun kind name => ⟨?_, fun h => ?_⟩⟩
  · rintro ⟨hname, config, workspace, word, hgives, hcaptures⟩
    obtain ⟨hmarked, hreserved | hunprotected⟩ := hguarded name hname
    · exact absurd hcaptures (hgives.fits.not_captures hreserved (hcaptures.sign_eq hmarked))
    · rwa [language.unprotected_eq (hcaptures.sign_eq hmarked)]
  · have hsign := language.sign_of_unprotected h
    have hname := language.unprotected_eq hsign ▸ h
    exact ⟨hlisted name hname, {}, naming name kind, name, gives_of_fits (fits_unprotected h),
      .inl (by rw [hsign, String.empty_append])⟩

/-! ### A captured function -/

/-- A procedure with the name of a function that the text of random numbers calls. -/
def usurping : Workspace where
  tops := [0, 1]
  graph := ⟨#[{ Block.ofType "procedures_defnoreturn" with
      id := some "p", fields := [("NAME", .text "getrandmax")] },
    { Block.ofType "math_random_float" with id := some "r" }]⟩

/-- The name of the procedure is its identifier. -/
theorem lookup_usurping : (Language.php.finalState {} usurping).names.assigned.lookup
    (.procedure, "getrandmax") = some "getrandmax" := by
  have hkept := (Scene.ofLanguage .php {} usurping).named_kept
  refine (hkept.program_after {}).grows.assigned ?_
  have hall : (Scene.ofLanguage .php {} usurping).workspace.allBlocks = [0, 1] :=
    show usurping.allBlocks = [0, 1] by cbv
  have hused : (Scene.ofLanguage .php {} usurping).usedVariables = .ok [] := by
    unfold Scene.usedVariables Workspace.usedVariables
    rw [hall]
    rfl
  have hdefined : (Scene.ofLanguage .php {} usurping).definedNames = [.text "getrandmax"] := by
    unfold Scene.definedNames
    rw [hall]
    rfl
  rw [Scene.reserveNames_of_noVariables hused rfl, hdefined]
  decide +kernel

/-- The procedure takes the place of the function that the fixed text relies on. -/
theorem usurping_captures :
    ∃ names, Language.php.reliedNames? = some names ∧
      ∃ word, (Language.php.finalState {} usurping).Gives .procedure word ∧
        ∃ name ∈ names, Language.php.dialect.policy.Captures .procedure word name := by
  obtain ⟨names, hnames, hprotects⟩ := Language.php.exists_reliedNames
  simp only [Language.protects, Bool.and_eq_true, List.all_eq_true, List.contains_iff_mem]
    at hprotects
  exact ⟨names, hnames, _, .named lookup_usurping, "getrandmax", hprotects.2 _ (by decide),
    .inl rfl⟩

end BlockScript
