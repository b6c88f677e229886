import BlockScript.Proofs.Imports.Recipes
import BlockScript.Proofs.Names.HelperText
import BlockScript.Proofs.Names.Reserved
import BlockScript.Proofs.Pass.Assembly
import BlockScript.Proofs.Pass.Comments
import BlockScript.Proofs.Pass.Ended
import BlockScript.Proofs.Suite.Initialised

/-!
# Rendering and imports

A pass collects the imports that its recipes ask for, and keeps them to its end. So whatever a
block renders to is covered by the imports that the program has at last, although some of them
may be asked for only later. The same goes for the definitions: the imports, the variables, the
helpers and the procedures.

The helpers have fixed texts but for their names, and each text is covered by the imports that
the helper comes with.

Results:

* `Python.coveredText_helperText`: the text of a helper.
* `Scene.yields_answer`: what recipes are answered.
* `Scene.yields_renderWithin`, `Scene.yields_topTexts`: what blocks render to.
-/

namespace BlockScript

open BlockScript.Text

namespace Python

variable {stock : List String}

/-! ## Helpers -/

/-- Whether the lines of a template are covered by imports, where a name can stand ahead of
    the parameters in the first line. -/
def isCoveredTemplate (imports : List String) : List (List Char) → Bool
  | [] => false
  | header :: body =>
    let start := Language.python.headerStart.toList ++ Definitions.placeholder.toList
    decide (Covered [] (String.ofList (header.drop start.length)) ∧
      ∀ line ∈ body, CoveredLine imports line)

/-- Whether a template is made of such lines. -/
def HasCoveredTemplate (imports : List String) (template : String) : Prop :=
  ∃ lines header body, template = helperLines lines ∧
    List.Forall₂ (fun line chars => line = String.ofList chars) lines (header :: body) ∧
    Language.python.isTemplate (header :: body) = true ∧
    isCoveredTemplate imports (header :: body) = true

theorem hasCoveredTemplate_helperLines {imports lines : List String} {header : List Char}
    {body : List (List Char)}
    (h : List.Forall₂ (fun line chars => line = String.ofList chars) lines (header :: body))
    (hshape : Language.python.isTemplate (header :: body) = true)
    (hcovered : isCoveredTemplate imports (header :: body) = true) :
    HasCoveredTemplate imports (helperLines lines) :=
  ⟨lines, header, body, rfl, h, hshape, hcovered⟩

/-- The imports of a helper cover its template. -/
theorem hasCoveredTemplate_helpers :
    ∀ form ∈ dialect.helpers, HasCoveredTemplate form.imports form.template := by
  simp only [show dialect.helpers = [primeHelper, meanHelper, medianHelper, modesHelper,
    deviationHelper] from rfl, List.forall_mem_cons]
  refine ⟨?_, ?_, ?_, ?_, ?_, by simp⟩
  all_goals
    apply hasCoveredTemplate_helperLines
    · repeat first | apply List.Forall₂.nil | (apply List.Forall₂.cons; exact rfl)
    · decide +kernel
    · decide +kernel

theorem coveredLine_reindentLine {unit line : List Char}
    (hunit : ∀ c ∈ unit, isIndentChar c = true) (h : CoveredLine stock line) :
    CoveredLine stock (reindentLine unit line) := by
  unfold reindentLine
  dsimp only
  generalize hunits : (line.takeWhile (· = ' ')).length / 2 = units
  have hspaces : ∀ c ∈ line.take (2 * units), isIndentChar c = true := by
    intro c hc
    have hle : 2 * units ≤ (line.takeWhile (· = ' ')).length := by omega
    have htaken : c ∈ line.takeWhile (· = ' ') := by
      rw [← List.takeWhile_append_dropWhile (p := (· = ' ')) (l := line),
        List.take_append_of_le_length hle] at hc
      exact List.mem_of_mem_take hc
    have hspace : c = ' ' := by simpa using List.mem_takeWhile_imp htaken
    rw [hspace]
    rfl
  have hline : CoveredLine stock (line.drop (2 * units)) := by
    rw [← List.take_append_drop (2 * units) line] at h
    exact (coveredLine_indented hspaces).mp h
  refine (coveredLine_indented fun c hc => ?_).mpr hline
  obtain ⟨copy, hcopy, hmem⟩ := List.mem_flatten.mp hc
  rw [List.eq_of_mem_replicate hcopy] at hmem
  exact hunit c hmem

/-- The text of a helper is covered by its imports. -/
theorem coveredText_helperText {form : Helper} (hform : form ∈ dialect.helpers)
    (himports : form.imports ⊆ stock) {name : String} {kind : NameKind}
    (hname : dialect.policy.Fits kind name) {unit : String}
    (hunit : ∀ c ∈ unit.toList, isIndentChar c = true) :
    CoveredText stock (Definitions.helperText form.template name unit) := by
  obtain ⟨lines, header, body, htemplate, hlines, hshape, hcovered⟩ := 
    hasCoveredTemplate_helpers form hform
  obtain ⟨params, hheader, htext⟩ := Language.toList_helperText hlines hshape unit
  rw [isCoveredTemplate, decide_eq_true_eq, hheader, List.drop_left] at hcovered
  obtain ⟨htail, hbody⟩ := hcovered
  have hdef : Covered stock ("def " ++ name) :=
    (Covered.fixed (by decide)).ahead (by decide) (covered_of_fits hname)
  have hfirst := hdef.behind htail.fixed (by simp [opensLoose]; decide)
  have hfeeds : ∀ line ∈ body, '\n' ∉ line := by
    intro line hline
    simp only [Language.isTemplate, Bool.and_eq_true, List.all_eq_true, Bool.not_eq_true',
      List.contains_eq_mem, decide_eq_false_iff_not] at hshape
    exact (hshape.1.2 line (List.mem_cons_of_mem _ hline)).1
  rw [htemplate]
  refine ⟨_, htext name hname.identifier, List.forall_mem_cons.mpr ⟨?_, fun line hline => ?_⟩⟩
  · have hline := And.intro hfirst.feeds hfirst.coveredLine
    simpa [Language.headerStart, Language.headerEnd] using hline
  · obtain ⟨inner, hinner, rfl⟩ := List.mem_map.mp hline
    refine ⟨fun hfeed => ?_, coveredLine_reindentLine hunit ((hbody inner hinner).mono himports)⟩
    rcases List.mem_append.mp hfeed with hunits | hrest
    · obtain ⟨copy, hcopy, hmem⟩ := List.mem_flatten.mp hunits
      rw [List.eq_of_mem_replicate hcopy] at hmem
      exact absurd (hunit _ hmem) (by decide)
    · exact hfeeds inner hinner (List.mem_of_mem_drop hrest)

/-! ## Variables -/

/-- The lines that initialise variables. -/
theorem coveredText_initialLines {names : List String} (hne : names ≠ [])
    (h : ∀ name ∈ names, Covered stock name) :
    CoveredText stock (Scene.initialLines "None" names) := by
  have hline : ∀ {name}, Covered stock name → Covered stock (name ++ " = " ++ "None") :=
    fun hname => hname.joinedBy _ (by decide) (.fixed (by decide))
  unfold Scene.initialLines
  induction names with
  | nil => exact absurd rfl hne
  | cons name names ih =>
    obtain ⟨hfirst, hrest⟩ := List.forall_mem_cons.mp h
    cases names with
    | nil => exact (hline hfirst).wholeLine
    | cons next names =>
      have hwhole := (hline hfirst).wholeLine.append (ih (by simp) hrest)
      simpa only [List.map_cons, joinWith, String.append_assoc] using hwhole

end Python

/-! ## Definitions -/

/-- The keys of the definitions so far. -/
def PassState.keys (state : PassState) : List String :=
  state.definitions.entries.map Prod.fst

/-- Whether a pass with some definitions can still end with those of another state. -/
def PassState.Before (final state : PassState) : Prop :=
  state.keys ⊆ final.keys

theorem subset_keys_insert {α : Type} (members : List (String × α)) (key : String) (value : α) :
    members.map Prod.fst ⊆ (Json.insert members key value).map Prod.fst := by
  rw [keys_insert]
  split
  · exact List.Subset.refl _
  · exact List.subset_append_left _ _

theorem mem_keys_insert {α : Type} (members : List (String × α)) (key : String) (value : α) :
    key ∈ (Json.insert members key value).map Prod.fst := by
  rw [keys_insert]
  split
  · assumption
  · simp

namespace Scene

open Python

variable {scene : Scene} {stock : List String} {final s t : PassState}

/-- Definitions stay. -/
theorem before_kept (scene : Scene) (final : PassState) :
    scene.Kept fun s t => final.Before t → final.Before s where
  refl _ := id
  trans h h' := h ∘ h'
  entering _ _ h s := h _
  insideLoop _ _ h s := h _
  nameOf _ _ _ := id
  freshName _ _ _ := id
  helper key template s := by
    refine fun h => List.Subset.trans ?_ h
    show s.definitions.entries.map Prod.fst ⊆
      (s.definitions.provide scene.dialect.policy s.names key template scene.indent).2.2.entries.map
        Prod.fst
    unfold Definitions.provide
    cases Json.find? s.definitions.helpers key with
    | some name => exact List.Subset.refl _
    | none => exact subset_keys_insert _ _ _
  define key code s h := List.Subset.trans (subset_keys_insert s.definitions.entries key code) h
  markContinue s := by
    unfold Pass.markContinue
    rw [Pass.modify_apply]
    dsimp only
    split <;> exact id
  warn _ _ := id

/-! ## Rendering -/

/-- Whether what a block renders to is covered by imports. -/
def CoveredRendered (stock : List String) : Rendered → Prop
  | .text code => CoveredText stock code
  | .value code _ => Covered stock code

/-- Whether the identifiers of a state fit the language, and its definitions are imports or
    covered by them. -/
abbrev CoveredState (scene : Scene) (stock : List String) (state : PassState) : Prop :=
  state.Sound scene.dialect.policy fun key code =>
    key = Recipe.importKey ++ code ∨ CoveredText stock code

theorem GiveTexts.yields {counts I : PassState → Prop} {P : String → Prop}
    {one : Ref → Pass Rendered} (hback : ∀ ref, (one ref).Keeps fun s t => counts t → counts s)
    (hone : ∀ ref, (one ref).Yields counts I fun rendered => ∀ text, rendered = .text text → P text)
    {refs : List Ref} {texts : List String} (h : GiveTexts one refs texts s t) (hs : I s)
    (ht : counts t) : (∀ text ∈ texts, P text) ∧ I t := by
  have hcounts : ∀ {refs texts s t}, GiveTexts one refs texts s t → counts t → counts s := by
    intro refs texts s t h
    induction h with
    | nil => exact id
    | @cons ref _ _ _ s t _ first _ ih =>
      intro hu
      have hfirst := hback ref s
      rw [first] at hfirst
      exact hfirst (ih hu)
  induction h with
  | nil => exact ⟨by simp, hs⟩
  | cons first rest ih =>
    obtain ⟨htext, hinv⟩ := hone _ _ _ _ hs first (hcounts rest ht)
    obtain ⟨htexts, hlast⟩ := ih hinv ht
    exact ⟨List.forall_mem_cons.mpr ⟨htext _ rfl, htexts⟩, hlast⟩

/-- The words that are given out use no name from a module. -/
theorem covered_word (hdialect : scene.dialect = Python.dialect) {kind : NameKind} {word : String}
    (h : scene.dialect.policy.Fits kind word) :
    Covered stock (scene.dialect.policy.sign kind ++ word) := by
  rw [hdialect] at h ⊢
  have hsign : Python.dialect.policy.sign kind = "" := by cases kind <;> rfl
  rw [hsign, String.empty_append]
  exact covered_of_fits h

/-- A helper has its text from the first request on. -/
theorem helper_eq_ok {policy : NamePolicy} {unit key template name : String}
    (h : Pass.helper policy unit key template s = (.ok name, t)) :
    (Json.find? s.definitions.helpers key = some name ∧ t = s) ∨
      (s.names.distinct policy key .procedure).1 = name ∧
        t.definitions.entries = Json.insert s.definitions.entries key
          (Definitions.helperText template name unit) := by
  have hrun : (Except.ok (s.definitions.provide policy s.names key template unit).1,
      { s with
        names := (s.definitions.provide policy s.names key template unit).2.1
        definitions := (s.definitions.provide policy s.names key template unit).2.2 }) =
      ((.ok name, t) : Except Failure String × PassState) := h
  unfold Definitions.provide at hrun
  cases hfind : Json.find? s.definitions.helpers key with
  | some word =>
    rw [hfind] at hrun
    cases hrun
    exact .inl ⟨rfl, rfl⟩
  | none =>
    rw [hfind] at hrun
    cases hrun
    exact .inr ⟨rfl, rfl⟩

/-- A helper whose imports are there is covered by them. -/
theorem yields_helper (h : scene.OnlyComments) (hdialect : scene.dialect = Python.dialect)
    (key : String) {template : String} (hneeds : Needs stock (.helper key template)) :
    (Pass.helper scene.dialect.policy scene.indent key template).Yields final.Before
      (scene.CoveredState stock) (Covered stock) := by
  intro s name t hs hrun _
  obtain ⟨form, hform, rfl, himports⟩ := hneeds
  have hnamed := (scene.named_kept.helper key form.template s).named hs.named
  rw [hrun] at hnamed
  have hfits : scene.dialect.policy.Fits .procedure name := by
    rcases helper_eq_ok hrun with ⟨hfind, -⟩ | ⟨hname, -⟩
    · exact hs.named.helpers hfind
    · have hword : scene.dialect.policy.Fits .procedure
          (s.names.allocate scene.dialect.policy key .procedure).1 := NameTable.fits_allocate key
      rw [← hname]
      show scene.dialect.policy.Fits .procedure ("" ++ _)
      rwa [String.empty_append]
  have hpython : Python.dialect.policy.Fits .procedure name := hdialect ▸ hfits
  refine ⟨covered_of_fits hpython, hnamed, ?_⟩
  rcases helper_eq_ok hrun with ⟨-, rfl⟩ | ⟨-, hentries⟩
  · exact hs.holds
  · exact hs.holds.add (.inr (coveredText_helperText hform himports hpython h.indent)) hentries

section Rendering

variable {one : Ref → Pass Rendered}
  (hone : ∀ target, (one target).Yields final.Before (scene.CoveredState stock)
    (CoveredRendered stock))
include hone

theorem yields_valueText (block : Block Ref) (socket : String) (tier : Tier) (strict : Bool) :
    (scene.valueText one block socket tier strict).Yields final.Before (scene.CoveredState stock)
      (Covered stock) := by
  intro s code t hs hrun ht
  rcases valueText_eq_ok hrun with
    ⟨-, rfl, rfl⟩ | ⟨target, -, ⟨hempty, rfl⟩ | ⟨inner, innerTier, hinner, rfl⟩⟩
  · exact ⟨covered_empty, hs⟩
  · exact ⟨covered_empty, (hone target s _ t hs hempty ht).2⟩
  · obtain ⟨hcovered, hinv⟩ := hone target s _ t hs hinner ht
    have hcovered : Covered stock inner := hcovered
    refine ⟨?_, hinv⟩
    split
    · exact covered_empty
    · split
      · have hopening : Covered stock "(" := .fixed (by decide)
        exact hopening.around (by decide) hcovered (.fixed (by decide)) (by decide)
      · exact hcovered

theorem yields_placeCode
    (hback : ∀ target, (one target).Keeps fun s t => final.Before t → final.Before s)
    (place : Option Ref) :
    (scene.placeCode one place).Yields final.Before (scene.CoveredState stock)
      (CoveredRendered stock) := by
  intro s rendered t hs hrun ht
  cases rendered with
  | value code tier =>
    obtain ⟨ref, -, hvalue⟩ := placeCode_eq_value hrun
    exact hone ref s _ t hs hvalue ht
  | text code =>
    rcases placeCode_eq_text hrun with
      ⟨ref, _, _, -, -, -, -, htext⟩ | ⟨refs, texts, -, htexts, rfl⟩
    · exact hone ref s _ t hs htext ht
    · have hstatement : ∀ ref, (one ref).Yields final.Before (scene.CoveredState stock)
          fun rendered => ∀ text, rendered = .text text → CoveredText stock text := by
        intro ref s rendered t hs hrun ht
        obtain ⟨hcovered, hinv⟩ := hone ref s rendered t hs hrun ht
        exact ⟨fun text heq => by subst heq; exact hcovered, hinv⟩
      obtain ⟨hcovered, hinv⟩ := htexts.yields hback hstatement hs ht
      exact ⟨coveredText_concat hcovered, hinv⟩

theorem yields_bodyText (h : scene.OnlyComments)
    (hback : ∀ target, (one target).Keeps fun s t => final.Before t → final.Before s)
    (block : Block Ref) (socket : String) :
    (scene.bodyText one block socket).Yields final.Before (scene.CoveredState stock)
      (CoveredText stock) := by
  intro s body t hs hrun ht
  obtain ⟨rendered, u, hrendered, hrest⟩ := Pass.bind_eq_ok hrun
  cases rendered with
  | value code tier => cases hrest
  | text code =>
    obtain ⟨rfl, rfl⟩ := Pass.pure_eq_ok hrest
    obtain ⟨hcovered, hinv⟩ := yields_placeCode hone hback _ s _ _ hs hrendered ht
    exact ⟨CoveredText.indented h.indent hcovered, hinv⟩

/-- Requests that have what they need are answered by covered texts. -/
theorem yields_answer (h : scene.OnlyComments) (hdialect : scene.dialect = Python.dialect)
    (hstock : ∀ statement, Recipe.importKey ++ statement ∈ final.keys → statement ∈ stock)
    (hback : ∀ target, (one target).Keeps fun s t => final.Before t → final.Before s)
    (ref : Ref) (block : Block Ref) (request : Request) (hneeds : Needs stock request) :
    (scene.answer one ref block request).Yields final.Before (scene.CoveredState stock)
      (Supplies stock request) := by
  cases request with
  | value socket tier strict => exact yields_valueText hone block socket tier strict
  | body socket loop =>
    cases loop with
    | false => exact yields_bodyText hone h hback block socket
    | true =>
      have hbody := yields_bodyText hone h hback block socket
      intro s body t hs hrun ht
      have hinside : Pass.insideLoop ref (scene.bodyText one block socket) s = (.ok body, t) := hrun
      obtain ⟨u, hu, rfl⟩ := Pass.between_eq_ok hinside
      have hentered := sound_of_eq (t := { s with loops := ref :: s.loops }) hs rfl rfl
      obtain ⟨hcovered, hinv⟩ := hbody _ body u hentered hu ht
      exact ⟨hcovered, sound_of_eq hinv rfl rfl⟩
  | name kind name =>
    intro s text t hs hrun _
    have hinv := preserves_nameOf kind name s text t hs hrun
    obtain ⟨word, hlookup, rfl⟩ := identifier?_eq_some.mp (identifier?_of_nameOf hrun)
    exact ⟨covered_word hdialect (hinv.named.assigned hlookup), hinv⟩
  | freshName kind base =>
    intro s text t hs hrun _
    have hinv := (scene.named_kept.freshName kind base s).named hs.named
    cases hrun
    exact ⟨covered_word hdialect (NameTable.fits_allocate base), hinv, hs.holds.of_eq rfl⟩
  | helper key template => exact yields_helper h hdialect key hneeds
  | define key code =>
    intro s _ t hs hrun ht
    cases hrun
    refine ⟨fun hkey => hstock code (ht ?_), ?_, hs.holds.add hneeds rfl⟩
    · rw [← hkey]
      exact mem_keys_insert s.definitions.entries key code
    · exact (scene.named_kept.define key code s).named hs.named
  | enclosingLoop =>
    intro s reply t hs hrun _
    cases hrun
    exact ⟨trivial, hs⟩
  | markContinue =>
    intro s reply t hs hrun _
    cases hrun
    dsimp only
    split
    · exact ⟨trivial, hs⟩
    · exact ⟨trivial, sound_of_eq hs rfl rfl⟩
  | loopContinued loop =>
    intro s reply t hs hrun _
    cases hrun
    exact ⟨trivial, hs⟩
  | warn warning =>
    intro s reply t hs hrun _
    cases hrun
    exact ⟨trivial, sound_of_eq hs rfl rfl⟩

end Rendering

/-! ### The start -/

/-- What is reserved at the start of a pass is covered. -/
theorem coveredState_reserved (hspeaks : scene.Speaks .python)
    (hrun : scene.reserveNames {} = (.ok (), s)) : scene.CoveredState stock s := by
  obtain ⟨rfl, used, names, developer, hreserved⟩ := reserveNames_spec hrun
  refine ⟨(scene.named_kept.reserveNames {}).named PassState.named_empty, fun entry hentry => ?_⟩
  have hinitial : scene.dialect.initialValue = some "None" := by
    rw [hspeaks.dialect]
    rfl
  rw [hreserved.entries, initialEntries, hinitial] at hentry
  dsimp only at hentry
  split at hentry
  · cases hentry
  · next hsome =>
    obtain rfl := List.mem_singleton.mp hentry
    refine .inr (coveredText_initialLines (by simpa using hsome) fun text htext => ?_)
    obtain ⟨kind, name, hreserves⟩ := hreserved.exists_reserves htext
    obtain ⟨word, rfl, hfits⟩ := hreserves.fits
    exact covered_word hspeaks.dialect hfits

/-! ### Blocks -/

section Blocks

variable (h : scene.OnlyComments) (hcomments : ∀ ref, CoveredText stock (scene.commentLines ref))
include h hcomments

theorem coveredRendered_conclude {rule : Rule} {ref : Ref} {block : Block Ref} {product : Product}
    {rendered : Rendered} (hproduct : CoveredProduct stock product)
    (hrun : scene.conclude rule ref block product = .ok rendered) :
    CoveredRendered stock rendered := by
  unfold conclude at hrun
  split at hrun
  · cases product <;> cases hrun
    exact hproduct
  · cases product with
    | nothing =>
      cases hrun
      exact coveredText_empty
    | text code =>
      cases hrun
      rw [CoveredRendered, h.statementText_eq]
      exact (hcomments ref).append hproduct.oneTrailingNewline
    | value code tier => cases hrun

theorem coveredText_topText (hdialect : scene.dialect = Python.dialect) {ref : Ref}
    {rendered : Rendered} (hrendered : CoveredRendered stock rendered) :
    CoveredText stock (scene.topText ref rendered) := by
  cases rendered with
  | text code => exact hrendered
  | value code tier =>
    unfold topText nakedValue
    dsimp only
    split
    · exact coveredText_empty
    · rw [h.startHook_eq, h.endHook_eq, hdialect, String.empty_append, String.append_empty]
      exact (hcomments ref).append (Covered.wholeLine hrendered)

variable (hspeaks : scene.Speaks .python)
  (hstock : ∀ statement, Recipe.importKey ++ statement ∈ final.keys → statement ∈ stock)
include hspeaks hstock

/-- What a block renders to is covered by the imports of the program, and so is what it
    defines. -/
theorem yields_renderWithin (room : Nat) (ref : Ref) :
    (scene.renderWithin room ref).Yields final.Before (scene.CoveredState stock)
      (CoveredRendered stock) := by
  have hkept := scene.before_kept final
  induction room generalizing ref with
  | zero => exact .throw _
  | succ room ih =>
    intro s rendered t hs hrun ht
    obtain ⟨less, hless, ⟨-, rfl, rfl⟩ |
      ⟨block, rule, product, u, -, -, hlookup, hfollow, rfl, hconclude⟩⟩ := renderWithin_eq_ok hrun
    · exact ⟨coveredText_empty, hs⟩
    · cases hless
      obtain ⟨form, hform, -⟩ := hspeaks.known _ _ hlookup
      rw [hform] at hfollow
      have hrecipe := imports_recipe h hspeaks.dialect ref block (hcomments ref) form
      have hyields := yields_follow hkept (hkept.renderWithin room)
        (yields_answer ih h hspeaks.dialect hstock (hkept.renderWithin room) ref block) hrecipe
      have hentered := sound_of_eq
        (t := { s with depth := s.depth + 1, active := ref :: s.active }) hs rfl rfl
      obtain ⟨hproduct, hinv⟩ := hyields _ product u hentered hfollow ht
      exact ⟨coveredRendered_conclude h hcomments hproduct hconclude, sound_of_eq hinv rfl rfl⟩

/-- The texts of the top blocks are covered by the imports of the program. -/
theorem yields_topTexts (refs : List Ref) :
    (scene.topTexts refs).Yields final.Before (scene.CoveredState stock)
      fun texts => ∀ text ∈ texts, CoveredText stock text := by
  have hkept := scene.before_kept final
  induction refs with
  | nil => exact .pure (by simp)
  | cons ref refs ih =>
    rw [topTexts_cons]
    have hplace : (scene.renderPlace (some ref)).Yields final.Before (scene.CoveredState stock)
        (CoveredRendered stock) :=
      yields_placeCode (yields_renderWithin h hcomments hspeaks hstock _) (hkept.renderWithin _) _
    refine hplace.bind (fun rendered => ?_) fun rendered hrendered => ?_
    · exact hkept.bind (hkept.topTexts refs) fun texts => hkept.pure _
    · refine ih.bind (fun texts => hkept.pure _) fun texts htexts => .pure ?_
      split
      · exact htexts
      · have htext : CoveredText stock (scene.topText ref rendered) :=
          coveredText_topText h hcomments hspeaks.dialect hrendered
        exact List.forall_mem_cons.mpr ⟨htext, htexts⟩

end Blocks

end Scene

end BlockScript
