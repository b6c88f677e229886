import BlockScript.Program
import BlockScript.Proofs.Graph.Links
import BlockScript.Proofs.Names.Pass
import BlockScript.Proofs.Recipe.Modest

/-!
# Definitions during a pass

A pass defines imports, variables, helpers and procedures, each kind under keys of
its own. What is to be shown about the procedures of a program is kept by every
recipe but that of a procedure's definition, and so by whole renderings if it is
kept by that one.

Results:

* `Scene.Tolerates.follow`: a recipe that defines no more than imports and helpers
  keeps what holds of procedures.
-/

namespace BlockScript

open BlockScript.Text Relation

/-! ## Keys -/

/-- Whether a key is that of the definition of a procedure. -/
def isProcedureKey (key : String) : Bool :=
  startsWith "%" key

theorem isProcedureKey_procedureKey (name : String) :
    isProcedureKey (Recipe.procedureKey name) = true := by
  simp [isProcedureKey, startsWith, Recipe.procedureKey]

theorem isProcedureKey_of_import {key : String} (h : startsWith Recipe.importKey key = true) :
    isProcedureKey key = false := by
  obtain ⟨rest, hkey⟩ := List.isPrefixOf_iff_prefix.mp h
  simp [isProcedureKey, startsWith, ← hkey, Recipe.importKey, List.isPrefixOf]

/-- No helper of a language has the key of a procedure. -/
theorem isProcedureKey_of_helper {language : Language} {key : String}
    (h : language.dialect.HasHelper key) : isProcedureKey key = false := by
  rcases h with rfl | ⟨op, helper, hhelper, rfl⟩ | ⟨helper, hhelper, rfl⟩
  · cases language <;> decide
  · cases language <;> cases op <;> first | cases hhelper; decide | cases hhelper
  · cases language <;> first | cases hhelper; decide | cases hhelper

/-! ## Entries -/

/-- Whether all definitions so far have a property. -/
def PassState.Holds (P : String → String → Prop) (state : PassState) : Prop :=
  ∀ entry ∈ state.definitions.entries, P entry.1 entry.2

variable {P : String → String → Prop} {s t : PassState} {α β : Type}

theorem mem_insert {members : List (String × α)} {key : String} {value : α} {entry : String × α}
    (h : entry ∈ Json.insert members key value) : entry ∈ members ∨ entry = (key, value) := by
  induction members with
  | nil => exact .inr (by simpa [Json.insert] using h)
  | cons member rest ih =>
    unfold Json.insert at h
    split at h
    · rcases List.mem_cons.mp h with rfl | h
      · exact .inr rfl
      · exact .inl (List.mem_cons_of_mem _ h)
    · rcases List.mem_cons.mp h with rfl | h
      · exact .inl List.mem_cons_self
      · exact (ih h).imp_left (List.mem_cons_of_mem _)

theorem PassState.Holds.add {key code : String} (h : s.Holds P) (hnew : P key code)
    (hentries : t.definitions.entries = Json.insert s.definitions.entries key code) :
    t.Holds P := by
  intro entry hentry
  rw [hentries] at hentry
  rcases mem_insert hentry with hold | rfl
  · exact h entry hold
  · exact hnew

theorem PassState.Holds.of_eq (h : s.Holds P)
    (hentries : t.definitions.entries = s.definitions.entries) : t.Holds P :=
  fun entry hentry => h entry (hentries ▸ hentry)

/-! ## Steps -/

/-- Whether a step that succeeds keeps a property of the state. -/
def Pass.Preserves (I : PassState → Prop) (p : Pass α) : Prop :=
  ∀ s a t, I s → p s = (.ok a, t) → I t

/-- Whether identifiers fit the language and the definitions have a property. -/
structure PassState.Sound (policy : NamePolicy) (P : String → String → Prop) (state : PassState) :
    Prop where
  named : state.Named policy
  holds : state.Holds P

namespace Pass.Preserves

variable {I : PassState → Prop} {p : Pass α} {f : α → Pass β}

theorem pure (a : α) : Pass.Preserves I (Pure.pure a : Pass α) := by
  intro s b t hs hrun
  obtain ⟨-, rfl⟩ := Pass.pure_eq_ok hrun
  exact hs

theorem throw (failure : Failure) : Pass.Preserves I (MonadExcept.throw failure : Pass α) :=
  fun _ _ _ _ hrun => by cases hrun

theorem ofExcept (x : Except Failure α) : Pass.Preserves I (Pass.ofExcept x) := by
  intro s b t hs hrun
  obtain ⟨-, rfl⟩ := Pass.ofExcept_eq_ok hrun
  exact hs

theorem bind (hp : Pass.Preserves I p) (hf : ∀ a, Pass.Preserves I (f a)) :
    Pass.Preserves I (p >>= f) := by
  intro s b t hs hrun
  obtain ⟨a, u, hfirst, hrest⟩ := Pass.bind_eq_ok hrun
  exact hf a u b t (hp s a u hs hfirst) hrest

end Pass.Preserves

/-! ## Blocks of a workspace -/

namespace Scene

/-- Whether a block belongs to the workspace: it can be reached from a top block. -/
def Placed (scene : Scene) (ref : Ref) : Prop :=
  ∃ top ∈ scene.workspace.tops, ReflTransGen scene.graph.Links top ref

variable {scene : Scene} {ref target : Ref} {block : Block Ref}

theorem Placed.reaches (h : scene.Placed ref) (hreach : ReflTransGen scene.graph.Links ref target) :
    scene.Placed target := by
  obtain ⟨top, htop, hplaced⟩ := h
  exact ⟨top, htop, hplaced.trans hreach⟩

theorem Placed.value {socket : String} (h : scene.Placed ref)
    (hblock : scene.graph.block? ref = some block) (hinput : block.valueInput socket = some target) :
    scene.Placed target :=
  h.reaches (.single (Graph.links_of_mem_values hblock (Block.mem_values_of_valueInput hinput)))

theorem Placed.chain {place : Option Ref} (h : ∀ head, place = some head → scene.Placed head) :
    ∀ target ∈ (scene.graph.chainFrom [] place).1, scene.Placed target := by
  intro target htarget
  obtain ⟨-, head, hhead, hreach⟩ := Graph.of_mem_chainFrom htarget
  exact (h head hhead).reaches hreach

theorem Placed.body {socket : String} (h : scene.Placed ref)
    (hblock : scene.graph.block? ref = some block) :
    ∀ target ∈ (scene.graph.chainFrom [] (block.statementInput socket)).1, scene.Placed target :=
  .chain fun _ hhead => h.reaches (.single
    (Graph.links_of_mem_statements hblock (Block.mem_statements_of_statementInput hhead)))

/-! ## Rendering -/

section Rendering

variable {one : Ref → Pass Rendered} {I : PassState → Prop} {Q : Ref → Prop}
  (hone : ∀ target, Q target → (one target).Preserves I)
include hone

theorem preserves_valueText {socket : String}
    (hplugged : ∀ target, block.valueInput socket = some target → Q target) (tier : Tier)
    (strict : Bool) : (scene.valueText one block socket tier strict).Preserves I := by
  unfold valueText
  cases hinput : block.valueInput socket with
  | none => exact .pure ""
  | some target =>
    refine (hone target (hplugged target hinput)).bind fun rendered => ?_
    cases rendered with
    | text code =>
      dsimp only
      split
      · exact .pure ""
      · exact .throw _
    | value code inner =>
      dsimp only
      split
      · exact .pure ""
      · split
        · exact .pure _
        · exact .pure _

theorem preserves_chainText {refs : List Ref} (hrefs : ∀ target ∈ refs, Q target) :
    (scene.chainText one refs).Preserves I := by
  induction refs with
  | nil => exact .pure ""
  | cons first rest ih =>
    refine (hone first (hrefs first (by simp))).bind fun rendered => ?_
    cases rendered with
    | text code =>
      exact (ih fun target htarget => hrefs target (by simp [htarget])).bind fun _ => .pure _
    | value code inner => exact .throw _

theorem preserves_placeCode {place : Option Ref}
    (hplace : ∀ target ∈ (scene.graph.chainFrom [] place).1, Q target) :
    (scene.placeCode one place).Preserves I := by
  cases place with
  | none => exact .pure _
  | some head =>
    have hchain : Pass.Preserves I
        (scene.chainCode one head >>= fun code => Pure.pure (Rendered.text code)) := by
      refine .bind (.bind (preserves_chainText hone hplace) fun code => ?_) fun _ => .pure _
      split
      · exact .pure _
      · exact .throw _
    unfold placeCode
    dsimp only
    split
    · exact .pure _
    · next block hblock =>
      split
      · refine (Pass.Preserves.ofExcept _).bind fun rule => ?_
        split
        · exact hone head (hplace head (Graph.mem_chainFrom_self hblock))
        · exact hchain
      · exact hchain

theorem preserves_bodyText {socket : String}
    (hbody : ∀ target ∈ (scene.graph.chainFrom [] (block.statementInput socket)).1, Q target) :
    (scene.bodyText one block socket).Preserves I := by
  refine (preserves_placeCode hone hbody).bind fun rendered => ?_
  cases rendered with
  | text code => exact .pure _
  | value code inner => exact .throw _

end Rendering

/-! ## Recipes -/

variable {one : Ref → Pass Rendered} {I : PassState → Prop} {language : Language}

/-- Whether a property of the state is kept by what recipes do of their own, other than
    that of a procedure's definition. -/
structure Tolerates (scene : Scene) (I : PassState → Prop) : Prop where
  nameOf (kind : NameKind) (name : String) :
    (Pass.nameOf scene.dialect.policy kind name).Preserves I
  freshName (kind : NameKind) (base : String) :
    (Pass.freshName scene.dialect.policy kind base).Preserves I
  helper (key template : String) (h : scene.dialect.HasHelper key) :
    (Pass.helper scene.dialect.policy scene.indent key template).Preserves I
  define (key code : String) (h : startsWith Recipe.importKey key = true) :
    (Pass.define key code).Preserves I
  markContinue : Pass.markContinue.Preserves I
  warn (warning : Warning) : (Pass.warn warning).Preserves I

/-- A request that defines no more than imports and helpers. Bodies of loops are apart,
    as the state that they are rendered in is another one. -/
theorem Tolerates.answer (h : scene.Tolerates I)
    (hvalue : ∀ socket tier strict, (scene.valueText one block socket tier strict).Preserves I)
    (hbody : ∀ socket, (scene.bodyText one block socket).Preserves I) {request : Request}
    (hloop : ∀ socket, request = .body socket true →
      (Pass.insideLoop ref (scene.bodyText one block socket)).Preserves I)
    (hmodest : request.Modest scene.dialect) :
    (scene.answer one ref block request).Preserves I := by
  cases request with
  | value socket tier strict => exact hvalue socket tier strict
  | body socket loop =>
    cases loop with
    | false => exact hbody socket
    | true => exact hloop socket rfl
  | name kind name => exact h.nameOf kind name
  | freshName kind base => exact h.freshName kind base
  | helper key template => exact h.helper key template hmodest
  | define key code => exact h.define key code hmodest
  | enclosingLoop =>
    intro s reply t hs hrun
    cases hrun
    exact hs
  | markContinue => exact h.markContinue
  | loopContinued loop =>
    intro s reply t hs hrun
    cases hrun
    exact hs
  | warn warning => exact h.warn warning

/-- A recipe keeps what the answers to its requests keep. -/
theorem preserves_follow_of_only {ask : Request → Prop} {fail : Failure → Prop}
    (hanswer : ∀ request, ask request → (scene.answer one ref block request).Preserves I)
    {recipe : Recipe α} (h : recipe.Only ask fail) :
    (scene.follow one ref block recipe).Preserves I := by
  induction recipe with
  | done result => exact .pure result
  | fail failure => exact .throw failure
  | ask request next ih => exact (hanswer request h.1).bind fun reply => ih reply (h.2 reply)

/-! ## What holds of procedures -/

/-- Whether rendering the blocks of the workspace keeps a property of the state. -/
def AllPreserve (scene : Scene) (I : PassState → Prop) (one : Ref → Pass Rendered) : Prop :=
  ∀ ref, scene.Placed ref → (one ref).Preserves I

/-- A recipe that defines no more than imports and helpers keeps what holds of
    procedures. -/
theorem Tolerates.follow (h : scene.Tolerates I) (hone : scene.AllPreserve I one)
    (hloop : ∀ socket, (scene.bodyText one block socket).Preserves I →
      (Pass.insideLoop ref (scene.bodyText one block socket)).Preserves I)
    (hplaced : scene.Placed ref) (hblock : scene.graph.block? ref = some block)
    {recipe : Recipe α} (hmodest : recipe.Modest scene.dialect) :
    (scene.follow one ref block recipe).Preserves I := by
  have hbody : ∀ socket, (scene.bodyText one block socket).Preserves I :=
    fun socket => preserves_bodyText hone (hplaced.body hblock)
  refine preserves_follow_of_only (fun request hrequest => ?_) hmodest
  exact h.answer
    (fun socket tier strict =>
      preserves_valueText hone (fun _ hinput => hplaced.value hblock hinput) tier strict)
    hbody (fun socket _ => hloop socket (hbody socket)) hrequest

/-- A state with the same identifiers and definitions. -/
theorem sound_of_eq {policy : NamePolicy} (h : s.Sound policy P) (hnames : t.names = s.names)
    (hdefinitions : t.definitions = s.definitions) : t.Sound policy P :=
  ⟨(keepsNames_of_eq (by rw [hnames]) (by rw [hdefinitions])).named h.named,
    h.holds.of_eq (by rw [hdefinitions])⟩

theorem preserves_nameOf (kind : NameKind) (name : String) :
    (Pass.nameOf scene.dialect.policy kind name).Preserves
      (PassState.Sound scene.dialect.policy P) := by
  intro s reply t hs hrun
  have hnamed := (scene.named_kept.nameOf kind name s).named hs.named
  cases hrun
  exact ⟨hnamed, hs.holds.of_eq rfl⟩

/-- Reserving the names of a workspace sets one definition at most, that of the variables
    at the start. -/
theorem preserves_reserveNames
    (hname : ∀ kind name, (Pass.nameOf scene.dialect.policy kind name).Preserves I)
    (hinitial : ∀ code, (Pass.define variablesKey code).Preserves I) :
    scene.reserveNames.Preserves I := by
  have hreserve : ∀ kind names, (scene.reserve kind names).Preserves I := by
    intro kind names
    induction names with
    | nil => exact .pure _
    | cons name names ih => exact (hname kind name).bind fun _ => ih.bind fun _ => .pure _
  have hdefined : ∀ names, (scene.reserveDefined names).Preserves I := by
    intro names
    induction names with
    | nil => exact .pure _
    | cons name names ih =>
      cases name with
      | text content => exact (hname .procedure content).bind fun _ => ih
      | _ => exact .throw _
  refine (Pass.Preserves.ofExcept _).bind fun used => (hreserve _ _).bind fun names =>
    (hreserve _ _).bind fun developer => (hdefined _).bind fun _ => ?_
  split
  · exact .pure _
  · split
    · exact .pure _
    · exact hinitial _

/-- Reserving the names of a workspace defines no procedure. -/
theorem sound_reserveNames (hfree : ∀ key code, isProcedureKey key = false → P key code) :
    scene.reserveNames.Preserves (PassState.Sound scene.dialect.policy P) := by
  refine preserves_reserveNames preserves_nameOf fun code s reply t hs hrun => ?_
  cases hrun
  exact ⟨⟨fun hname => hs.named.assigned hname, fun hname => hs.named.helpers hname⟩,
    hs.holds.add (hfree _ _ (by decide)) rfl⟩

/-- What recipes do of their own keeps what holds of procedures. -/
theorem tolerates_sound (hlanguage : scene.dialect = language.dialect)
    (hfree : ∀ key code, isProcedureKey key = false → P key code) :
    scene.Tolerates (PassState.Sound scene.dialect.policy P) where
  nameOf := preserves_nameOf
  freshName kind base s reply t hs hrun := by
    have hnamed := (scene.named_kept.freshName kind base s).named hs.named
    cases hrun
    exact ⟨hnamed, hs.holds.of_eq rfl⟩
  helper key template hhelper s reply t hs hrun := by
    have hnamed := (scene.named_kept.helper key template s).named hs.named
    have hkey : isProcedureKey key = false := by
      rw [hlanguage] at hhelper
      exact isProcedureKey_of_helper hhelper
    rw [hrun] at hnamed
    refine ⟨hnamed, ?_⟩
    cases hrun
    cases hfind : Json.find? s.definitions.helpers key with
    | some word => exact hs.holds.of_eq rfl
    | none => exact hs.holds.add (hfree key _ hkey) rfl
  define key code himport s reply t hs hrun := by
    have hnamed := (scene.named_kept.define key code s).named hs.named
    cases hrun
    exact ⟨hnamed, hs.holds.add (hfree key code (isProcedureKey_of_import himport)) rfl⟩
  markContinue s reply t hs hrun := by
    cases hrun
    dsimp only
    split
    · exact hs
    · exact sound_of_eq hs rfl rfl
  warn warning s reply t hs hrun := by
    cases hrun
    exact sound_of_eq hs rfl rfl

end Scene

end BlockScript
