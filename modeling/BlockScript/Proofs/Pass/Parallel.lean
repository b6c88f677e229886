import BlockScript.Proofs.Names.Pass
import BlockScript.Proofs.Recipe.Commented

/-!
# Two passes side by side

A pass that writes comments and one that does not go through the same steps. Their states
are the same but for the comments in the definitions, they fail together and in the same
way, and what they write is the same but for comments.

Results:

* `Alongside.bind`: composed steps, where what comes next may rest on both runs.
* `Scene.parallel_follow`: recipes in step are followed side by side.
* `Scene.parallel_placeCode`: what a place renders to.
-/

namespace BlockScript

open BlockScript.Text

/-! ## States -/

/-- Whether a definition is another one with comments. Imports have none. -/
structure NotedEntry (mark : List Char) (entry plain : String × String) : Prop where
  key : entry.1 = plain.1
  text : Annotates mark entry.2.toList plain.2.toList
  imported (h : startsWith Recipe.importKey entry.1 = true) : entry.2 = plain.2

/-- A state with other definitions. -/
def PassState.withEntries (state : PassState) (entries : List (String × String)) : PassState :=
  { state with definitions := { state.definitions with entries } }

/-- Whether a state is another one with comments in its definitions. -/
def Twin (mark : List Char) (policy : NamePolicy) (s t : PassState) : Prop :=
  ∃ entries, t = s.withEntries entries ∧
    List.Forall₂ (NotedEntry mark) s.definitions.entries entries ∧ s.Named policy

/-- Whether two steps end in the same way, with results that are related. -/
inductive Alongside (mark : List Char) (policy : NamePolicy) {α β : Type} (R : α → β → Prop) :
    Except Failure α × PassState → Except Failure β × PassState → Prop
  | ok {a : α} {b : β} {s t : PassState} (h : R a b) (htwin : Twin mark policy s t) :
    Alongside mark policy R (.ok a, s) (.ok b, t)
  | error {failure : Failure} {s t : PassState} (htwin : Twin mark policy s t) :
    Alongside mark policy R (.error failure, s) (.error failure, t)

/-- Whether two steps end in the same way from states that are the same but for comments. -/
def Parallel (mark : List Char) (policy : NamePolicy) {α β : Type} (R : α → β → Prop) (p : Pass α)
    (q : Pass β) : Prop :=
  ∀ s t, Twin mark policy s t → Alongside mark policy R (p s) (q t)

variable {mark : List Char} {policy : NamePolicy} {α β γ δ : Type} {R : α → β → Prop}
  {S : γ → δ → Prop} {s t : PassState}

theorem Twin.named (h : Twin mark policy s t) : t.Named policy := by
  obtain ⟨entries, rfl, -, hnamed⟩ := h
  exact ⟨fun hname => hnamed.assigned hname, fun hname => hnamed.helpers hname⟩

protected theorem Twin.refl (h : s.Named policy) : Twin mark policy s s :=
  ⟨s.definitions.entries, rfl, List.forall₂_same.mpr fun _ _ => ⟨rfl, .refl _, fun _ => rfl⟩, h⟩

/-- Setting a definition. -/
theorem notedEntries_insert {entries plainEntries : List (String × String)} {key code plain : String}
    (h : List.Forall₂ (NotedEntry mark) entries plainEntries)
    (hcode : Annotates mark code.toList plain.toList)
    (himport : startsWith Recipe.importKey key = true → code = plain) :
    List.Forall₂ (NotedEntry mark) (Json.insert entries key code)
      (Json.insert plainEntries key plain) := by
  induction h with
  | nil => exact .cons ⟨rfl, hcode, himport⟩ .nil
  | cons hfirst hrest ih =>
    unfold Json.insert
    rw [hfirst.key]
    split
    · exact .cons ⟨rfl, hcode, himport⟩ hrest
    · exact .cons hfirst ih

/-- Whether a change of the state leaves definitions and identifiers aside. -/
structure Aside (change : PassState → PassState) : Prop where
  withEntries (state : PassState) (entries : List (String × String)) :
    change (state.withEntries entries) = (change state).withEntries entries
  definitions (state : PassState) : (change state).definitions = state.definitions
  names (state : PassState) : (change state).names = state.names

theorem Twin.aside {change : PassState → PassState} (hchange : Aside change)
    (h : Twin mark policy s t) : Twin mark policy (change s) (change t) := by
  obtain ⟨entries, rfl, hentries, hnamed⟩ := h
  refine ⟨entries, hchange.withEntries s entries, ?_, ?_⟩
  · rw [hchange.definitions]
    exact hentries
  · refine (keepsNames_of_eq ?_ ?_).named hnamed
    · rw [hchange.names]
    · rw [hchange.definitions]

/-! ## Composed steps -/

/-- Composed steps, where what comes next may rest on both runs. -/
theorem Alongside.bind {p : Pass α} {q : Pass β} {f : α → Pass γ} {g : β → Pass δ}
    (h : Alongside mark policy R (p s) (q t))
    (hnext : ∀ a b u v, p s = (.ok a, u) → q t = (.ok b, v) → R a b → Twin mark policy u v →
      Alongside mark policy S (f a u) (g b v)) :
    Alongside mark policy S ((p >>= f) s) ((q >>= g) t) := by
  rw [Pass.bind_apply, Pass.bind_apply]
  generalize hfirst : p s = first at h
  generalize hsecond : q t = second at h
  cases h with
  | ok hresult htwin => exact hnext _ _ _ _ hfirst hsecond hresult htwin
  | error htwin => exact .error htwin

namespace Parallel

variable {p : Pass α} {q : Pass β} {f : α → Pass γ} {g : β → Pass δ}

theorem pure {a : α} {b : β} (h : R a b) : Parallel mark policy R (Pure.pure a) (Pure.pure b) :=
  fun _ _ htwin => .ok h htwin

theorem throw (failure : Failure) : Parallel mark policy R (MonadExcept.throw failure : Pass α)
    (MonadExcept.throw failure : Pass β) :=
  fun _ _ htwin => .error htwin

theorem ofExcept (x : Except Failure α) :
    Parallel mark policy Eq (Pass.ofExcept x) (Pass.ofExcept x) := by
  cases x with
  | ok a => exact .pure rfl
  | error failure => exact .throw failure

theorem bind (h : Parallel mark policy R p q)
    (hnext : ∀ a b, R a b → Parallel mark policy S (f a) (g b)) :
    Parallel mark policy S (p >>= f) (q >>= g) :=
  fun s t htwin => (h s t htwin).bind fun a b u v _ _ hab huv => hnext a b hab u v huv

/-- A step between a change of the state and its undoing. -/
theorem between {enter leave : PassState → PassState} (henter : Aside enter) (hleave : Aside leave)
    (h : Parallel mark policy R p q) :
    Parallel mark policy R (Pass.between enter leave p) (Pass.between enter leave q) := by
  intro s t htwin
  unfold Pass.between
  have hinside := h _ _ (htwin.aside henter)
  generalize p (enter s) = first at hinside
  generalize q (enter t) = second at hinside
  cases hinside with
  | ok hresult htwin => exact .ok hresult (htwin.aside hleave)
  | error htwin => exact .error (htwin.aside hleave)

theorem entering (ref : Ref) (h : Parallel mark policy R p q) :
    Parallel mark policy R (Pass.entering ref p) (Pass.entering ref q) :=
  h.between ⟨fun _ _ => rfl, fun _ => rfl, fun _ => rfl⟩ ⟨fun _ _ => rfl, fun _ => rfl, fun _ => rfl⟩

theorem insideLoop (loop : Ref) (h : Parallel mark policy R p q) :
    Parallel mark policy R (Pass.insideLoop loop p) (Pass.insideLoop loop q) :=
  h.between ⟨fun _ _ => rfl, fun _ => rfl, fun _ => rfl⟩ ⟨fun _ _ => rfl, fun _ => rfl, fun _ => rfl⟩

/-! ## Single steps -/

theorem nameOf (kind : NameKind) (name : String) :
    Parallel mark policy Eq (Pass.nameOf policy kind name) (Pass.nameOf policy kind name) := by
  rintro s t ⟨entries, rfl, hentries, hnamed⟩
  exact .ok rfl ⟨entries, rfl, hentries, (keepsNames_nameOf name s).named hnamed⟩

theorem freshName (kind : NameKind) (base : String) :
    Parallel mark policy Eq (Pass.freshName policy kind base) (Pass.freshName policy kind base) := by
  rintro s t ⟨entries, rfl, hentries, hnamed⟩
  exact .ok rfl ⟨entries, rfl, hentries, (keepsNames_freshName base s).named hnamed⟩

theorem helper (unit key template : String) :
    Parallel mark policy Eq (Pass.helper policy unit key template)
      (Pass.helper policy unit key template) := by
  rintro s t ⟨entries, rfl, hentries, hnamed⟩
  have hlater : (Pass.helper policy unit key template s).2.Named policy :=
    (keepsNames_helper unit key template s).named hnamed
  have hrun : ∀ state : PassState, Pass.helper policy unit key template state =
      (.ok (state.definitions.provide policy state.names key template unit).1, { state with
        names := (state.definitions.provide policy state.names key template unit).2.1
        definitions := (state.definitions.provide policy state.names key template unit).2.2 }) :=
    fun _ => rfl
  rw [hrun] at hlater
  rw [hrun, hrun]
  revert hlater
  unfold Definitions.provide
  show _ → Alongside mark policy Eq _ _
  cases hfind : Json.find? s.definitions.helpers key with
  | some name =>
    have hfind' : Json.find? (s.withEntries entries).definitions.helpers key = some name := hfind
    rw [hfind']
    exact fun hlater => .ok rfl ⟨entries, rfl, hentries, hlater⟩
  | none =>
    have hfind' : Json.find? (s.withEntries entries).definitions.helpers key = none := hfind
    rw [hfind']
    exact fun hlater => .ok rfl
      ⟨_, rfl, notedEntries_insert hentries (.refl _) fun _ => rfl, hlater⟩

theorem define {key code plain : String} (hcode : Annotates mark code.toList plain.toList)
    (himport : startsWith Recipe.importKey key = true → code = plain) :
    Parallel mark policy Eq (Pass.define key code) (Pass.define key plain) := by
  rintro s t ⟨entries, rfl, hentries, hnamed⟩
  exact .ok rfl ⟨Json.insert entries key plain, rfl, notedEntries_insert hentries hcode himport,
    fun hname => hnamed.assigned hname, fun hname => hnamed.helpers hname⟩

theorem modify {change : PassState → PassState} (hchange : Aside change) :
    Parallel mark policy Eq (modify change : Pass Unit) (modify change : Pass Unit) :=
  fun _ _ htwin => .ok rfl (htwin.aside hchange)

/-- What does not depend on definitions is the same in both states. -/
theorem read {look : PassState → α}
    (h : ∀ (state : PassState) (entries : List (String × String)),
      look (state.withEntries entries) = look state) :
    Parallel mark policy Eq (do return look (← get)) (do return look (← get)) := by
  rintro s t ⟨entries, rfl, hentries, hnamed⟩
  exact .ok (h s entries).symm ⟨entries, rfl, hentries, hnamed⟩

theorem markContinue : Parallel mark policy Eq Pass.markContinue Pass.markContinue := by
  refine .modify ⟨fun state entries => ?_, fun state => ?_, fun state => ?_⟩
  all_goals
    obtain ⟨names, definitions, depth, active, loops, continued, warnings⟩ := state
    cases loops <;> rfl

theorem warn (warning : Warning) :
    Parallel mark policy Eq (Pass.warn warning) (Pass.warn warning) :=
  .modify ⟨fun _ _ => rfl, fun _ => rfl, fun _ => rfl⟩

end Parallel

/-! ## Rendering side by side -/

/-- Whether what a block renders to is the same but for comments. -/
inductive Rendered.Noted (mark : List Char) : Rendered → Rendered → Prop
  | text {code plain : String} (h : Text.Noted mark code plain) :
    Rendered.Noted mark (.text code) (.text plain)
  | value (code : String) (tier : Tier) : Rendered.Noted mark (.value code tier) (.value code tier)

namespace Scene

variable {scene : Scene} {language : Language} {one plainOne : Ref → Pass Rendered}
  {block : Block Ref}
  (hone : ∀ ref, Parallel mark policy (Rendered.Noted mark) (one ref) (plainOne ref))
include hone

theorem parallel_valueText (socket : String) (tier : Tier) (strict : Bool) :
    Parallel mark policy Eq (scene.valueText one block socket tier strict)
      (scene.withoutComments.valueText plainOne block socket tier strict) := by
  unfold valueText
  cases block.valueInput socket with
  | none => exact .pure rfl
  | some target =>
    refine (hone target).bind fun rendered plain hrendered => ?_
    cases hrendered with
    | @text code plainCode hcode =>
      dsimp only
      by_cases hempty : code = ""
      · rw [if_pos hempty, if_pos (hcode.eq_empty_iff.mp hempty)]
        exact .pure rfl
      · rw [if_neg hempty, if_neg fun hno => hempty (hcode.eq_empty_iff.mpr hno)]
        exact .throw _
    | value code inner =>
      dsimp only
      split
      · exact .pure rfl
      · split
        · exact .pure rfl
        · exact .pure rfl

theorem parallel_chainText (refs : List Ref) :
    Parallel mark policy (Text.Noted mark) (scene.chainText one refs)
      (scene.withoutComments.chainText plainOne refs) := by
  induction refs with
  | nil => exact .pure .empty
  | cons ref refs ih =>
    refine (hone ref).bind fun rendered plain hrendered => ?_
    cases hrendered with
    | text hcode => exact ih.bind fun rest plainRest hrest => .pure (hcode.append hrest)
    | value code inner => exact .throw _

theorem parallel_chainCode (ref : Ref) :
    Parallel mark policy (Text.Noted mark) (scene.chainCode one ref)
      (scene.withoutComments.chainCode plainOne ref) := by
  refine (parallel_chainText hone _).bind fun code plain hcode => ?_
  rw [graph_withoutComments]
  cases (scene.graph.chainFrom [] (some ref)).2 with
  | none => exact .pure hcode
  | some repeated => exact .throw _

/-- What a place renders to. -/
theorem parallel_placeCode (place : Option Ref) :
    Parallel mark policy (Rendered.Noted mark) (scene.placeCode one place)
      (scene.withoutComments.placeCode plainOne place) := by
  have hchain : ∀ ref, Parallel mark policy (Rendered.Noted mark)
      (scene.chainCode one ref >>= fun code => Pure.pure (Rendered.text code))
      (scene.withoutComments.chainCode plainOne ref >>= fun code =>
        Pure.pure (Rendered.text code)) := fun ref =>
    (parallel_chainCode hone ref).bind fun code plain hcode => .pure (.text hcode)
  unfold placeCode
  cases place with
  | none => exact .pure (.text .empty)
  | some ref =>
    dsimp only
    rw [graph_withoutComments]
    cases scene.graph.block? ref with
    | none => exact .pure (.text .empty)
    | some block =>
      dsimp only
      split
      · refine (Parallel.ofExcept _).bind fun rule _ heq => ?_
        subst heq
        split
        · exact hone ref
        · exact hchain ref
      · exact hchain ref

variable (h : scene.OnlyComments)
include h

theorem parallel_bodyText (socket : String) :
    Parallel mark policy (Text.Noted mark) (scene.bodyText one block socket)
      (scene.withoutComments.bodyText plainOne block socket) := by
  refine (parallel_placeCode hone _).bind fun rendered plain hrendered => ?_
  cases hrendered with
  | text hcode => exact .pure (hcode.indentLines h.indent)
  | value code tier => exact .throw _

variable (block) (hpolicy : scene.dialect.policy = policy)
include hpolicy

/-- The answers to a request. -/
theorem parallel_answer (ref : Ref) (request : Request) :
    Parallel mark policy (request.Replies mark) (scene.answer one ref block request)
      (scene.withoutComments.answer plainOne ref block request) := by
  subst hpolicy
  cases request with
  | value socket tier strict => exact parallel_valueText hone socket tier strict
  | body socket loop =>
    have hbody : Parallel mark scene.dialect.policy (Text.Noted mark)
        (scene.bodyText one block socket) (scene.withoutComments.bodyText plainOne block socket) :=
      parallel_bodyText hone h socket
    cases loop with
    | true => exact hbody.insideLoop ref
    | false => exact hbody
  | name kind name => exact .nameOf kind name
  | freshName kind base => exact .freshName kind base
  | helper key template => exact .helper _ key template
  | define key code => exact .define (.refl _) fun _ => rfl
  | enclosingLoop => exact .read fun _ _ => rfl
  | markContinue => exact .markContinue
  | loopContinued loop => exact .read fun _ _ => rfl
  | warn warning => exact .warn warning

/-- Recipes in step are followed side by side. -/
theorem parallel_follow {R : α → β → Prop} (ref : Ref) {recipe : Recipe α} {plain : Recipe β}
    (hrecipe : recipe.InStep mark R plain) :
    Parallel mark policy R (scene.follow one ref block recipe)
      (scene.withoutComments.follow plainOne ref block plain) := by
  induction hrecipe with
  | done hresult => exact .pure hresult
  | fail failure => exact .throw failure
  | ask request _ ih =>
    exact (parallel_answer block hone h hpolicy ref request).bind fun reply plainReply hreply =>
      ih reply plainReply hreply
  | define key hcode himport _ ih =>
    exact (Parallel.define hcode himport).bind fun _ _ _ => ih

end Scene

end BlockScript
