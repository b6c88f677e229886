import Mathlib.Data.List.Induction
import BlockScript.Proofs.Graph.Links
import BlockScript.Proofs.Names.Course
import BlockScript.Proofs.Pass.Journal

/-!
# What a journal leads to

An event comes with an answer, and that answer stays true: a logical name keeps the
identifier that was given out for it, a helper its name, and an identifier of its own is
never given out again. The words of different names are different, whichever came first.

The definitions are those that the events set. They stand in the order in which their keys
were first set, each with the text that was set last. The text of a helper is set at the
first request, so it is set once unless a definition is set under the key of the helper.

Results:

* `Ledger.Replays.follows`, `Ledger.Replays.answers`: identifiers at the end of a replay.
* `Ledger.Replays.gathers`: definitions at the end of a replay.
* `Ledger.Replays.registered_helper`: what a replay sets under the key of a helper.
-/

namespace BlockScript

open BlockScript.Text

variable {policy : NamePolicy} {unit : String}

namespace Ledger

variable {first second ledger : Ledger} {event : Event} {events : List Event}

/-! ## Identifiers -/

/-- Whether a word is the name of a function, which is a procedure or a helper. -/
inductive IsFunction (ledger : Ledger) (word : String) : Prop where
  | procedure {name : String} (h : ledger.names.assigned.lookup (.procedure, name) = some word)
  | helper {key : String} (h : Json.find? ledger.definitions.helpers key = some word)

/-- Whether identifiers are kept apart: every word belongs to one logical name, to one
    helper or to neither, and functions differ in more than case where case does not count. -/
structure Apart (policy : NamePolicy) (ledger : Ledger) : Prop where
  consistent : ledger.names.Consistent
  withheld {key word : String} (h : Json.find? ledger.definitions.helpers key = some word) :
    ledger.names.Withheld word
  fits {key word : String} (h : Json.find? ledger.definitions.helpers key = some word) :
    policy.Fits .procedure word
  injective {key key' word : String}
    (h : Json.find? ledger.definitions.helpers key = some word)
    (h' : Json.find? ledger.definitions.helpers key' = some word) : key = key'
  folded (hcase : .procedure ∈ policy.caseInsensitive) {word word' : String}
    (h : ledger.IsFunction word) (h' : ledger.IsFunction word') (hlower : lower word = lower word') :
    word = word'

/-- Whether the answer that an event comes with is that of a ledger. -/
def Answers (policy : NamePolicy) (ledger : Ledger) : Event → Prop
  | .named kind name text => ∃ word,
      ledger.names.assigned.lookup (kind, lower name) = some word ∧ text = policy.sign kind ++ word
  | .own kind _ text => ∃ word, text = policy.sign kind ++ word ∧ ledger.names.Withheld word ∧
      ∀ key, Json.find? ledger.definitions.helpers key ≠ some word
  | .helper key _ name _ => Json.find? ledger.definitions.helpers key = some name
  | .defined .. | .rendered .. | .top .. => True

theorem apart_empty (policy : NamePolicy) : Apart policy {} where
  consistent := NameTable.consistent_empty
  withheld h := by cases h
  fits h := by cases h
  injective h := by cases h
  folded _ _ _ h := by
    rcases h with h | h
    · simp at h
    · cases h

theorem IsFunction.taken (h : ledger.Apart policy) {word : String} (hword : ledger.IsFunction word) :
    word ∈ ledger.names.taken := by
  rcases hword with hname | hkey
  · exact h.consistent.taken hname
  · exact (h.withheld hkey).taken

/-- The name of a new function differs from all that was given out, in more than case where
    case does not count. -/
theorem lower_allocate_ne (table : NameTable) (name : String) {kind : NameKind}
    (hcase : kind ∈ policy.caseInsensitive) {word : String} (h : word ∈ table.taken) :
    lower word ≠ lower (table.allocate policy name kind).1 := by
  have hfree := NameTable.clashes_allocate policy table name kind
  simp only [NameTable.clashes, NameTable.avoided, Bool.or_eq_false_iff, Bool.and_eq_false_iff,
    List.any_eq_false, decide_eq_true_eq, List.mem_append] at hfree
  rcases hfree.2 with hno | hnone
  · exact absurd (by simpa using hcase) (by simpa using hno)
  · exact hnone word (.inl h)

/-- Adding functions under one word that is new keeps functions apart. -/
theorem folded_of_new (h : first.Apart policy) (hcase : .procedure ∈ policy.caseInsensitive)
    {new : String} (hnew : ∀ word ∈ first.names.taken, lower word ≠ lower new)
    (hfunctions : ∀ word, second.IsFunction word → word = new ∨ first.IsFunction word)
    {word word' : String} (hword : second.IsFunction word) (hword' : second.IsFunction word')
    (hlower : lower word = lower word') : word = word' := by
  rcases hfunctions _ hword with rfl | hold
  · rcases hfunctions _ hword' with rfl | hold'
    · rfl
    · exact absurd hlower.symm (hnew _ (hold'.taken h))
  · rcases hfunctions _ hword' with rfl | hold'
    · exact absurd hlower (hnew _ (hold.taken h))
    · exact h.folded hcase hold hold' hlower

/-! ### Steps -/

/-- Whether a ledger is kept apart by a step, which answers its event and what was answered
    before. -/
structure Follows (policy : NamePolicy) (first second : Ledger) : Prop where
  apart (h : first.Apart policy) : second.Apart policy
  answers (h : first.Apart policy) (event : Event) (hevent : first.Answers policy event) :
    second.Answers policy event

theorem Follows.refl (ledger : Ledger) : Follows policy ledger ledger :=
  ⟨id, fun _ _ => id⟩

theorem Follows.trans {third : Ledger} (h : Follows policy first second)
    (h' : Follows policy second third) : Follows policy first third :=
  ⟨fun hfirst => h'.apart (h.apart hfirst),
    fun hfirst event hevent => h'.answers (h.apart hfirst) event (h.answers hfirst event hevent)⟩

/-- What was answered stays so if names and helpers do. -/
theorem answers_of_extends (hnames : first.names.Extends second.names)
    (hhelpers : ∀ key word, Json.find? first.definitions.helpers key = some word →
      Json.find? second.definitions.helpers key = some word)
    (hnew : ∀ key word, Json.find? second.definitions.helpers key = some word →
      word ∈ first.names.taken → Json.find? first.definitions.helpers key = some word)
    (hevent : first.Answers policy event) : second.Answers policy event := by
  cases event with
  | named kind name text =>
    obtain ⟨word, hlookup, htext⟩ := hevent
    exact ⟨word, hnames.assigned hlookup, htext⟩
  | own kind base text =>
    obtain ⟨word, htext, hwithheld, hno⟩ := hevent
    exact ⟨word, htext, hnames.withheld hwithheld,
      fun key hkey => hno key (hnew key word hkey hwithheld.taken)⟩
  | helper key template name text => exact hhelpers key name hevent
  | _ => trivial

/-- A step that changes nothing but the names. -/
theorem follows_names {names : NameTable} (hextends : ledger.names.Extends names)
    (hfolded : ledger.Apart policy → .procedure ∈ policy.caseInsensitive → ∀ word word',
      IsFunction { ledger with names := names } word →
        IsFunction { ledger with names := names } word' → lower word = lower word' → word = word') :
    Follows policy ledger { ledger with names := names } where
  apart h := ⟨hextends.consistent h.consistent, fun hkey => hextends.withheld (h.withheld hkey),
    h.fits, h.injective, fun hcase _ _ => hfolded h hcase _ _⟩
  answers _ _ := answers_of_extends hextends (fun _ _ => id) fun _ _ hkey _ => hkey

/-- Only a new name of a procedure adds a function. -/
theorem isFunction_get {kind : NameKind} {name word : String}
    (h : IsFunction { ledger with names := (ledger.names.get policy name kind).2 } word) :
    ledger.IsFunction word ∨ kind = .procedure ∧
      ledger.names.assigned.lookup (.procedure, lower name) = none ∧
        word = (ledger.names.allocate policy name .procedure).1 := by
  rcases h with hassigned | hkey
  · cases hlookup : ledger.names.assigned.lookup (kind, lower name) with
    | some old =>
      simp only [NameTable.get, hlookup] at hassigned
      exact .inl (.procedure hassigned)
    | none =>
      simp only [NameTable.get, hlookup] at hassigned
      replace hassigned : List.lookup _ (((kind, lower name),
        (ledger.names.allocate policy name kind).1) :: ledger.names.assigned) = some word := hassigned
      rw [List.lookup_cons] at hassigned
      split at hassigned
      · next heq =>
        obtain ⟨rfl, -⟩ := Prod.mk.inj (eq_of_beq heq)
        exact .inr ⟨rfl, hlookup, (Option.some.inj hassigned).symm⟩
      · exact .inl (.procedure hassigned)
  · exact .inl (.helper hkey)

theorem follows_get (kind : NameKind) (name : String) (ledger : Ledger) :
    Follows policy ledger { ledger with names := (ledger.names.get policy name kind).2 } := by
  refine follows_names (NameTable.extends_get name) fun h hcase word word' hword hword' hlower => ?_
  by_cases hnew : kind = .procedure ∧
      ledger.names.assigned.lookup (.procedure, lower name) = none
  · refine folded_of_new h hcase (fun _ => lower_allocate_ne ledger.names name hcase)
      (fun word hfunction => ?_) hword hword' hlower
    rcases isFunction_get hfunction with hold | ⟨-, -, hword⟩
    · exact .inr hold
    · exact .inl hword
  · refine h.folded hcase ?_ ?_ hlower
    · exact (isFunction_get hword).resolve_right fun hadded => hnew ⟨hadded.1, hadded.2.1⟩
    · exact (isFunction_get hword').resolve_right fun hadded => hnew ⟨hadded.1, hadded.2.1⟩

theorem follows_distinct (kind : NameKind) (base : String) (ledger : Ledger) :
    Follows policy ledger { ledger with names := (ledger.names.distinct policy base kind).2 } := by
  refine follows_names (NameTable.extends_distinct base) fun h hcase word word' hword hword' => ?_
  have hold : ∀ {word}, IsFunction
      { ledger with names := (ledger.names.distinct policy base kind).2 } word →
      ledger.IsFunction word := by
    rintro word (hassigned | hkey)
    · exact .procedure hassigned
    · exact .helper hkey
  exact h.folded hcase (hold hword) (hold hword')

/-- Whether a helper's name is the new one or an old one. -/
theorem find?_insert_cases {helpers : List (String × String)} {key name other word : String}
    (h : Json.find? (Json.insert helpers key name) other = some word) :
    (key = other ∧ name = word) ∨ Json.find? helpers other = some word := by
  rw [find?_insert] at h
  split at h
  · next heq => exact .inl ⟨heq, Option.some.inj h⟩
  · exact .inr h

section FirstRequest

variable {key name : String} {names : NameTable} {definitions : Definitions}
  (hname : ledger.names.distinct policy key .procedure = (name, names))
  (hhelpers : definitions.helpers = Json.insert ledger.definitions.helpers key name)
include hname hhelpers

/-- The first request for a helper gives it a word of its own. -/
theorem apart_helper (h : ledger.Apart policy) : Apart policy ⟨names, definitions⟩ := by
  obtain rfl : names = (ledger.names.distinct policy key .procedure).2 := by rw [hname]
  have hextends : ledger.names.Extends (ledger.names.distinct policy key .procedure).2 :=
    NameTable.extends_distinct key
  obtain rfl : (ledger.names.allocate policy key .procedure).1 = name := by
    simpa [NameTable.distinct, NamePolicy.sign] using congrArg Prod.fst hname
  have hnew := NameTable.allocate_notTaken policy ledger.names key .procedure
  have hcases := fun {other word : String}
    (h : Json.find? definitions.helpers other = some word) => find?_insert_cases (hhelpers ▸ h)
  refine {
    consistent := hextends.consistent h.consistent
    withheld := fun hkey => ?withheld
    fits := fun hkey => ?fits
    injective := fun hkey hkey' => ?injective
    folded := fun hcase _ _ hfunction hfunction' => ?folded }
  case withheld =>
    rcases hcases hkey with ⟨-, rfl⟩ | hkey
    · obtain ⟨word, hsigned, -, -, hwithheld⟩ :=
        @NameTable.withheld_distinct policy _ .procedure h.consistent key
      rw [hname] at hsigned
      obtain rfl : _ = word := by simpa [NamePolicy.sign] using hsigned
      exact hwithheld
    · exact hextends.withheld (h.withheld hkey)
  case fits =>
    rcases hcases hkey with ⟨-, rfl⟩ | hkey
    · exact NameTable.fits_allocate key
    · exact h.fits hkey
  case injective =>
    rcases hcases hkey with ⟨rfl, rfl⟩ | hkey
    · rcases hcases hkey' with ⟨rfl, -⟩ | hkey'
      · rfl
      · exact absurd (h.withheld hkey').taken hnew
    · rcases hcases hkey' with ⟨rfl, rfl⟩ | hkey'
      · exact absurd (h.withheld hkey).taken hnew
      · exact h.injective hkey hkey'
  case folded =>
    refine folded_of_new h hcase (fun _ => lower_allocate_ne ledger.names key hcase)
      (fun word hword => ?_) hfunction hfunction'
    rcases hword with hassigned | hkey
    · exact .inr (.procedure hassigned)
    · exact (hcases hkey).imp (fun heq => heq.2.symm) .helper

theorem follows_helper (hfind : Json.find? ledger.definitions.helpers key = none) :
    Follows policy ledger ⟨names, definitions⟩ := by
  refine ⟨apart_helper hname hhelpers, fun _ event => ?_⟩
  obtain rfl : names = (ledger.names.distinct policy key .procedure).2 := by rw [hname]
  obtain rfl : (ledger.names.allocate policy key .procedure).1 = name := by
    simpa [NameTable.distinct, NamePolicy.sign] using congrArg Prod.fst hname
  refine answers_of_extends (NameTable.extends_distinct key) (fun other word hother => ?_)
    fun other word hother htaken => ?_
  · have hne : key ≠ other := by
      rintro rfl
      rw [hfind] at hother
      cases hother
    show Json.find? definitions.helpers other = some word
    rw [hhelpers, find?_insert, if_neg hne, hother]
  · rcases find?_insert_cases (hhelpers ▸ hother) with ⟨-, rfl⟩ | hother
    · exact absurd htaken (NameTable.allocate_notTaken policy ledger.names key .procedure)
    · exact hother

end FirstRequest

/-- Names and helpers are all that counts. -/
theorem follows_of_eq (hnames : second.names = first.names)
    (hhelpers : second.definitions.helpers = first.definitions.helpers) :
    Follows policy first second := by
  obtain ⟨names, definitions⟩ := second
  obtain ⟨entries, helpers⟩ := definitions
  cases hnames
  cases hhelpers
  constructor
  · intro h
    have hold : ∀ {word}, IsFunction ⟨first.names, ⟨entries, first.definitions.helpers⟩⟩ word →
        first.IsFunction word := by
      rintro word (hassigned | hkey)
      · exact .procedure hassigned
      · exact .helper hkey
    exact ⟨h.consistent, h.withheld, h.fits, h.injective,
      fun hcase _ _ hword hword' => h.folded hcase (hold hword) (hold hword')⟩
  · intro _ event hevent
    cases event <;> exact hevent

/-- A step keeps identifiers apart and stands by the answers given before. -/
theorem Step.follows (h : Step policy unit first event second) : Follows policy first second := by
  cases h with
  | named kind name => exact follows_get kind name first
  | own kind base => exact follows_distinct kind base first
  | helperFirst template hfind hname => exact follows_helper hname rfl hfind
  | helperAgain | defined | rendered | top => exact follows_of_eq rfl rfl

/-- A step answers its own event. -/
theorem Step.answers (h : Step policy unit first event second) (hfirst : first.Apart policy) :
    second.Answers policy event := by
  cases h with
  | named kind name =>
    show ∃ word, _
    unfold NameTable.get
    dsimp only
    cases hlookup : first.names.assigned.lookup (kind, lower name) with
    | some word => exact ⟨word, hlookup, rfl⟩
    | none => exact ⟨_, List.lookup_cons_self, rfl⟩
  | own kind base =>
    obtain ⟨word, htext, -, hnew, hwithheld⟩ :=
      @NameTable.withheld_distinct policy _ kind hfirst.consistent base
    exact ⟨word, htext, hwithheld, fun key hkey => hnew (hfirst.withheld hkey).taken⟩
  | helperAgain template hfind => exact hfind
  | helperFirst template hfind hname =>
    show Json.find? (Json.insert _ _ _) _ = _
    rw [find?_insert, if_pos rfl]
  | defined | rendered | top => trivial

/-! ### Replays -/

/-- A replay keeps identifiers apart and stands by the answers given before. -/
theorem Replays.follows (h : Replays policy unit first events second) :
    Follows policy first second := by
  induction h with
  | nil ledger => exact .refl ledger
  | cons h _ ih => exact h.follows.trans ih

/-- At the end of a replay all answers that were given are true. -/
theorem Replays.answers (h : Replays policy unit first events second) (hfirst : first.Apart policy)
    (hevent : event ∈ events) : second.Answers policy event := by
  induction h with
  | nil => cases hevent
  | cons h hrest ih =>
    rcases List.mem_cons.mp hevent with rfl | hlater
    · exact hrest.follows.answers (h.follows.apart hfirst) _ (h.answers hfirst)
    · exact ih (h.follows.apart hfirst) hlater

end Ledger

/-! ## Definitions -/

/-- The definition that an event sets, if it sets one. -/
def Event.entry? : Event → Option (String × String)
  | .helper key _ _ text => text.map fun text => (key, text)
  | .defined _ key code => some (key, code)
  | .named .. | .own .. | .rendered .. | .top .. => none

/-- The definitions that events set, in order. -/
def registered (events : List Event) : List (String × String) :=
  events.filterMap Event.entry?

@[simp]
theorem registered_append (events later : List Event) :
    registered (events ++ later) = registered events ++ registered later :=
  List.filterMap_append

/-- Whether definitions are those that were set: they stand in the order in which their keys
    were first set, each with the text that was set last. -/
structure Gathers (set entries : List (String × String)) : Prop where
  keys : entries.map Prod.fst = (set.map Prod.fst).eraseDups
  last (key : String) : Json.find? entries key = set.reverse.lookup key

theorem eraseDups_concat {α : Type} [BEq α] [LawfulBEq α] (items : List α) (item : α) :
    (items ++ [item]).eraseDups =
      if item ∈ items then items.eraseDups else items.eraseDups ++ [item] := by
  rw [List.eraseDups_append]
  split
  · next h => simp [List.removeAll, h]
  · next h => simp [List.removeAll, h, List.eraseDups_cons]

theorem eraseDups_map {α β : Type} [BEq α] [LawfulBEq α] [BEq β] [LawfulBEq β] {f : α → β}
    (hf : Function.Injective f) (items : List α) :
    (items.map f).eraseDups = items.eraseDups.map f := by
  induction items using List.reverseRecOn with
  | nil => rfl
  | append_singleton items item ih =>
    rw [List.map_append, List.map_singleton, eraseDups_concat, eraseDups_concat, ih]
    by_cases hmem : item ∈ items
    · rw [if_pos hmem, if_pos ((List.mem_map_of_injective hf).mpr hmem)]
    · rw [if_neg hmem, if_neg (mt (List.mem_map_of_injective hf).mp hmem), List.map_append,
        List.map_singleton]

theorem keys_insert {α : Type} (members : List (String × α)) (key : String) (value : α) :
    (Json.insert members key value).map Prod.fst =
      if key ∈ members.map Prod.fst then members.map Prod.fst
      else members.map Prod.fst ++ [key] := by
  induction members with
  | nil => rfl
  | cons member rest ih =>
    unfold Json.insert
    by_cases hkey : member.1 = key
    · simp [hkey]
    · rw [if_neg hkey, List.map_cons, ih, List.map_cons]
      by_cases hrest : key ∈ rest.map Prod.fst
      · rw [if_pos hrest, if_pos (List.mem_cons_of_mem _ hrest)]
      · have hnew : key ∉ member.1 :: rest.map Prod.fst :=
          List.not_mem_cons_of_ne_of_not_mem (Ne.symm hkey) hrest
        rw [if_neg hrest, if_neg hnew, List.cons_append]

namespace Gathers

variable {set entries : List (String × String)}

theorem nil : Gathers [] [] :=
  ⟨rfl, fun _ => rfl⟩

/-- One more definition that is set. -/
theorem insert (h : Gathers set entries) (key code : String) :
    Gathers (set ++ [(key, code)]) (Json.insert entries key code) := by
  refine ⟨?_, fun other => ?_⟩
  · simp only [keys_insert, h.keys, List.map_append, List.map_singleton, eraseDups_concat,
      List.mem_eraseDups]
  · rw [find?_insert, h.last, List.reverse_append, List.reverse_singleton, List.singleton_append,
      List.lookup_cons]
    by_cases hkey : key = other
    · rw [if_pos hkey, hkey, beq_self_eq_true]
    · rw [if_neg hkey, beq_false_of_ne (Ne.symm hkey)]

theorem nodup (h : Gathers set entries) : (entries.map Prod.fst).Nodup := by
  rw [h.keys]
  clear h
  induction set using List.reverseRecOn with
  | nil => exact List.nodup_nil
  | append_singleton set entry ih =>
    rw [List.map_append, List.map_singleton, eraseDups_concat]
    split
    · exact ih
    · next hnew =>
      rw [List.nodup_append]
      refine ⟨ih, List.nodup_singleton _, fun key hkey other hother => ?_⟩
      rw [List.mem_eraseDups] at hkey
      rintro rfl
      exact hnew (List.mem_singleton.mp hother ▸ hkey)

/-- A key has one text. -/
theorem eq_of_mem (h : Gathers set entries) {entry other : String × String}
    (hentry : entry ∈ entries) (hother : other ∈ entries) (hkey : entry.1 = other.1) :
    entry = other :=
  List.inj_on_of_nodup_map h.nodup hentry hother hkey

/-- All that stands there was set. -/
theorem subset (h : Gathers set entries) : entries ⊆ set := by
  intro entry hentry
  obtain ⟨found, hfound⟩ : ∃ found, Json.find? entries entry.1 = some found := by
    unfold Json.find?
    cases hfind : entries.find? fun member => member.1 = entry.1 with
    | some member => exact ⟨member.2, rfl⟩
    | none => simpa using List.find?_eq_none.mp hfind entry hentry
  have hsame : entry = (entry.1, found) := h.eq_of_mem hentry (Json.mem_of_find? hfound) rfl
  obtain ⟨before, after, hset, -⟩ := List.lookup_eq_some_iff.mp ((h.last _).symm.trans hfound)
  rw [hsame, ← List.mem_reverse, hset]
  simp

/-- All that was set stands there under its key. -/
theorem exists_mem (h : Gathers set entries) {entry : String × String} (hentry : entry ∈ set) :
    ∃ text, (entry.1, text) ∈ entries := by
  have hkey : entry.1 ∈ entries.map Prod.fst := by
    rw [h.keys, List.mem_eraseDups]
    exact List.mem_map_of_mem hentry
  obtain ⟨⟨key, text⟩, hmem, heq⟩ := List.mem_map.mp hkey
  exact ⟨text, heq ▸ hmem⟩

theorem eraseDups_filter {α : Type} [BEq α] [LawfulBEq α] (p : α → Bool) (items : List α) :
    (items.filter p).eraseDups = items.eraseDups.filter p := by
  induction items using List.reverseRecOn with
  | nil => rfl
  | append_singleton items item ih =>
    rw [List.filter_append, eraseDups_concat]
    cases hp : p item with
    | true =>
      rw [List.filter_cons_of_pos hp, List.filter_nil, eraseDups_concat, ih]
      by_cases hmem : item ∈ items <;> simp [hmem, hp]
    | false =>
      rw [List.filter_cons_of_neg (by simp [hp]), List.filter_nil, List.append_nil, ih]
      by_cases hmem : item ∈ items <;> simp [hmem, hp]

theorem lookup_filter {α β : Type} [BEq α] [LawfulBEq α] (p : α → Bool) (items : List (α × β))
    (key : α) : (items.filter fun item => p item.1).lookup key =
      if p key then items.lookup key else none := by
  induction items with
  | nil => simp
  | cons item items ih =>
    obtain ⟨other, value⟩ := item
    by_cases hkey : key = other
    · subst hkey
      cases hp : p key <;> simp [hp, ih]
    · cases hp : p other <;> simp [hp, ih, List.lookup_cons, beq_false_of_ne hkey]

theorem find?_eq_lookup {α : Type} (members : List (String × α)) (key : String) :
    Json.find? members key = members.lookup key := by
  induction members with
  | nil => rfl
  | cons member members ih =>
    obtain ⟨other, value⟩ := member
    unfold Json.find? at ih ⊢
    by_cases hkey : other = key
    · simp [hkey]
    · simp [List.lookup_cons, hkey, beq_false_of_ne (Ne.symm hkey), ih]

/-- The definitions under some of the keys are those that were set under these keys. -/
theorem filter (h : Gathers set entries) (p : String → Bool) :
    Gathers (set.filter fun entry => p entry.1) (entries.filter fun entry => p entry.1) := by
  have hkeys : ∀ members : List (String × String),
      (members.filter fun entry => p entry.1).map Prod.fst = (members.map Prod.fst).filter p :=
    fun members => (List.filter_map ..).symm
  refine ⟨by rw [hkeys, hkeys, h.keys, eraseDups_filter], fun key => ?_⟩
  rw [find?_eq_lookup, lookup_filter, ← find?_eq_lookup, h.last, ← List.filter_reverse,
    lookup_filter]

end Gathers

namespace Ledger

variable {first second ledger : Ledger} {event : Event} {events : List Event}
  {set : List (String × String)}

theorem Step.gathers (h : Step policy unit first event second)
    (hfirst : Gathers set first.definitions.entries) :
    Gathers (set ++ registered [event]) second.definitions.entries := by
  cases h with
  | helperFirst template hfind hname htext => exact hfirst.insert _ _
  | defined owner key code => exact hfirst.insert key code
  | named | own | helperAgain | rendered | top =>
    rw [show registered [_] = [] from rfl, List.append_nil]
    exact hfirst

/-- The definitions at the end of a replay are those that were set. -/
theorem Replays.gathers (h : Replays policy unit first events second)
    (hfirst : Gathers set first.definitions.entries) :
    Gathers (set ++ registered events) second.definitions.entries := by
  induction h generalizing set with
  | nil ledger => rwa [show registered [] = [] from rfl, List.append_nil]
  | @cons first second third event events h _ ih =>
    rw [← List.singleton_append, registered_append, ← List.append_assoc]
    exact ih (h.gathers hfirst)

/-! ### Helpers -/

/-- The text that a request sets is that of the helper under its name. -/
theorem Replays.helperText_of_mem (h : Replays policy unit first events second)
    {key template name text : String}
    (hmem : .helper key template name (some text) ∈ events) :
    text = Definitions.helperText template name unit := by
  induction h with
  | nil => cases hmem
  | cons h _ ih =>
    rcases List.mem_cons.mp hmem with rfl | hrest
    · cases h with
      | helperFirst template hnone hname htext => exact htext
    · exact ih hrest

/-- Nothing is set under the key of a helper that has a name already, unless a definition
    has that key. -/
theorem Replays.registered_of_named (h : Replays policy unit first events second)
    {key name : String} (hname : Json.find? first.definitions.helpers key = some name)
    (hfree : ∀ owner code, .defined owner key code ∉ events) :
    (registered events).filter (·.1 = key) = [] := by
  induction h with
  | nil => rfl
  | @cons first second third event events h _ ih =>
    rw [← List.singleton_append, registered_append, List.filter_append]
    have hrest : ∀ owner code, .defined owner key code ∉ events :=
      fun owner code hmem => hfree owner code (List.mem_cons_of_mem _ hmem)
    cases h with
    | @helperFirst other word text names template _ hnone hword htext =>
      have hne : other ≠ key := by
        rintro rfl
        rw [hnone] at hname
        cases hname
      rw [ih ((find?_insert _ _ _ _).trans ((if_neg hne).trans hname)) hrest]
      simp [registered, Event.entry?, hne]
    | defined owner other code =>
      have hne : other ≠ key := fun heq => hfree owner code (heq ▸ List.mem_cons_self)
      rw [ih hname hrest]
      simp [registered, Event.entry?, hne]
    | named | own | helperAgain | rendered | top =>
      rw [ih hname hrest]
      rfl

/-- The text of a helper is set once, at the first request, unless a definition has its
    key. -/
theorem Replays.registered_helper (h : Replays policy unit first events second)
    (hfirst : first.Apart policy) {key name : String}
    (hnone : Json.find? first.definitions.helpers key = none)
    (hname : Json.find? second.definitions.helpers key = some name)
    (hfree : ∀ owner code, .defined owner key code ∉ events) :
    ∃ template, .helper key template name (some (Definitions.helperText template name unit)) ∈
        events ∧
      (registered events).filter (·.1 = key) =
        [(key, Definitions.helperText template name unit)] := by
  induction h with
  | nil =>
    rw [hnone] at hname
    cases hname
  | @cons first second third event events h hreplays ih =>
    rw [← List.singleton_append, registered_append, List.filter_append]
    have hrest : ∀ owner code, .defined owner key code ∉ events :=
      fun owner code hmem => hfree owner code (List.mem_cons_of_mem _ hmem)
    replace ih := ih (h.follows.apart hfirst)
    have hkept := hreplays.follows.answers (h.follows.apart hfirst)
    cases h with
    | @helperFirst other word text names template _ hnew hword htext =>
      by_cases hkey : other = key
      · subst hkey
        have hnamed : Json.find? (Json.insert first.definitions.helpers other word) other =
            some word := (find?_insert _ _ _ _).trans (if_pos rfl)
        obtain rfl : word = name :=
          Option.some.inj ((hkept (.helper other template word none) hnamed).symm.trans hname)
        rw [hreplays.registered_of_named hnamed hrest, htext]
        exact ⟨template, List.mem_cons_self, by simp [registered, Event.entry?]⟩
      · obtain ⟨template, hmem, hset⟩ :=
          ih ((find?_insert _ _ _ _).trans ((if_neg hkey).trans hnone)) hname hrest
        refine ⟨template, List.mem_cons_of_mem _ hmem, ?_⟩
        rw [hset]
        simp [registered, Event.entry?, hkey]
    | defined owner other code =>
      have hne : other ≠ key := fun heq => hfree owner code (heq ▸ List.mem_cons_self)
      obtain ⟨template, hmem, hset⟩ := ih hnone hname hrest
      refine ⟨template, List.mem_cons_of_mem _ hmem, ?_⟩
      rw [hset]
      simp [registered, Event.entry?, hne]
    | named | own | helperAgain | rendered | top =>
      obtain ⟨template, hmem, hset⟩ := ih hnone hname hrest
      exact ⟨template, List.mem_cons_of_mem _ hmem, hset⟩

end Ledger

end BlockScript
