import BlockScript.Rules
import BlockScript.Proofs.Graph.Links
import Mathlib.Data.List.Basic
import Mathlib.Data.List.Induction
import Mathlib.Logic.Relation

/-!
# Bindings of rules

A table of rules in the hands of a caller is changed in place: a call writes first into the map
of rules and then into the map of aliases, and a call that fails on the way leaves behind what it
has written. The calls here are taken apart into these writes. The operations on tables, which
have no table to give if they fail, turn out to describe them.

Results:

* `Call.run_eq`: a call in place does what the operation does, or fails and writes nothing.
* `Call.run_cases`: a call leaves a table as it is, or binds one type that was not bound.
* `sound_after`: what ties the two maps together after any calls.
* `ofLanguage_eq_after`: the rules of a language are what calls on a new table lead to.
* `bindings_kept`: bindings, failures, aliases and chains of aliases over a whole history.
-/

namespace BlockScript

theorem Json.insert_of_find?_eq_none {α : Type} {members : List (String × α)} {key : String}
    (h : Json.find? members key = none) (value : α) :
    Json.insert members key value = members ++ [(key, value)] := by
  induction members with
  | nil => rfl
  | cons member members ih =>
    unfold Json.find? at h ih
    by_cases hkey : member.1 = key
    · simp [hkey] at h
    · rw [Json.insert, if_neg hkey, ih (by simpa [hkey] using h)]
      rfl

theorem Json.find?_eq_none_iff {α : Type} {members : List (String × α)} {key : String} :
    Json.find? members key = none ↔ key ∉ members.map Prod.fst := by
  rw [Json.find?, Option.map_eq_none_iff, List.find?_eq_none, List.mem_map]
  constructor
  · rintro h ⟨member, hmem, rfl⟩
    exact h member hmem (decide_eq_true rfl)
  · intro h member hmem hkey
    exact h ⟨member, hmem, of_decide_eq_true hkey⟩

/-- What is found once a member is added behind the others. -/
theorem Json.find?_concat {α : Type} {members : List (String × α)} {key : String}
    (h : Json.find? members key = none) (value : α) (other : String) :
    Json.find? (members ++ [(key, value)]) other =
      if key = other then some value else Json.find? members other := by
  by_cases hkey : key = other
  · subst hkey
    unfold Json.find? at h ⊢
    rw [Option.map_eq_none_iff] at h
    simp [List.find?_append, h]
  · simp [Json.find?, List.find?_append, hkey]

namespace RuleTable

open Relation

/-! ## Calls -/

/-- A call on a table of rules. -/
inductive Call where
  /-- Registers a new rule for a type. -/
  | add (kind : RuleKind) (type : String) (handler : Handler) (suppressHooks : Bool)
  /-- Makes a type share the rule of another one. -/
  | share (type target : String)
  /-- Asks for the rule of a type. -/
  | lookup (type : String)

/-- Steps on a table that is changed in place. A step that fails ends them, and what was written
    ahead of it stays. -/
abbrev Edit := ExceptT Failure (StateM RuleTable)

/-- Asks for a rule. -/
def Edit.lookUp (type : String) : Edit Rule := do
  let table ← get
  match table.find? type with
  | some rule => return rule
  | none => throw (.unknownBlockType table.language type)

/-- Writes a rule into the map of rules. -/
def Edit.enter (type : String) (rule : Rule) : Edit Unit := do
  let table ← get
  if table.contains type then throw (.duplicateRule table.language type)
  set { table with rules := Json.insert table.rules type rule }

/-- Writes a link into the map of aliases. -/
def Edit.link (type target : String) : Edit Unit :=
  modify fun table => { table with aliases := Json.insert table.aliases type target }

namespace Call

/-- The steps of a call. -/
def steps : Call → Edit (Option Rule)
  | .add kind type handler suppressHooks => do
    Edit.enter type ⟨kind, handler, suppressHooks, type⟩
    return none
  | .share type target => do
    let rule ← Edit.lookUp target
    Edit.enter type rule
    Edit.link type target
    return none
  | .lookup type => do
    let rule ← Edit.lookUp type
    return some rule

/-- What a call on a table gives, and the table behind it. -/
def run (call : Call) (table : RuleTable) : Except Failure (Option Rule) × RuleTable :=
  call.steps table

/-- What the operations on tables give for a call. -/
def result (table : RuleTable) : Call → Except Failure (Option Rule × RuleTable)
  | .add kind type handler suppressHooks =>
    (table.add kind type handler suppressHooks).map fun next => (none, next)
  | .share type target => (table.share type target).map fun next => (none, next)
  | .lookup type => (table.lookup type).map fun rule => (some rule, table)

/-- Whether a call on a table is made to bind a type to a rule. -/
def Offers (table : RuleTable) (type : String) (rule : Rule) : Call → Prop
  | .add kind own handler suppressHooks => own = type ∧ rule = ⟨kind, handler, suppressHooks, own⟩
  | .share own target => own = type ∧ table.find? target = some rule
  | .lookup _ => False

/-- Whether a call on a table succeeds in binding a type to a rule. -/
def Registers (table : RuleTable) (type : String) (rule : Rule) (call : Call) : Prop :=
  (∃ answer, (call.run table).1 = .ok answer) ∧ call.Offers table type rule

end Call

/-- The table after some calls, whether they succeed or fail, on a new table. -/
def after (language : String) (calls : List Call) : RuleTable :=
  calls.foldl (fun table call => (call.run table).2) { language := language }

/-- Whether a type is recorded as an alias of another one. -/
def Alias (table : RuleTable) (type target : String) : Prop :=
  table.aliasTarget? type = some target

/-! ## The two maps -/

variable {table next : RuleTable} {type target other language : String} {rule found : Rule}
  {call : Call} {calls : List Call}

/-- The number of types that were bound ahead of a type. -/
def rank (table : RuleTable) (type : String) : Nat :=
  (table.rules.map Prod.fst).idxOf type

/-- What ties the map of aliases to the map of rules: an alias and its target are bound to one
    rule, and the target was bound first. -/
structure Sound (table : RuleTable) : Prop where
  shared : ∀ link ∈ table.aliases, ∃ rule, table.find? link.1 = some rule ∧
    table.find? link.2 = some rule
  ordered : ∀ link ∈ table.aliases, table.rank link.2 < table.rank link.1

theorem lookup_eq_ok_iff : table.lookup type = .ok rule ↔ table.find? type = some rule := by
  unfold lookup
  cases table.find? type <;> simp

theorem lookup_eq_error (h : table.find? type = none) :
    table.lookup type = .error (.unknownBlockType table.language type) := by
  rw [lookup, h]

theorem register_of_unbound (h : table.find? type = none) (rule : Rule) :
    table.register type rule = .ok { table with rules := table.rules ++ [(type, rule)] } := by
  simp [register, contains, h]

theorem register_of_bound (h : table.find? type = some found) (rule : Rule) :
    table.register type rule = .error (.duplicateRule table.language type) := by
  simp [register, contains, h]

/-- A type without a rule is no alias. -/
theorem Sound.aliasTarget?_eq_none (h : table.Sound) (hnone : table.find? type = none) :
    Json.find? table.aliases type = none := by
  by_contra hsome
  obtain ⟨target, htarget⟩ := Option.ne_none_iff_exists'.mp hsome
  obtain ⟨rule, hrule, -⟩ := h.shared _ (Json.mem_of_find? htarget)
  rw [hnone] at hrule
  cases hrule

/-! ## Steps in place -/

theorem Edit.bind_apply {α β : Type} (step : Edit α) (f : α → Edit β) (table : RuleTable) :
    (step >>= f) table =
      match step table with
      | (.ok a, next) => f a next
      | (.error failure, next) => (.error failure, next) := by
  show ExceptT.bindCont f (step table).1 (step table).2 = _
  obtain ⟨result, next⟩ := step table
  cases result <;> rfl

theorem Edit.lookUp_apply (type : String) (table : RuleTable) :
    Edit.lookUp type table =
      match table.find? type with
      | some rule => (.ok rule, table)
      | none => (.error (.unknownBlockType table.language type), table) := by
  show (match table.find? type with
    | some rule => (return rule : Edit Rule)
    | none => throw (Failure.unknownBlockType table.language type)) table = _
  cases table.find? type <;> rfl

theorem Edit.enter_apply (type : String) (rule : Rule) (table : RuleTable) :
    Edit.enter type rule table =
      match table.find? type with
      | some _ => (.error (.duplicateRule table.language type), table)
      | none => (.ok (), { table with rules := table.rules ++ [(type, rule)] }) := by
  cases hfind : table.find? type with
  | some found =>
    show (if table.contains type then _ else _ : Edit Unit) table = _
    rw [if_pos (by simp [contains, hfind])]
    rfl
  | none =>
    show (if table.contains type then _ else _ : Edit Unit) table = _
    rw [if_neg (by simp [contains, hfind])]
    show (Except.ok (), { table with rules := Json.insert table.rules type rule }) = _
    rw [Json.insert_of_find?_eq_none hfind]

theorem Edit.link_apply {aliases : List (String × String)}
    (h : Json.find? aliases type = none) (target language : String)
    (rules : List (String × Rule)) :
    Edit.link type target ⟨language, rules, aliases⟩ =
      (.ok (), ⟨language, rules, aliases ++ [(type, target)]⟩) := by
  show (Except.ok (), (⟨language, rules, Json.insert aliases type target⟩ : RuleTable)) = _
  rw [Json.insert_of_find?_eq_none h]

namespace Call

theorem run_add (kind : RuleKind) (type : String) (handler : Handler) (suppressHooks : Bool)
    (table : RuleTable) :
    (Call.add kind type handler suppressHooks).run table =
      match table.find? type with
      | some _ => (.error (.duplicateRule table.language type), table)
      | none =>
        (.ok none, { table with
          rules := table.rules ++ [(type, ⟨kind, handler, suppressHooks, type⟩)] }) := by
  rw [run, steps, Edit.bind_apply, Edit.enter_apply]
  cases table.find? type <;> rfl

theorem run_share (h : table.Sound) (type target : String) :
    (Call.share type target).run table =
      match table.find? target, table.find? type with
      | none, _ => (.error (.unknownBlockType table.language target), table)
      | some _, some _ => (.error (.duplicateRule table.language type), table)
      | some rule, none =>
        (.ok none, { table with
          rules := table.rules ++ [(type, rule)]
          aliases := table.aliases ++ [(type, target)] }) := by
  rw [run, steps, Edit.bind_apply, Edit.lookUp_apply]
  cases htarget : table.find? target with
  | none => rfl
  | some rule =>
    dsimp only
    rw [Edit.bind_apply, Edit.enter_apply]
    cases hfind : table.find? type with
    | some found => rfl
    | none =>
      dsimp only
      rw [Edit.bind_apply, Edit.link_apply (h.aliasTarget?_eq_none hfind)]
      rfl

theorem run_lookup (type : String) (table : RuleTable) :
    (Call.lookup type).run table =
      match table.find? type with
      | some rule => (.ok (some rule), table)
      | none => (.error (.unknownBlockType table.language type), table) := by
  rw [run, steps, Edit.bind_apply, Edit.lookUp_apply]
  cases table.find? type <;> rfl

/-- A call in place does what the operation on tables does. If the operation fails, nothing has
    been written. -/
theorem run_eq (h : table.Sound) (call : Call) :
    call.run table =
      match call.result table with
      | .ok (answer, next) => (.ok answer, next)
      | .error cause => (.error cause, table) := by
  cases call with
  | add kind type handler suppressHooks =>
    rw [run_add, result, RuleTable.add]
    cases hfind : table.find? type with
    | some found => rw [register_of_bound hfind]; rfl
    | none => rw [register_of_unbound hfind]; rfl
  | share type target =>
    rw [run_share h, result, RuleTable.share]
    cases htarget : table.find? target with
    | none => rw [lookup_eq_error htarget]; rfl
    | some rule =>
      rw [lookup_eq_ok_iff.mpr htarget]
      dsimp only [bind, Except.bind]
      cases hfind : table.find? type with
      | some found => rw [register_of_bound hfind]; rfl
      | none => rw [register_of_unbound hfind]; rfl
  | lookup type =>
    rw [run_lookup, result]
    cases hfind : table.find? type with
    | none => rw [lookup_eq_error hfind]; rfl
    | some rule => rw [lookup_eq_ok_iff.mpr hfind]; rfl

/-- A call that fails without a trace registers nothing. -/
theorem unchanged_of_error {failure : Failure} (h : call.run table = (.error failure, table)) :
    (call.run table).2 = table ∧ ∀ type rule, ¬ call.Registers table type rule := by
  rw [h]
  refine ⟨rfl, ?_⟩
  rintro type rule ⟨⟨answer, hanswer⟩, -⟩
  rw [h] at hanswer
  cases hanswer

/-- A call leaves a table as it is, or binds one type that was not bound, and links it at most
    to types with the same rule. -/
theorem run_cases (h : table.Sound) (call : Call) :
    ((call.run table).2 = table ∧ ∀ type rule, ¬ call.Registers table type rule) ∨
      ∃ type rule links, table.find? type = none ∧
        (∀ other found, call.Registers table other found ↔ type = other ∧ found = rule) ∧
        (∀ link ∈ links, link.1 = type ∧ table.find? link.2 = some rule) ∧
        (call.run table).2 =
          ⟨table.language, table.rules ++ [(type, rule)], table.aliases ++ links⟩ := by
  cases call with
  | add kind type handler suppressHooks =>
    cases hfind : table.find? type with
    | some found =>
      exact .inl (unchanged_of_error (by rw [run_add, hfind]))
    | none =>
      refine .inr ⟨type, ⟨kind, handler, suppressHooks, type⟩, [], hfind, ?_, by simp, ?_⟩
      · intro other found
        exact ⟨fun hregisters => hregisters.2,
          fun hoffers => ⟨⟨none, by rw [run_add, hfind]⟩, hoffers⟩⟩
      · rw [run_add, hfind, List.append_nil]
  | share type target =>
    cases htarget : table.find? target with
    | none =>
      exact .inl (unchanged_of_error (by rw [run_share h, htarget]))
    | some rule =>
      cases hfind : table.find? type with
      | some found =>
        exact .inl (unchanged_of_error (by rw [run_share h, htarget, hfind]))
      | none =>
        refine .inr ⟨type, rule, [(type, target)], hfind, ?_, ?_, ?_⟩
        · intro other found
          constructor
          · rintro ⟨-, hoffers⟩
            refine ⟨hoffers.1, ?_⟩
            exact Option.some.inj (hoffers.2.symm.trans htarget)
          · rintro ⟨hother, rfl⟩
            exact ⟨⟨none, by rw [run_share h, htarget, hfind]⟩, hother, htarget⟩
        · intro link hlink
          obtain rfl := List.mem_singleton.mp hlink
          exact ⟨rfl, htarget⟩
        · rw [run_share h, htarget, hfind]
  | lookup type =>
    refine .inl ⟨?_, fun _ _ hregisters => hregisters.2⟩
    rw [run_lookup]
    cases table.find? type <;> rfl

end Call

/-! ## One call -/

theorem find?_run (h : table.Sound) (hfind : table.find? type = some rule) (call : Call) :
    (call.run table).2.find? type = some rule := by
  rcases call.run_cases h with ⟨hsame, -⟩ | ⟨new, offered, links, hnone, -, -, hnext⟩
  · rwa [hsame]
  · rw [hnext, find?, Json.find?_concat hnone, if_neg, ← find?, hfind]
    rintro rfl
    rw [hnone] at hfind
    cases hfind

/-- A call that registers a rule binds a type that was not bound. -/
theorem find?_run_of_registers (h : table.Sound) (hregisters : call.Registers table type rule) :
    table.find? type = none ∧ (call.run table).2.find? type = some rule := by
  rcases call.run_cases h with ⟨-, hnot⟩ | ⟨new, offered, links, hnone, hiff, -, hnext⟩
  · exact absurd hregisters (hnot type rule)
  · obtain ⟨rfl, rfl⟩ := (hiff type rule).mp hregisters
    refine ⟨hnone, ?_⟩
    rw [hnext, find?, Json.find?_concat hnone, if_pos rfl]

/-- What a call does not register was bound before. -/
theorem of_find?_run (h : table.Sound) (hfind : (call.run table).2.find? type = some rule) :
    table.find? type = some rule ∨ call.Registers table type rule := by
  rcases call.run_cases h with ⟨hsame, -⟩ | ⟨new, offered, links, hnone, hiff, -, hnext⟩
  · exact .inl (hsame ▸ hfind)
  · rw [hnext, find?, Json.find?_concat hnone] at hfind
    split at hfind
    · next hnew => exact .inr ((hiff type rule).mpr ⟨hnew, (Option.some.inj hfind).symm⟩)
    · exact .inl hfind

theorem mem_keys_of_find? (h : table.find? type = some rule) :
    type ∈ table.rules.map Prod.fst := by
  by_contra hnot
  rw [find?, Json.find?_eq_none_iff.mpr hnot] at h
  cases h

theorem rank_lt_length (h : table.find? type = some rule) :
    table.rank type < table.rules.length := by
  have hlt := List.idxOf_lt_length_iff.mpr (mem_keys_of_find? h)
  rwa [List.length_map] at hlt

theorem rank_concat_of_bound (h : table.find? type = some rule)
    (hrules : next.rules = table.rules ++ [(other, found)]) : next.rank type = table.rank type := by
  rw [rank, rank, hrules, List.map_append, List.idxOf_append_of_mem (mem_keys_of_find? h)]

theorem rank_concat_of_unbound (h : table.find? type = none)
    (hrules : next.rules = table.rules ++ [(type, rule)]) :
    next.rank type = table.rules.length := by
  rw [rank, hrules, List.map_append, List.idxOf_append_of_notMem (Json.find?_eq_none_iff.mp h)]
  simp

/-- The two maps stay tied together through a call. -/
theorem Sound.run (h : table.Sound) (call : Call) : (call.run table).2.Sound := by
  have hkept {type : String} {rule : Rule} (hfind : table.find? type = some rule) :=
    find?_run h hfind call
  rcases call.run_cases h with ⟨hsame, -⟩ | ⟨new, offered, links, hnone, hiff, hlinks, hnext⟩
  · rwa [hsame]
  have hbound : (call.run table).2.find? new = some offered :=
    (find?_run_of_registers h ((hiff new offered).mpr ⟨rfl, rfl⟩)).2
  have hrules : (call.run table).2.rules = table.rules ++ [(new, offered)] := by rw [hnext]
  have haliases : (call.run table).2.aliases = table.aliases ++ links := by rw [hnext]
  constructor
  · intro link hlink
    rcases List.mem_append.mp (haliases ▸ hlink) with hold | hadded
    · obtain ⟨rule, htype, htarget⟩ := h.shared link hold
      exact ⟨rule, hkept htype, hkept htarget⟩
    · obtain ⟨hnew, htarget⟩ := hlinks link hadded
      exact ⟨offered, hnew ▸ hbound, hkept htarget⟩
  · intro link hlink
    rcases List.mem_append.mp (haliases ▸ hlink) with hold | hadded
    · obtain ⟨rule, htype, htarget⟩ := h.shared link hold
      rw [rank_concat_of_bound htype hrules, rank_concat_of_bound htarget hrules]
      exact h.ordered link hold
    · obtain ⟨hnew, htarget⟩ := hlinks link hadded
      rw [hnew, rank_concat_of_bound htarget hrules, rank_concat_of_unbound hnone hrules]
      exact rank_lt_length htarget

/-! ## Histories -/

theorem after_append (language : String) (calls later : List Call) :
    after language (calls ++ later) =
      later.foldl (fun table call => (call.run table).2) (after language calls) :=
  List.foldl_append

theorem after_concat (language : String) (calls : List Call) (call : Call) :
    after language (calls ++ [call]) = (call.run (after language calls)).2 :=
  after_append language calls [call]

/-- The two maps are tied together after any calls. -/
theorem sound_after (language : String) (calls : List Call) : (after language calls).Sound := by
  induction calls using List.reverseRecOn with
  | nil => exact ⟨by simp [after], by simp [after]⟩
  | append_singleton calls call ih =>
    rw [after_concat]
    exact ih.run call

/-- What is bound stays bound to the same rule. -/
theorem find?_after_append (h : (after language calls).find? type = some rule)
    (later : List Call) : (after language (calls ++ later)).find? type = some rule := by
  induction later using List.reverseRecOn with
  | nil => rwa [List.append_nil]
  | append_singleton later call ih =>
    rw [← List.append_assoc, after_concat]
    exact find?_run (sound_after language _) ih call

/-- What is bound was registered by one of the calls. -/
theorem exists_registers (h : (after language calls).find? type = some rule) :
    ∃ earlier call later, calls = earlier ++ call :: later ∧
      call.Registers (after language earlier) type rule := by
  induction calls using List.reverseRecOn with
  | nil => cases h
  | append_singleton calls call ih =>
    rw [after_concat] at h
    rcases of_find?_run (sound_after language calls) h with hold | hregisters
    · obtain ⟨earlier, first, later, rfl, hregisters⟩ := ih hold
      exact ⟨earlier, first, later ++ [call], by simp, hregisters⟩
    · exact ⟨calls, call, [], rfl, hregisters⟩

/-! ## Chains of aliases -/

theorem Sound.chain (h : table.Sound) (hchain : TransGen table.Alias type target) :
    ∃ rule, table.lookup type = .ok rule ∧ table.lookup target = .ok rule := by
  simp only [lookup_eq_ok_iff]
  induction hchain with
  | single halias => exact h.shared _ (Json.mem_of_find? halias)
  | tail _ halias ih =>
    obtain ⟨rule, htype, hmiddle⟩ := ih
    obtain ⟨found, hfound, htarget⟩ := h.shared _ (Json.mem_of_find? halias)
    obtain rfl : rule = found := Option.some.inj (hmiddle.symm.trans hfound)
    exact ⟨rule, htype, htarget⟩

theorem Sound.rank_lt (h : table.Sound) (hchain : TransGen table.Alias type target) :
    table.rank target < table.rank type := by
  induction hchain with
  | single halias => exact h.ordered _ (Json.mem_of_find? halias)
  | tail _ halias ih => exact Nat.lt_trans (h.ordered _ (Json.mem_of_find? halias)) ih

/-- Over any history of calls on a new table, whether they fail or not:
    a call does what the operation on tables does, and one that fails leaves both maps as they
    were; a type that a call registers was not bound before and is bound to the rule of that call
    from then on, and only registered types are bound; all types along a chain of aliases are
    bound to one rule; and no chain of aliases comes back to where it started. -/
theorem bindings_kept (language : String) (calls : List Call) :
    (∀ earlier call later, calls = earlier ++ call :: later →
      (call.run (after language earlier) =
        match call.result (after language earlier) with
        | .ok (answer, next) => (.ok answer, next)
        | .error cause => (.error cause, after language earlier)) ∧
      ∀ type rule, call.Registers (after language earlier) type rule →
        (after language earlier).find? type = none ∧
          (after language calls).find? type = some rule) ∧
      (∀ type rule, (after language calls).find? type = some rule →
        ∃ earlier call later, calls = earlier ++ call :: later ∧
          call.Registers (after language earlier) type rule) ∧
      (∀ type target, TransGen (after language calls).Alias type target →
        ∃ rule, (after language calls).lookup type = .ok rule ∧
          (after language calls).lookup target = .ok rule) ∧
      ∀ type, ¬ TransGen (after language calls).Alias type type := by
  refine ⟨?_, fun _ _ => exists_registers, fun _ _ => (sound_after language calls).chain, ?_⟩
  · rintro earlier call later rfl
    have hsound := sound_after language earlier
    refine ⟨call.run_eq hsound, fun type rule hregisters => ?_⟩
    obtain ⟨hnone, hbound⟩ := find?_run_of_registers hsound hregisters
    refine ⟨hnone, ?_⟩
    rw [← List.singleton_append, ← List.append_assoc]
    exact find?_after_append (by rwa [after_concat]) later
  · intro type hchain
    exact Nat.lt_irrefl _ ((sound_after language calls).rank_lt hchain)

/-! ## The built-in tables -/

/-- The calls that fill a table with built-in rules: first the rules, then the aliases. -/
def builtInCalls : List Call :=
  (builtInRules.map fun entry =>
    .add entry.2.kind entry.1 entry.2.handler entry.2.suppressHooks) ++
    builtInAliases.map fun link => .share link.1 link.2

/-- Rules for new types are written behind the rules of a table. -/
theorem foldl_run_adds (rules : List (String × Rule)) (table : RuleTable)
    (hkeys : ((table.rules ++ rules).map Prod.fst).Nodup)
    (horigin : ∀ entry ∈ rules, entry.2.origin = entry.1) :
    (rules.map fun entry =>
        Call.add entry.2.kind entry.1 entry.2.handler entry.2.suppressHooks).foldl
      (fun table call => (call.run table).2) table =
      { table with rules := table.rules ++ rules } := by
  induction rules generalizing table with
  | nil => simp
  | cons entry rules ih =>
    obtain ⟨type, rule⟩ := entry
    have hnone : table.find? type = none := by
      refine Json.find?_eq_none_iff.mpr fun hmem => ?_
      rw [List.map_append, List.nodup_append] at hkeys
      exact hkeys.2.2 type hmem type (by simp) rfl
    obtain rfl : rule.origin = type := horigin _ List.mem_cons_self
    have hrun : ((Call.add rule.kind rule.origin rule.handler rule.suppressHooks).run table).2 =
        { table with rules := table.rules ++ [(rule.origin, rule)] } := by
      rw [Call.run_add, hnone]
    rw [List.map_cons, List.foldl_cons, hrun, ih]
    · simp
    · simpa using hkeys
    · exact fun other hother => horigin other (List.mem_cons_of_mem _ hother)

/-- Aliases of types in a table are written behind its rules and its aliases. -/
theorem foldl_run_shares (links : List (String × String)) {table : RuleTable}
    (h : table.Sound) (hkeys : (table.rules.map Prod.fst ++ links.map Prod.fst).Nodup)
    (hbound : ∀ link ∈ links, (table.find? link.2).isSome = true) :
    (links.map fun link => Call.share link.1 link.2).foldl
      (fun table call => (call.run table).2) table =
      ⟨table.language,
        table.rules ++ links.filterMap fun link =>
          (table.find? link.2).map fun rule => (link.1, rule),
        table.aliases ++ links⟩ := by
  induction links generalizing table with
  | nil => simp
  | cons link links ih =>
    obtain ⟨type, target⟩ := link
    obtain ⟨rule, htarget⟩ := Option.isSome_iff_exists.mp (hbound _ List.mem_cons_self)
    have hnone : table.find? type = none := by
      refine Json.find?_eq_none_iff.mpr fun hmem => ?_
      rw [List.nodup_append] at hkeys
      exact hkeys.2.2 type hmem type (by simp) rfl
    have hrun : ((Call.share type target).run table).2 =
        ⟨table.language, table.rules ++ [(type, rule)], table.aliases ++ [(type, target)]⟩ := by
      rw [Call.run_share h, htarget, hnone]
    have hsame : ∀ link ∈ links, ((Call.share type target).run table).2.find? link.2 =
        table.find? link.2 := by
      intro link hlink
      obtain ⟨found, hfound⟩ :=
        Option.isSome_iff_exists.mp (hbound link (List.mem_cons_of_mem _ hlink))
      rw [hfound]
      exact find?_run h hfound _
    rw [List.map_cons, List.foldl_cons, ih (h.run _)]
    · rw [List.filterMap_congr fun link hlink => by rw [hsame link hlink], hrun]
      simp [htarget]
    · rw [hrun]
      simpa using hkeys
    · intro link hlink
      rw [hsame link hlink]
      exact hbound link (List.mem_cons_of_mem _ hlink)

/-- The built-in types are different ones. -/
theorem nodup_builtIn :
    (builtInRules.map Prod.fst ++ builtInAliases.map Prod.fst).Nodup := by
  decide +kernel

/-- The built-in table of a language is one that calls on a new table lead to. -/
theorem ofLanguage_eq_after (language : String) :
    ofLanguage language = after language builtInCalls := by
  have horigin : ∀ entry ∈ builtInRules, entry.2.origin = entry.1 := by decide
  have hbound : ∀ link ∈ builtInAliases, (Json.find? builtInRules link.2).isSome = true := by
    decide
  have hrules : after language
      (builtInRules.map fun entry =>
        .add entry.2.kind entry.1 entry.2.handler entry.2.suppressHooks) =
      { language := language, rules := builtInRules } :=
    foldl_run_adds builtInRules { language := language }
      (List.nodup_append.mp nodup_builtIn).1 horigin
  rw [builtInCalls, after_append, foldl_run_shares builtInAliases (sound_after language _)]
  · rw [hrules]
    rfl
  · rw [hrules]
    exact nodup_builtIn
  · rw [hrules]
    exact hbound

end RuleTable

end BlockScript
