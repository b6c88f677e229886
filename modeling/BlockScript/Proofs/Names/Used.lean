import BlockScript.Proofs.Graph.Walk

/-!
# The variables of a workspace

The names that a workspace mentions, in order, are those it declares and those that its
blocks have: in a field, or as the parameters of a procedure. The used variables are the
first spellings among them: case does not tell names apart, and the first one of those
that differ in case only stands for all of them.

Results:

* `Workspace.usedVariables_spec`: the used variables are the first spellings.
-/

namespace BlockScript

open BlockScript.Text

/-- Whether names are the first spellings of all that are mentioned, without the empty
    one. -/
structure FirstSpellings (mentions used : List String) : Prop where
  /-- They are in the order in which they are mentioned. -/
  sublist : used.Sublist mentions
  /-- No two of them differ in case only. -/
  apart : (used.map lower).Nodup
  /-- Each is the first one that is mentioned of those that differ in case only. -/
  first (name : String) (h : name ∈ used) : name ≠ "" ∧ ∃ before after,
    mentions = before ++ name :: after ∧
      ∀ earlier ∈ before, earlier ≠ "" → lower earlier ≠ lower name
  /-- Each name that is mentioned has a spelling. -/
  covers (name : String) (h : name ∈ mentions) (hne : name ≠ "") :
    ∃ spelling ∈ used, lower spelling = lower name

theorem firstSpellings_nil : FirstSpellings [] [] where
  sublist := .slnil
  apart := .nil
  first _ h := by cases h
  covers _ h := by cases h

namespace Workspace

variable {known used : List String} {name : String}

/-- One more name that is mentioned. -/
theorem firstSpellings_addName (h : FirstSpellings known used) (name : String) :
    FirstSpellings (known ++ [name]) (addName used name) := by
  have hfirst : ∀ other ∈ used, other ≠ "" ∧ ∃ before after,
      known ++ [name] = before ++ other :: after ∧
        ∀ earlier ∈ before, earlier ≠ "" → lower earlier ≠ lower other := by
    intro other hother
    obtain ⟨hne, before, after, hknown, hbefore⟩ := h.first other hother
    exact ⟨hne, before, after ++ [name], by simp [hknown], hbefore⟩
  unfold addName
  split
  · next hold =>
    simp only [Bool.or_eq_true, decide_eq_true_eq, List.any_eq_true] at hold
    refine ⟨h.sublist.trans (List.sublist_append_left _ _), h.apart, hfirst,
      fun other hother hne => ?_⟩
    rcases List.mem_append.mp hother with hmem | hnew
    · exact h.covers other hmem hne
    · obtain rfl := List.mem_singleton.mp hnew
      obtain ⟨spelling, hspelling, heq⟩ := hold.resolve_left hne
      exact ⟨spelling, hspelling, heq⟩
  · next hnew =>
    simp only [Bool.or_eq_true, decide_eq_true_eq, List.any_eq_true, not_or, not_exists,
      not_and] at hnew
    obtain ⟨hname, hapart⟩ := hnew
    refine ⟨h.sublist.append (List.Sublist.refl _), ?_, fun other hother => ?_,
      fun other hother hne => ?_⟩
    · rw [List.map_append, List.map_singleton, List.nodup_append]
      refine ⟨h.apart, by simp, fun form hform other hother => ?_⟩
      obtain ⟨spelling, hspelling, rfl⟩ := List.mem_map.mp hform
      obtain rfl := List.mem_singleton.mp hother
      exact hapart spelling hspelling
    · rcases List.mem_append.mp hother with hold | hnew
      · exact hfirst other hold
      · obtain rfl := List.mem_singleton.mp hnew
        refine ⟨hname, known, [], rfl, fun earlier hearlier hne heq => ?_⟩
        obtain ⟨spelling, hspelling, hsame⟩ := h.covers earlier hearlier hne
        exact hapart spelling hspelling (hsame.trans heq)
    · rcases List.mem_append.mp hother with hmem | hnew
      · obtain ⟨spelling, hspelling, heq⟩ := h.covers other hmem hne
        exact ⟨spelling, List.mem_append_left _ hspelling, heq⟩
      · obtain rfl := List.mem_singleton.mp hnew
        exact ⟨other, List.mem_append_right _ List.mem_cons_self, rfl⟩

theorem firstSpellings_foldl (h : FirstSpellings known used) (names : List String) :
    FirstSpellings (known ++ names) (names.foldl addName used) := by
  induction names generalizing known used with
  | nil => simpa using h
  | cons name names ih => simpa using ih (firstSpellings_addName h name)

/-! ## The names of blocks -/

/-- The names that blocks have, in order. -/
def namesOf (graph : Graph) : List Ref → Except String (List String)
  | [] => .ok []
  | ref :: refs =>
    match graph.block? ref with
    | none => namesOf graph refs
    | some block => do
      let names ← variablesOf block
      let rest ← namesOf graph refs
      return names ++ rest

/-- The names that a workspace mentions, in order. -/
def mentions (workspace : Workspace) : Except String (List String) := do
  let names ← namesOf workspace.graph workspace.allBlocks
  return workspace.declaredVariables ++ names

theorem addVariables_eq_ok {graph : Graph} {refs : List Ref} {known : List String}
    (h : addVariables graph known refs = .ok used) :
    ∃ names, namesOf graph refs = .ok names ∧ used = names.foldl addName known := by
  induction refs generalizing known with
  | nil =>
    cases h
    exact ⟨[], rfl, rfl⟩
  | cons ref refs ih =>
    unfold addVariables at h
    unfold namesOf
    cases hblock : graph.block? ref with
    | none =>
      rw [hblock] at h
      exact ih h
    | some block =>
      rw [hblock] at h
      dsimp only at h ⊢
      cases hnames : variablesOf block with
      | error kind =>
        rw [hnames] at h
        cases h
      | ok first =>
        rw [hnames] at h
        obtain ⟨rest, hrest, rfl⟩ := ih h
        rw [hrest]
        exact ⟨first ++ rest, rfl, by rw [List.foldl_append]⟩

/-- The names of several blocks are those of the first one and of the others. -/
theorem namesOf_cons_eq_ok {graph : Graph} {ref : Ref} {refs : List Ref} {names : List String}
    (h : namesOf graph (ref :: refs) = .ok names) :
    ∃ own rest, names = own ++ rest ∧ namesOf graph refs = .ok rest ∧
      ∀ block, graph.block? ref = some block → variablesOf block = .ok own := by
  unfold namesOf at h
  cases hblock : graph.block? ref with
  | none =>
    rw [hblock] at h
    exact ⟨[], names, rfl, h, fun block hno => by cases hno⟩
  | some block =>
    rw [hblock] at h
    dsimp only at h
    cases hown : variablesOf block with
    | error kind =>
      rw [hown] at h
      cases h
    | ok own =>
      rw [hown] at h
      cases hrest : namesOf graph refs with
      | error kind =>
        rw [hrest] at h
        cases h
      | ok rest =>
        rw [hrest] at h
        cases h
        refine ⟨own, rest, rfl, rfl, fun other hother => ?_⟩
        cases hother
        exact hown

/-- The names of a block are among those of all blocks. -/
theorem mem_namesOf {graph : Graph} {refs : List Ref} {names : List String} {ref : Ref}
    {block : Block Ref} (h : namesOf graph refs = .ok names) (href : ref ∈ refs)
    (hblock : graph.block? ref = some block) :
    ∃ own, variablesOf block = .ok own ∧ own ⊆ names := by
  induction refs generalizing names with
  | nil => cases href
  | cons first refs ih =>
    obtain ⟨own, rest, rfl, hrest, hfirst⟩ := namesOf_cons_eq_ok h
    rcases List.mem_cons.mp href with rfl | hmem
    · exact ⟨own, hfirst block hblock, List.subset_append_left _ _⟩
    · obtain ⟨other, hother, hsubset⟩ := ih hrest hmem
      exact ⟨other, hother, List.Subset.trans hsubset (List.subset_append_right _ _)⟩

variable {workspace : Workspace}

/-- What a workspace mentions is what it declares and what its blocks name. -/
theorem mentions_eq_ok {mentioned : List String} (h : workspace.mentions = .ok mentioned) :
    ∃ names, namesOf workspace.graph workspace.allBlocks = .ok names ∧
      mentioned = workspace.declaredVariables ++ names := by
  unfold mentions at h
  cases hnames : namesOf workspace.graph workspace.allBlocks with
  | error kind =>
    rw [hnames] at h
    cases h
  | ok names =>
    rw [hnames] at h
    cases h
    exact ⟨names, rfl, rfl⟩

/-- The used variables are the first spellings of all names that are mentioned. -/
theorem usedVariables_spec (h : workspace.usedVariables = .ok used) :
    ∃ mentions, workspace.mentions = .ok mentions ∧ FirstSpellings mentions used := by
  obtain ⟨names, hnames, rfl⟩ := addVariables_eq_ok h
  refine ⟨workspace.declaredVariables ++ names, ?_, ?_⟩
  · rw [Workspace.mentions, hnames]
    rfl
  · rw [← List.foldl_append]
    simpa using firstSpellings_foldl firstSpellings_nil (workspace.declaredVariables ++ names)

end Workspace

end BlockScript
