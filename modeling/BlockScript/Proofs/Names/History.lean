import BlockScript.Proofs.Names.Pass

/-!
# The history of a name table

A name table answers requests one after the other: for the identifier of a
logical name, for an identifier of its own, and for the identifiers of several
names. What was given out since the last reset is the history of the table.

An identifier belongs to the one logical name, or to the one request for an
identifier of its own, that it was given out for. The table keeps them apart,
so any two requests can be compared, however far apart they are.

Results:

* `NameHistory.apart_step`: every request keeps the identifiers apart.
* `NameHistory.word_eq_iff`: two identifiers given out are equal exactly when
  they were given out for one logical name.
-/

namespace BlockScript

open BlockScript.Text

/-- A request to a name table. -/
inductive NameRequest where
  | get (name : String) (kind : NameKind)
  | distinct (name : String) (kind : NameKind)
  | populate (names : List String) (kind : NameKind)
  | reset

/-- An identifier given out, with what stands before it: for a logical name, or
    without one for a request of its own. -/
structure Grant where
  kind : NameKind
  name : Option String
  text : String

namespace Grant

/-- The identifier alone, without what stands before identifiers of its kind. -/
def word (policy : NamePolicy) (grant : Grant) : String :=
  String.ofList (grant.text.toList.drop (policy.sign grant.kind).toList.length)

/-- Whether two identifiers were given out for one logical name, in any case. -/
def SameName (first second : Grant) : Prop :=
  first.kind = second.kind ∧
    ∃ name name', first.name = some name ∧ second.name = some name' ∧ lower name = lower name'

theorem word_eq {policy : NamePolicy} {grant : Grant} {word : String}
    (h : grant.text = policy.sign grant.kind ++ word) : grant.word policy = word := by
  simp [Grant.word, h]

end Grant

/-- A name table with what it has given out since the last reset, the latest
    first. -/
structure NameHistory where
  table : NameTable := {}
  grants : List Grant := []

namespace NameHistory

variable (policy : NamePolicy)

/-- After a request for the identifier of a logical name. -/
def get (history : NameHistory) (name : String) (kind : NameKind) : NameHistory :=
  let (text, table) := history.table.get policy name kind
  ⟨table, ⟨kind, some name, text⟩ :: history.grants⟩

/-- After a request for an identifier of its own. -/
def distinct (history : NameHistory) (name : String) (kind : NameKind) : NameHistory :=
  let (text, table) := history.table.distinct policy name kind
  ⟨table, ⟨kind, none, text⟩ :: history.grants⟩

/-- After requests for the identifiers of several names. -/
def getAll (kind : NameKind) : List String → NameHistory → NameHistory
  | [], history => history
  | name :: names, history => getAll kind names (history.get policy name kind)

/-- After one more request. -/
def step (history : NameHistory) : NameRequest → NameHistory
  | .get name kind => history.get policy name kind
  | .distinct name kind => history.distinct policy name kind
  | .populate names kind =>
    ⟨history.table.populate policy kind names, (getAll policy kind names history).grants⟩
  | .reset => {}

/-- After a sequence of requests to a new table. -/
def run (requests : List NameRequest) : NameHistory :=
  requests.foldl (step policy) {}

variable {policy} {history : NameHistory}

/-- Requests for several names are requests for one name after the other. -/
theorem table_getAll (kind : NameKind) (names : List String) (history : NameHistory) :
    (getAll policy kind names history).table = history.table.populate policy kind names := by
  induction names generalizing history with
  | nil => rfl
  | cons name names ih =>
    rw [getAll, ih]
    rfl

theorem step_populate (names : List String) (kind : NameKind) :
    history.step policy (.populate names kind) = getAll policy kind names history := by
  rw [step, ← table_getAll]

/-! ## Keeping identifiers apart -/

/-- Whether what was given out is kept apart: a logical name has the identifier
    that is assigned to it, and every other identifier is assigned to no name
    and given out once. -/
structure Apart (policy : NamePolicy) (history : NameHistory) : Prop where
  fits {word : String} (h : word ∈ history.table.taken) :
    IsIdentifier word ∧ word ∉ policy.reserved
  taken {entry : (NameKind × String) × String} (h : entry ∈ history.table.assigned) :
    entry.2 ∈ history.table.taken
  nodup : (history.table.assigned.map Prod.snd).Nodup
  named {grant : Grant} {name : String} (h : grant ∈ history.grants) (hname : grant.name = some name) :
    ∃ word, history.table.assigned.lookup (grant.kind, lower name) = some word ∧
      grant.text = policy.sign grant.kind ++ word
  own {grant : Grant} (h : grant ∈ history.grants) (hname : grant.name = none) :
    ∃ word ∈ history.table.taken, word ∉ history.table.assigned.map Prod.snd ∧
      grant.text = policy.sign grant.kind ++ word
  once : history.grants.Pairwise fun first second =>
    first.name = none → second.name = none → first.word policy ≠ second.word policy

/-- A table that has given out nothing. -/
theorem apart_empty : Apart policy {} where
  fits h := by simp at h
  taken h := by simp at h
  nodup := List.nodup_nil
  named h := by simp at h
  own h := by simp at h
  once := List.Pairwise.nil

theorem mem_of_lookup {entries : List ((NameKind × String) × String)} {key : NameKind × String}
    {word : String} (h : entries.lookup key = some word) : (key, word) ∈ entries := by
  induction entries with
  | nil => simp at h
  | cons entry entries ih =>
    rw [List.lookup_cons] at h
    split at h
    · next heq =>
      obtain rfl := eq_of_beq heq
      cases h
      exact List.mem_cons_self
    · exact List.mem_cons_of_mem _ (ih h)

/-- A new identifier is one that has not been given out. -/
theorem allocate_notMem (policy : NamePolicy) (table : NameTable) (name : String)
    (kind : NameKind) : (table.allocate policy name kind).1 ∉ table.taken := by
  intro hmem
  have hfree := NameTable.clashes_allocate policy table name kind
  simp [NameTable.clashes, NameTable.avoided, hmem] at hfree

/-- All identifiers fit the language after one more is given out. -/
theorem Apart.fits_allocate (h : history.Apart policy) (name : String) (kind : NameKind)
    {word : String} (hword : word ∈ (history.table.allocate policy name kind).2.taken) :
    IsIdentifier word ∧ word ∉ policy.reserved := by
  rcases List.mem_cons.mp hword with rfl | hold
  · have hfits : policy.Fits kind (history.table.allocate policy name kind).1 :=
      NameTable.fits_allocate name
    exact ⟨hfits.identifier, hfits.notReserved⟩
  · exact h.fits hold

/-- A new identifier is assigned to no name. -/
theorem Apart.allocate_notAssigned (h : history.Apart policy) (name : String) (kind : NameKind) :
    (history.table.allocate policy name kind).1 ∉ history.table.assigned.map Prod.snd := by
  intro hmem
  obtain ⟨entry, hentry, heq⟩ := List.mem_map.mp hmem
  exact allocate_notMem policy history.table name kind (heq ▸ h.taken hentry)

theorem Apart.once_named (h : history.Apart policy) (name text : String) (kind : NameKind) :
    (⟨kind, some name, text⟩ :: history.grants).Pairwise fun first second =>
      first.name = none → second.name = none → first.word policy ≠ second.word policy :=
  List.pairwise_cons.mpr ⟨fun _ _ hnone => by simp at hnone, h.once⟩

/-- A logical name that has an identifier keeps it. -/
theorem Apart.get_of_lookup (h : history.Apart policy) {name word : String} {kind : NameKind}
    (hlookup : history.table.assigned.lookup (kind, lower name) = some word) :
    Apart policy ⟨history.table, ⟨kind, some name, policy.sign kind ++ word⟩ :: history.grants⟩ where
  fits := h.fits
  taken := h.taken
  nodup := h.nodup
  named := by
    intro grant name' hmem hname
    rcases List.mem_cons.mp hmem with rfl | hold
    · cases hname
      exact ⟨word, hlookup, rfl⟩
    · exact h.named hold hname
  own := by
    intro grant hmem hname
    rcases List.mem_cons.mp hmem with rfl | hold
    · cases hname
    · exact h.own hold hname
  once := h.once_named name _ kind

/-- A logical name without an identifier gets a new one. -/
theorem Apart.get_of_new (h : history.Apart policy) {name : String} {kind : NameKind}
    (hlookup : history.table.assigned.lookup (kind, lower name) = none) {word : String}
    {table : NameTable} (hnew : history.table.allocate policy name kind = (word, table)) :
    Apart policy
      ⟨{ table with assigned := ((kind, lower name), word) :: table.assigned },
        ⟨kind, some name, policy.sign kind ++ word⟩ :: history.grants⟩ := by
  have hunassigned := h.allocate_notAssigned name kind
  have hfits : ∀ other, other ∈ (history.table.allocate policy name kind).2.taken →
      IsIdentifier other ∧ other ∉ policy.reserved := fun _ => h.fits_allocate name kind
  have hfresh : word ∉ history.table.taken := by
    have := allocate_notMem policy history.table name kind
    rwa [hnew] at this
  obtain rfl : table = { history.table with taken := word :: history.table.taken } := by
    cases hnew
    rfl
  rw [hnew] at hunassigned hfits
  refine ⟨fun hword => hfits _ hword, ?_, List.nodup_cons.mpr ⟨hunassigned, h.nodup⟩, ?_, ?_,
    h.once_named name _ kind⟩
  · intro entry hmem
    rcases List.mem_cons.mp hmem with rfl | hold
    · exact List.mem_cons_self
    · exact List.mem_cons_of_mem _ (h.taken hold)
  · intro grant name' hmem hname
    rcases List.mem_cons.mp hmem with rfl | hold
    · cases hname
      exact ⟨word, List.lookup_cons_self, rfl⟩
    · obtain ⟨word', hold', htext⟩ := h.named hold hname
      exact ⟨word', lookup_cons_of_lookup hlookup hold', htext⟩
  · intro grant hmem hname
    rcases List.mem_cons.mp hmem with rfl | hold
    · cases hname
    · obtain ⟨word', htaken, hno, htext⟩ := h.own hold hname
      refine ⟨word', List.mem_cons_of_mem _ htaken, ?_, htext⟩
      rw [List.map_cons, List.mem_cons, not_or]
      refine ⟨fun heq => hfresh ?_, hno⟩
      rw [← show word' = word from heq]
      exact htaken

/-- A request for the identifier of a logical name keeps the identifiers
    apart. -/
theorem Apart.get (h : history.Apart policy) (name : String) (kind : NameKind) :
    (history.get policy name kind).Apart policy := by
  unfold NameHistory.get NameTable.get
  dsimp only
  cases hlookup : history.table.assigned.lookup (kind, lower name) with
  | some word => exact h.get_of_lookup hlookup
  | none => exact h.get_of_new hlookup rfl

/-- A request for an identifier of its own keeps the identifiers apart. -/
theorem Apart.distinct (h : history.Apart policy) (name : String) (kind : NameKind) :
    (history.distinct policy name kind).Apart policy := by
  have hunassigned := h.allocate_notAssigned name kind
  have hfresh := allocate_notMem policy history.table name kind
  refine ⟨fun hword => h.fits_allocate name kind hword, fun hentry => List.mem_cons_of_mem _ (h.taken hentry),
    h.nodup, ?_, ?_, ?_⟩
  · intro grant name' hmem hname
    rcases List.mem_cons.mp hmem with rfl | hold
    · cases hname
    · exact h.named hold hname
  · intro grant hmem hname
    rcases List.mem_cons.mp hmem with rfl | hold
    · exact ⟨_, List.mem_cons_self, hunassigned, rfl⟩
    · obtain ⟨word, htaken, hno, htext⟩ := h.own hold hname
      exact ⟨word, List.mem_cons_of_mem _ htaken, hno, htext⟩
  · refine List.pairwise_cons.mpr ⟨fun earlier hmem _ hnone heq => ?_, h.once⟩
    obtain ⟨word, htaken, -, htext⟩ := h.own hmem hnone
    rw [Grant.word_eq rfl, Grant.word_eq htext] at heq
    rw [← show (history.table.allocate policy name kind).1 = word from heq] at htaken
    exact hfresh htaken

theorem Apart.getAll (kind : NameKind) (names : List String) {history : NameHistory}
    (h : history.Apart policy) : (getAll policy kind names history).Apart policy := by
  induction names generalizing history with
  | nil => exact h
  | cons name names ih => exact ih (h.get name kind)

/-- Every request keeps the identifiers apart. -/
theorem Apart.step (h : history.Apart policy) (request : NameRequest) :
    (history.step policy request).Apart policy := by
  cases request with
  | get name kind => exact h.get name kind
  | distinct name kind => exact h.distinct name kind
  | populate names kind =>
    rw [step_populate]
    exact h.getAll kind names
  | reset => exact apart_empty

/-- The identifiers of a table are apart after any requests. -/
theorem apart_run (policy : NamePolicy) (requests : List NameRequest) :
    (run policy requests).Apart policy := by
  suffices h : ∀ history : NameHistory, history.Apart policy →
      (requests.foldl (NameHistory.step policy) history).Apart policy from h {} apart_empty
  intro history h
  induction requests generalizing history with
  | nil => exact h
  | cons request requests ih => exact ih _ (h.step request)

/-! ## Comparing identifiers -/

/-- What was given out is an identifier behind the sign of its kind. -/
theorem Apart.exists_word (h : history.Apart policy) {grant : Grant} (hmem : grant ∈ history.grants) :
    grant.text = policy.sign grant.kind ++ grant.word policy ∧
      grant.word policy ∈ history.table.taken := by
  cases hname : grant.name with
  | some name =>
    obtain ⟨word, hlookup, htext⟩ := h.named hmem hname
    rw [Grant.word_eq htext]
    exact ⟨htext, h.taken (mem_of_lookup hlookup)⟩
  | none =>
    obtain ⟨word, htaken, -, htext⟩ := h.own hmem hname
    rw [Grant.word_eq htext]
    exact ⟨htext, htaken⟩

/-- The identifier of a logical name is the one assigned to it. -/
theorem Apart.lookup_word (h : history.Apart policy) {grant : Grant} {name : String}
    (hmem : grant ∈ history.grants) (hname : grant.name = some name) :
    history.table.assigned.lookup (grant.kind, lower name) = some (grant.word policy) := by
  obtain ⟨word, hlookup, htext⟩ := h.named hmem hname
  rw [Grant.word_eq htext]
  exact hlookup

/-- An identifier is assigned to one logical name at most. -/
theorem Apart.key_eq (h : history.Apart policy) {key key' : NameKind × String} {word : String}
    (hlookup : history.table.assigned.lookup key = some word)
    (hlookup' : history.table.assigned.lookup key' = some word) : key = key' := by
  have hinj := List.inj_on_of_nodup_map h.nodup (mem_of_lookup hlookup) (mem_of_lookup hlookup') rfl
  exact congrArg Prod.fst hinj

/-- Two identifiers given out are equal exactly when they were given out for one
    logical name. -/
theorem Apart.word_eq_iff (h : history.Apart policy) :
    history.grants.Pairwise fun first second =>
      first.word policy = second.word policy ↔ first.SameName second := by
  refine h.once.imp_of_mem fun {first second} hfirst hsecond hown => ?_
  constructor
  · intro heq
    cases hname : first.name with
    | some name =>
      have hlookup := h.lookup_word hfirst hname
      cases hname' : second.name with
      | some name' =>
        have hlookup' := h.lookup_word hsecond hname'
        obtain ⟨hkind, hlower⟩ := Prod.mk.inj (h.key_eq (heq ▸ hlookup) hlookup')
        exact ⟨hkind, name, name', hname, hname', hlower⟩
      | none =>
        obtain ⟨word, -, hno, htext⟩ := h.own hsecond hname'
        rw [heq, Grant.word_eq htext] at hlookup
        exact absurd (List.mem_map_of_mem (mem_of_lookup hlookup)) hno
    | none =>
      obtain ⟨word, -, hno, htext⟩ := h.own hfirst hname
      cases hname' : second.name with
      | some name' =>
        have hlookup' := h.lookup_word hsecond hname'
        rw [← heq, Grant.word_eq htext] at hlookup'
        exact absurd (List.mem_map_of_mem (mem_of_lookup hlookup')) hno
      | none => exact absurd heq (hown hname hname')
  · rintro ⟨hkind, name, name', hname, hname', hlower⟩
    have hlookup := h.lookup_word hfirst hname
    rw [hkind, hlower, h.lookup_word hsecond hname'] at hlookup
    exact (Option.some.inj hlookup).symm

end NameHistory

/-- Whatever a name table is asked for, any two identifiers given out since the
    last reset are equal exactly when they were given out for one logical name of
    one kind, in any case; each of them is an identifier that is not reserved,
    behind the sign of its kind. -/
theorem grants_apart (policy : NamePolicy) (requests : List NameRequest) :
    ((NameHistory.run policy requests).grants.Pairwise fun first second =>
      (first.word policy = second.word policy ↔ first.SameName second) ∧
        ∀ name name', first.name = some name → second.name = some name' →
          first.kind = second.kind → (first.text = second.text ↔ lower name = lower name')) ∧
      ∀ grant ∈ (NameHistory.run policy requests).grants,
        grant.text = policy.sign grant.kind ++ grant.word policy ∧
          grant.word policy ∉ policy.reserved ∧ IsIdentifier (grant.word policy) := by
  have h := NameHistory.apart_run policy requests
  constructor
  · refine h.word_eq_iff.imp_of_mem fun {first second} hfirst hsecond hiff => ⟨hiff, ?_⟩
    intro name name' hname hname' hkind
    have htext : first.text = second.text ↔ first.word policy = second.word policy := by
      rw [(h.exists_word hfirst).1, (h.exists_word hsecond).1, hkind, String.append_right_inj]
    rw [htext, hiff]
    simp [Grant.SameName, hkind, hname, hname']
  · intro grant hmem
    obtain ⟨htext, htaken⟩ := h.exists_word hmem
    obtain ⟨hidentifier, hreserved⟩ := h.fits htaken
    exact ⟨htext, hreserved, hidentifier⟩

end BlockScript
