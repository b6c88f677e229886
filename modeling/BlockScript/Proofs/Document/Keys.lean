import BlockScript.Loading
import BlockScript.Proofs.Document.Validation
import BlockScript.Proofs.Pass.Entries
import BlockScript.Proofs.Pass.Ledger

/-!
# Keys of documents

A value that is read from a text has no object with a key twice: a member whose key was there
before takes the place of the earlier one. What is shown of documents without such objects holds
of every text.

Results:

* `keysDistinct_of_read`: no object of a value that is read has a key twice.
* `Workspace.isReport_of_ofText`: a text is refused with a report of the value it is read as.
-/

namespace BlockScript

open BlockScript.Json BlockScript.Document

/-- Whether a reader gives nothing but values with a property. -/
def Json.Gives {α : Type} (P : α → Prop) (outcome : Except ReadError (α × Cursor)) : Prop :=
  ∀ value cursor, outcome = .ok (value, cursor) → P value

namespace Json.Gives

variable {α β : Type} {P : α → Prop} {Q : β → Prop}

theorem error (error : ReadError) : Gives P (Except.error error) := by
  rintro _ _ ⟨⟩

theorem fail (cursor : Cursor) (fault : Fault) : Gives P (cursor.fail fault) :=
  .error _

theorem pure {value : α} (h : P value) (cursor : Cursor) :
    Gives P (Except.ok (value, cursor)) := by
  rintro _ _ ⟨⟩
  exact h

theorem any (outcome : Except ReadError (α × Cursor)) : Gives (fun _ => True) outcome :=
  fun _ _ _ => trivial

theorem bind {outcome : Except ReadError (α × Cursor)}
    {next : α × Cursor → Except ReadError (β × Cursor)} (h : Gives P outcome)
    (hnext : ∀ value cursor, P value → Gives Q (next (value, cursor))) :
    Gives Q (outcome >>= next) := by
  cases houtcome : outcome with
  | error error => exact .error error
  | ok result => exact hnext result.1 result.2 (h _ _ houtcome)

theorem ite {condition : Prop} [Decidable condition]
    {first second : Except ReadError (α × Cursor)} (hfirst : Gives P first)
    (hsecond : Gives P second) : Gives P (if condition then first else second) := by
  split
  · exact hfirst
  · exact hsecond

end Json.Gives

/-- Whether the members of an object have different keys, and so everything inside of them. -/
def MembersDistinct (members : List (String × Json)) : Prop :=
  (members.map Prod.fst).Nodup ∧ ∀ member ∈ members, member.2.KeysDistinct

theorem MembersDistinct.insert {members : List (String × Json)} (h : MembersDistinct members)
    {json : Json} (hjson : json.KeysDistinct) (key : String) :
    MembersDistinct (Json.insert members key json) := by
  constructor
  · rw [keys_insert]
    split
    case isTrue => exact h.1
    case isFalse hnew =>
      exact List.nodup_append.mpr ⟨h.1, List.nodup_singleton key, fun other hother _ hkey heq =>
        hnew (List.mem_singleton.mp hkey ▸ heq ▸ hother)⟩
  · intro member hmember
    rcases mem_insert hmember with hmember | rfl
    · exact h.2 member hmember
    · exact hjson

/-- What the readers give that call each other. -/
structure ReadsDistinct (fuel : Nat) : Prop where
  value : ∀ levels cursor, Gives Json.KeysDistinct (readValue fuel levels cursor)
  items : ∀ levels cursor,
    Gives (fun items => ∀ item ∈ items, item.KeysDistinct) (readItems fuel levels cursor)
  members : ∀ levels members cursor, MembersDistinct members →
    Gives MembersDistinct (readMembers fuel levels members cursor)

theorem keysDistinct_of_readWord? {cursor : Cursor} {json : Json} {rest : Cursor}
    (h : readWord? cursor = some (json, rest)) : json.KeysDistinct := by
  have hwords : ∀ entry ∈ wordValues, entry.2.KeysDistinct := by
    simp [wordValues, Json.KeysDistinct]
  obtain ⟨⟨word, value⟩, hword, heq⟩ := List.exists_of_findSome?_eq_some h
  dsimp only at heq
  split at heq
  · cases heq
    exact hwords _ hword
  · cases heq

theorem gives_readNumber (cursor : Cursor) : Gives Json.KeysDistinct (readNumber cursor) := by
  have hint (n : Int) : (Json.int n).KeysDistinct := by simp [Json.KeysDistinct]
  have hfloat (d : Number.Double) : (Json.float d).KeysDistinct := by simp [Json.KeysDistinct]
  unfold readNumber
  exact .ite (.fail _ _) (.ite (.ite (.error _) (.pure (hint _) _)) (.pure (hfloat _) _))

namespace ReadsDistinct

variable {fuel : Nat}

theorem gives_value (h : ReadsDistinct fuel) (levels : Option Nat) (cursor : Cursor) :
    Gives Json.KeysDistinct (readValue (fuel + 1) levels cursor) := by
  rw [readValue]
  split
  · have htext (text : String) : (Json.str text).KeysDistinct := by simp [Json.KeysDistinct]
    exact (Gives.any _).bind fun text cursor _ => .pure (htext text) cursor
  · refine .ite (.fail _ _) ?_
    dsimp only
    split
    · exact .pure (by simp [Json.KeysDistinct]) _
    · refine (h.items _ _).bind fun items cursor hitems => .pure ?_ cursor
      rwa [Json.KeysDistinct]
  · refine .ite (.fail _ _) ?_
    dsimp only
    split
    · exact .pure (by simp [Json.KeysDistinct]) _
    · have hnone : MembersDistinct [] := ⟨List.nodup_nil, by simp⟩
      refine (h.members _ [] _ hnone).bind fun members cursor hmembers => .pure ?_ cursor
      rwa [Json.KeysDistinct]
  · split
    case h_1 result hword =>
      rintro _ _ ⟨⟩
      exact keysDistinct_of_readWord? hword
    case h_2 => exact gives_readNumber cursor

theorem gives_items (h : ReadsDistinct fuel) (levels : Option Nat) (cursor : Cursor) :
    Gives (fun items => ∀ item ∈ items, item.KeysDistinct)
      (readItems (fuel + 1) levels cursor) := by
  rw [readItems]
  refine (h.value levels cursor).bind fun item cursor hitem => ?_
  dsimp only
  split
  · exact .pure (by simpa using hitem) _
  · exact (h.items _ _).bind fun items cursor hitems =>
      .pure (List.forall_mem_cons.mpr ⟨hitem, hitems⟩) cursor
  · exact .fail _ _

theorem gives_members (h : ReadsDistinct fuel) (levels : Option Nat)
    {members : List (String × Json)} (hmembers : MembersDistinct members) (cursor : Cursor) :
    Gives MembersDistinct (readMembers (fuel + 1) levels members cursor) := by
  rw [readMembers]
  split
  · refine (Gives.any _).bind fun key cursor _ => ?_
    dsimp only
    split
    · refine (h.value _ _).bind fun json cursor hjson => ?_
      have hmore := hmembers.insert hjson key
      dsimp only
      split
      · exact .pure hmore _
      · exact h.members _ _ _ hmore
      · exact .fail _ _
    · exact .fail _ _
  · exact .fail _ _

end ReadsDistinct

theorem readsDistinct (fuel : Nat) : ReadsDistinct fuel := by
  induction fuel with
  | zero =>
    constructor
    case value =>
      intro levels cursor
      rw [readValue]
      exact .fail _ _
    case items =>
      intro levels cursor
      rw [readItems]
      exact .fail _ _
    case members =>
      intro levels members cursor _
      rw [readMembers]
      exact .fail _ _
  | succ fuel ih =>
    exact ⟨ih.gives_value, ih.gives_items, fun levels _ cursor h => ih.gives_members levels h cursor⟩

/-- A text is read as the first value in it. -/
theorem readWithin_eq_ok {levels : Option Nat} {text : String} {json : Json} {half : Bool}
    (h : readWithin levels text = .ok (json, half)) : ∃ fuel cursor rest,
      readValue fuel levels cursor = .ok (json, rest) := by
  unfold readWithin at h
  dsimp only at h
  split at h
  · cases h
  · generalize hvalue : readValue _ levels _ = outcome at h
    cases outcome with
    | error error => cases h
    | ok result =>
      dsimp only [bind, Except.bind] at h
      split at h
      · cases h
        exact ⟨_, _, _, hvalue⟩
      · cases h

/-- No object of a value that is read has a key twice. -/
theorem keysDistinct_of_read {text : String} {json : Json} (h : Json.read text = .ok json) :
    json.KeysDistinct := by
  unfold Json.read at h
  cases hread : readWithin none text with
  | error error =>
    rw [hread] at h
    cases h
  | ok result =>
    rw [hread] at h
    cases h
    obtain ⟨fuel, cursor, rest, hvalue⟩ := readWithin_eq_ok hread
    exact (readsDistinct fuel).value none cursor _ rest hvalue

/-- The kind that a schema asks for at the root. -/
def Schema.kind : Schema → Document.Kind
  | .block => .block
  | .workspace => .workspace

/-- A document is refused with a report of it, as a block or as a workspace. -/
theorem Workspace.isReport_of_ofJson {json : Json} {schema : Schema} {faults : List SchemaFault}
    (hkeys : json.KeysDistinct)
    (h : Workspace.ofJson json = .error (.invalid schema faults)) :
    IsReport schema.kind json faults := by
  have hblock : ∀ faults, (checkBlock json).toExcept = .error faults →
      IsReport .block json faults :=
    (Kind.block.toExcept_cases rfl hkeys).2
  have hworkspace : ∀ faults, (checkWorkspace json).toExcept = .error faults →
      IsReport .workspace json faults :=
    (Kind.workspace.toExcept_cases rfl hkeys).2
  unfold Workspace.ofJson loadBlock at h
  cases hmentions : mentionsType json with
  | error failure =>
    rw [hmentions] at h
    cases h
    cases json <;> cases hmentions
  | ok isSingle =>
    rw [hmentions] at h
    dsimp only [bind, Except.bind] at h
    cases isSingle with
    | true =>
      rw [if_pos rfl] at h
      cases hchecked : (checkBlock json).toExcept with
      | ok tree =>
        rw [hchecked] at h
        cases h
      | error found =>
        rw [hchecked] at h
        cases h
        exact hblock _ hchecked
    | false =>
      rw [if_neg Bool.false_ne_true] at h
      cases hchecked : (checkWorkspace json).toExcept with
      | ok workspace =>
        rw [hchecked] at h
        cases h
      | error found =>
        rw [hchecked] at h
        cases h
        exact hworkspace _ hchecked

/-- A text is refused with a report of the value that it is read as. -/
theorem Workspace.isReport_of_ofText {text : String} {schema : Schema}
    {faults : List SchemaFault} (h : Workspace.ofText text = .error (.invalid schema faults)) :
    ∃ json, Json.read text = .ok json ∧ IsReport schema.kind json faults := by
  unfold ofText at h
  split at h
  case h_1 json hread => exact ⟨json, hread, isReport_of_ofJson (keysDistinct_of_read hread) h⟩
  case h_2 => cases h

end BlockScript
