import BlockScript.Document
import BlockScript.Proofs.Graph.Links
import Mathlib.Data.List.Basic

/-!
# The schema of documents

What a document has to look like, apart from how it is checked. A kind is what the schema asks
for at one place. A value of the right kind leads to places one step further down, where the
schema asks for something again.

Results:

* `Kind.conforms_iff`: a value conforms if it is of the right kind and its places conform.
* `Kind.places_cases`: a place is that of a member, of an item, or of a type that is not there.
-/

namespace BlockScript

open BlockScript.Number

namespace Json

/-- The value at the end of a path. -/
def follow : Json → List Step → Option Json
  | json, [] => some json
  | .obj members, .key key :: path => (find? members key).bind fun json => json.follow path
  | .arr items, .index position :: path => items[position]?.bind fun json => json.follow path
  | _, _ => none

/-- Whether no object in a value has a key twice. -/
def KeysDistinct : Json → Prop
  | .arr items => ∀ item ∈ items, item.KeysDistinct
  | .obj members => (members.map Prod.fst).Nodup ∧ ∀ member ∈ members, member.2.KeysDistinct
  | _ => True
termination_by json => sizeOf json
decreasing_by
  · have := List.sizeOf_lt_of_mem ‹item ∈ items›
    simp only [Json.arr.sizeOf_spec]
    omega
  · have := List.sizeOf_lt_of_mem ‹member ∈ members›
    obtain ⟨key, json⟩ := member
    simp only [Prod.mk.sizeOf_spec, Json.obj.sizeOf_spec] at *
    omega

/-- A member is found under its key if no other one has it. -/
theorem find?_eq_some_of_mem {α : Type} {members : List (String × α)} {key : String} {value : α}
    (h : (members.map Prod.fst).Nodup) (hmem : (key, value) ∈ members) :
    find? members key = some value := by
  induction members with
  | nil => exact absurd hmem List.not_mem_nil
  | cons member members ih =>
    rw [List.map_cons, List.nodup_cons] at h
    unfold find? at ih ⊢
    rcases List.mem_cons.mp hmem with rfl | hrest
    · simp
    · have hne : member.1 ≠ key := fun heq => h.1 (heq ▸ List.mem_map_of_mem hrest)
      rw [List.find?_cons_of_neg (by simpa using hne)]
      exact ih h.2 hrest

end Json

namespace Document

/-! ## Conforming documents -/

/-- A text. -/
def IsText : Json → Prop
  | .str _ => True
  | _ => False

/-- A text or nothing. -/
def IsComment (json : Json) : Prop :=
  json = .null ∨ IsText json

/-- A truth value, or a number or a word that stands for one. -/
def IsTruth : Json → Prop
  | .bool _ => True
  | .int n => n = 0 ∨ n = 1
  | .float d => d.toInt? = some 0 ∨ d.toInt? = some 1
  | .str text => text.map Char.toLower ∈ trueWords ++ falseWords
  | _ => False

/-- A truth value, a number or a text. -/
def IsScalar : Json → Prop
  | .bool _ | .int _ | .float _ | .str _ => True
  | _ => False

/-- An object of anything. -/
def IsObject (json : Json) : Prop :=
  ∃ members, json = .obj members

/-- An object of scalars. -/
def AreFields (json : Json) : Prop :=
  ∃ members, json = .obj members ∧ ∀ member ∈ members, IsScalar member.2

/-- What stands for the block below a block. The short key is looked at first. -/
def belowOf (members : List (String × Json)) : Option Json :=
  (Json.find? members "next").or (Json.find? members "next_block")

mutual

/-- A block: an object with a text for its type. Everything else may be left out; what is given
    is of the right kind. -/
inductive IsBlock : Json → Prop
  | intro {members : List (String × Json)}
      (type : ∃ text, Json.find? members "type" = some (.str text))
      (id : ∀ json ∈ Json.find? members "id", IsText json)
      (fields : ∀ json ∈ Json.find? members "fields", AreFields json)
      (values : ∀ json ∈ Json.find? members "values", AreSockets json)
      (statements : ∀ json ∈ Json.find? members "statements", AreSockets json)
      (next : ∀ json ∈ belowOf members, IsPlug json)
      (comment : ∀ json ∈ Json.find? members "comment", IsComment json)
      (enabled : ∀ json ∈ Json.find? members "enabled", IsTruth json)
      (extraState : ∀ json ∈ Json.find? members "extra_state", IsObject json) :
      IsBlock (.obj members)

/-- A block or nothing. -/
inductive IsPlug : Json → Prop
  | nothing : IsPlug .null
  | block {json : Json} (block : IsBlock json) : IsPlug json

/-- An object with a block or nothing under each key. -/
inductive AreSockets : Json → Prop
  | intro {members : List (String × Json)} (plugs : ∀ member ∈ members, IsPlug member.2) :
      AreSockets (.obj members)

end

/-- A list of texts. -/
def AreTexts (json : Json) : Prop :=
  ∃ items, json = .arr items ∧ ∀ item ∈ items, IsText item

/-- A list of blocks. -/
def AreBlocks (json : Json) : Prop :=
  ∃ items, json = .arr items ∧ ∀ item ∈ items, IsBlock item

/-- A workspace: an object in which every list that is given is of the right kind. -/
def IsWorkspace (json : Json) : Prop :=
  ∃ members, json = .obj members ∧
    (∀ json ∈ Json.find? members "variables", AreTexts json) ∧
    (∀ json ∈ Json.find? members "developer_variables", AreTexts json) ∧
    ∀ json ∈ Json.find? members "blocks", AreBlocks json

/-! ## Kinds and places -/

/-- What the schema asks for. -/
inductive Kind where
  | text
  | comment
  | truth
  | scalar
  | object
  | fields
  | plug
  | sockets
  | block
  | texts
  | blocks
  | workspace
  deriving DecidableEq

/-- A place one step further down, the kind that is asked for there, and what is there. -/
structure Place where
  step : Step
  kind : Kind
  content : Option Json

variable {kind asked : Kind} {json inner : Json} {members : List (String × Json)} {place : Place}
  {key : String} {path : List Step} {content : Option Json}

/-- The place of a key that may be left out. -/
def optionalPlace (members : List (String × Json)) (key : String) (kind : Kind) : List Place :=
  ((Json.find? members key).map fun json => ⟨.key key, kind, some json⟩).toList

/-- The place of the block below. -/
def belowPlace (members : List (String × Json)) : List Place :=
  if (Json.find? members "next").isSome then optionalPlace members "next" .plug
  else optionalPlace members "next_block" .plug

/-- The places of a block in the order of declaration. -/
def blockPlaces (members : List (String × Json)) : List Place :=
  ⟨.key "type", .text, Json.find? members "type"⟩ ::
    (optionalPlace members "id" .text ++ optionalPlace members "fields" .fields ++
      optionalPlace members "values" .sockets ++ optionalPlace members "statements" .sockets ++
      belowPlace members ++ optionalPlace members "comment" .comment ++
      optionalPlace members "enabled" .truth ++ optionalPlace members "extra_state" .object)

/-- The places of a workspace in the order of declaration. -/
def workspacePlaces (members : List (String × Json)) : List Place :=
  optionalPlace members "variables" .texts ++ optionalPlace members "developer_variables" .texts ++
    optionalPlace members "blocks" .blocks

namespace Kind

/-- Whether a value is of the kind, whatever is inside. -/
def fits : Kind → Json → Bool
  | .text, .str _ => true
  | .comment, .null | .comment, .str _ => true
  | .truth, .bool _ => true
  | .truth, .int n => n = 0 || n = 1
  | .truth, .float d => d.toInt? = some 0 || d.toInt? = some 1
  | .truth, .str word => (trueWords ++ falseWords).contains (word.map Char.toLower)
  | .scalar, .bool _ | .scalar, .int _ | .scalar, .float _ | .scalar, .str _ => true
  | .plug, .null => true
  | .object, .obj _ | .fields, .obj _ | .sockets, .obj _ => true
  | .plug, .obj _ | .block, .obj _ | .workspace, .obj _ => true
  | .texts, .arr _ | .blocks, .arr _ => true
  | _, _ => false

/-- The places that a value of the kind leads to. -/
def places : Kind → Json → List Place
  | .fields, .obj members => members.map fun member => ⟨.key member.1, .scalar, some member.2⟩
  | .sockets, .obj members => members.map fun member => ⟨.key member.1, .plug, some member.2⟩
  | .plug, .obj members | .block, .obj members => blockPlaces members
  | .texts, .arr items => items.mapIdx fun position item => ⟨.index position, .text, some item⟩
  | .blocks, .arr items => items.mapIdx fun position item => ⟨.index position, .block, some item⟩
  | .workspace, .obj members => workspacePlaces members
  | _, _ => []

/-- Whether a value conforms to the schema where the kind is asked for. -/
def Conforms : Kind → Json → Prop
  | .text => IsText
  | .comment => IsComment
  | .truth => IsTruth
  | .scalar => IsScalar
  | .object => IsObject
  | .fields => AreFields
  | .plug => IsPlug
  | .sockets => AreSockets
  | .block => IsBlock
  | .texts => AreTexts
  | .blocks => AreBlocks
  | .workspace => IsWorkspace

end Kind

/-- Whether there is something at a place that conforms. -/
def Place.Conforms (place : Place) : Prop :=
  ∃ json, place.content = some json ∧ place.kind.Conforms json

theorem conforms_optionalPlace_iff (members : List (String × Json)) (key : String) (kind : Kind) :
    (∀ place ∈ optionalPlace members key kind, place.Conforms) ↔
      ∀ json ∈ Json.find? members key, kind.Conforms json := by
  unfold optionalPlace Place.Conforms
  cases Json.find? members key <;> simp

theorem conforms_belowPlace_iff (members : List (String × Json)) :
    (∀ place ∈ belowPlace members, place.Conforms) ↔ ∀ json ∈ belowOf members, IsPlug json := by
  unfold belowPlace belowOf
  cases hnext : Json.find? members "next" with
  | none => exact conforms_optionalPlace_iff members "next_block" .plug
  | some json =>
    rw [Option.isSome_some, if_pos rfl, conforms_optionalPlace_iff, hnext, Option.some_or]
    rfl

theorem conforms_blockPlaces_iff (members : List (String × Json)) :
    (∀ place ∈ blockPlaces members, place.Conforms) ↔ IsBlock (.obj members) := by
  have htype : Place.Conforms ⟨.key "type", .text, Json.find? members "type"⟩ ↔
      ∃ text, Json.find? members "type" = some (.str text) := by
    constructor
    · rintro ⟨json, hjson, htext⟩
      cases json with
      | str text => exact ⟨text, hjson⟩
      | _ => exact absurd htext id
    · rintro ⟨text, htext⟩
      exact ⟨.str text, htext, trivial⟩
  simp only [blockPlaces, List.forall_mem_cons, List.forall_mem_append, htype,
    conforms_optionalPlace_iff, conforms_belowPlace_iff]
  constructor
  · rintro ⟨type, ⟨⟨⟨⟨⟨⟨id, fields⟩, values⟩, statements⟩, next⟩, comment⟩, enabled⟩, extraState⟩
    exact .intro type id fields values statements next comment enabled extraState
  · rintro ⟨type, id, fields, values, statements, next, comment, enabled, extraState⟩
    exact ⟨type, ⟨⟨⟨⟨⟨⟨id, fields⟩, values⟩, statements⟩, next⟩, comment⟩, enabled⟩, extraState⟩

theorem conforms_workspacePlaces_iff (members : List (String × Json)) :
    (∀ place ∈ workspacePlaces members, place.Conforms) ↔ IsWorkspace (.obj members) := by
  simp only [workspacePlaces, List.forall_mem_append, conforms_optionalPlace_iff]
  constructor
  · rintro ⟨⟨hdeclared, hdeveloper⟩, hblocks⟩
    exact ⟨members, rfl, hdeclared, hdeveloper, hblocks⟩
  · rintro ⟨_, hmembers, hdeclared, hdeveloper, hblocks⟩
    cases hmembers
    exact ⟨⟨hdeclared, hdeveloper⟩, hblocks⟩

theorem isPlug_iff : IsPlug json ↔ json = .null ∨ IsBlock json := by
  constructor
  · rintro (_ | hblock)
    · exact .inl rfl
    · exact .inr hblock
  · rintro (rfl | hblock)
    · exact .nothing
    · exact .block hblock

theorem areSockets_iff : AreSockets json ↔
    ∃ members, json = .obj members ∧ ∀ member ∈ members, IsPlug member.2 := by
  constructor
  · rintro ⟨plugs⟩
    exact ⟨_, rfl, plugs⟩
  · rintro ⟨members, rfl, plugs⟩
    exact .intro plugs

theorem conforms_map_iff (kind : Kind) (members : List (String × Json)) :
    (∀ place ∈ members.map fun member => (⟨.key member.1, kind, some member.2⟩ : Place),
        place.Conforms) ↔ ∀ member ∈ members, kind.Conforms member.2 := by
  simp only [List.forall_mem_map, Place.Conforms, Option.some.injEq, exists_eq_left']

theorem conforms_mapIdx_iff (kind : Kind) (items : List Json) :
    (∀ place ∈ items.mapIdx fun position item => (⟨.index position, kind, some item⟩ : Place),
        place.Conforms) ↔ ∀ item ∈ items, kind.Conforms item := by
  constructor
  · intro h item hitem
    obtain ⟨position, hposition⟩ := List.mem_iff_getElem?.mp hitem
    have hmem : (⟨.index position, kind, some item⟩ : Place) ∈
        items.mapIdx fun position item => ⟨.index position, kind, some item⟩ :=
      List.mem_iff_getElem?.mpr ⟨position, by rw [List.getElem?_mapIdx, hposition]; rfl⟩
    obtain ⟨_, heq, hconforms⟩ := h _ hmem
    cases heq
    exact hconforms
  · intro h place hplace
    obtain ⟨position, hposition, rfl⟩ := List.mem_mapIdx.mp hplace
    exact ⟨_, rfl, h _ (List.getElem_mem hposition)⟩

/-- A value conforms if it is of the right kind and there is something conforming at each of its
    places. -/
theorem Kind.conforms_iff (kind : Kind) (json : Json) :
    kind.Conforms json ↔ kind.fits json = true ∧ ∀ place ∈ kind.places json, place.Conforms := by
  have hblock {json : Json} (h : IsBlock json) : ∃ members, json = .obj members := by
    obtain ⟨⟩ := h
    exact ⟨_, rfl⟩
  cases kind with
  | text => cases json <;> simp [Conforms, fits, places, IsText]
  | comment => cases json <;> simp [Conforms, fits, places, IsComment, IsText]
  | truth => cases json <;> simp [Conforms, fits, places, IsTruth]
  | scalar => cases json <;> simp [Conforms, fits, places, IsScalar]
  | object => cases json <;> simp [Conforms, fits, places, IsObject]
  | fields =>
    cases json with
    | obj members =>
      rw [places, conforms_map_iff]
      simp [Conforms, fits, AreFields]
    | _ => simp [Conforms, fits, AreFields]
  | plug =>
    cases json with
    | obj members =>
      rw [places, conforms_blockPlaces_iff]
      simp [Conforms, fits, isPlug_iff]
    | null => simp [Conforms, fits, places, isPlug_iff]
    | _ => simpa [Conforms, fits, isPlug_iff] using fun h => by simpa using hblock h
  | sockets =>
    cases json with
    | obj members =>
      rw [places, conforms_map_iff]
      simp [Conforms, fits, areSockets_iff]
    | _ => simp [Conforms, fits, areSockets_iff]
  | block =>
    cases json with
    | obj members =>
      rw [places, conforms_blockPlaces_iff]
      simp [Conforms, fits]
    | _ => simpa [Conforms, fits] using fun h => by simpa using hblock h
  | texts =>
    cases json with
    | arr items =>
      rw [places, conforms_mapIdx_iff]
      simp [Conforms, fits, AreTexts]
    | _ => simp [Conforms, fits, AreTexts]
  | blocks =>
    cases json with
    | arr items =>
      rw [places, conforms_mapIdx_iff]
      simp [Conforms, fits, AreBlocks]
    | _ => simp [Conforms, fits, AreBlocks]
  | workspace =>
    cases json with
    | obj members =>
      rw [places, conforms_workspacePlaces_iff]
      simp [Conforms, fits]
    | _ => simp [Conforms, fits, IsWorkspace]

/-! ## Where places lead -/

theorem of_mem_optionalPlace (h : place ∈ optionalPlace members key kind) :
    ∃ json, Json.find? members key = some json ∧ place = ⟨.key key, kind, some json⟩ := by
  rw [optionalPlace, Option.mem_toList, Option.map_eq_some_iff] at h
  obtain ⟨json, hjson, rfl⟩ := h
  exact ⟨json, hjson, rfl⟩

/-- A place of an object under a key that the object has. -/
def Place.IsMember (members : List (String × Json)) (place : Place) : Prop :=
  ∃ key inner, (key, inner) ∈ members ∧ place.step = .key key ∧ place.content = some inner

theorem isMember_of_optionalPlace (h : place ∈ optionalPlace members key kind) :
    place.IsMember members := by
  obtain ⟨json, hjson, rfl⟩ := of_mem_optionalPlace h
  exact ⟨key, json, Json.mem_of_find? hjson, rfl, rfl⟩

theorem isMember_of_belowPlace (h : place ∈ belowPlace members) : place.IsMember members := by
  unfold belowPlace at h
  split at h <;> exact isMember_of_optionalPlace h

/-- A place is that of a member of an object, of an item of a list, or of the type that a block
    does not have. -/
theorem Kind.places_cases (h : place ∈ kind.places json) :
    (∃ members, json = .obj members ∧ place.IsMember members) ∨
      (∃ items position inner, json = .arr items ∧ items[position]? = some inner ∧
        place.step = .index position ∧ place.content = some inner) ∨
      ∃ members, json = .obj members ∧ Json.find? members "type" = none ∧
        place = ⟨.key "type", .text, none⟩ := by
  have hblock {members : List (String × Json)} (h : place ∈ blockPlaces members) :
      place.IsMember members ∨
        (Json.find? members "type" = none ∧ place = ⟨.key "type", .text, none⟩) := by
    rcases List.mem_cons.mp h with rfl | hoptional
    · cases htype : Json.find? members "type" with
      | none => exact .inr ⟨rfl, rfl⟩
      | some json => exact .inl ⟨"type", json, Json.mem_of_find? htype, rfl, rfl⟩
    · simp only [List.mem_append] at hoptional
      rcases hoptional with ((((((h | h) | h) | h) | h) | h) | h) | h
      all_goals
        first
        | exact .inl (isMember_of_optionalPlace h)
        | exact .inl (isMember_of_belowPlace h)
  have hmap {kind : Kind} {members : List (String × Json)}
      (h : place ∈ members.map fun member => (⟨.key member.1, kind, some member.2⟩ : Place)) :
      place.IsMember members := by
    obtain ⟨member, hmember, rfl⟩ := List.mem_map.mp h
    exact ⟨member.1, member.2, hmember, rfl, rfl⟩
  have hmapIdx {kind : Kind} {items : List Json}
      (h : place ∈ items.mapIdx fun position item => (⟨.index position, kind, some item⟩ : Place)) :
      ∃ position inner, items[position]? = some inner ∧
        place.step = .index position ∧ place.content = some inner := by
    obtain ⟨position, hposition, rfl⟩ := List.mem_mapIdx.mp h
    exact ⟨position, items[position], List.getElem?_eq_getElem hposition, rfl, rfl⟩
  unfold places at h
  split at h
  · exact .inl ⟨_, rfl, hmap h⟩
  · exact .inl ⟨_, rfl, hmap h⟩
  · exact (hblock h).elim (fun h => .inl ⟨_, rfl, h⟩) fun h => .inr (.inr ⟨_, rfl, h⟩)
  · exact (hblock h).elim (fun h => .inl ⟨_, rfl, h⟩) fun h => .inr (.inr ⟨_, rfl, h⟩)
  · obtain ⟨position, inner, h⟩ := hmapIdx h
    exact .inr (.inl ⟨_, position, inner, rfl, h⟩)
  · obtain ⟨position, inner, h⟩ := hmapIdx h
    exact .inr (.inl ⟨_, position, inner, rfl, h⟩)
  · refine .inl ⟨_, rfl, ?_⟩
    simp only [workspacePlaces, List.mem_append] at h
    rcases h with (h | h) | h <;> exact isMember_of_optionalPlace h
  · exact absurd h List.not_mem_nil

theorem sizeOf_lt_of_mem_members (h : (key, inner) ∈ members) :
    sizeOf inner < sizeOf (Json.obj members) := by
  have := List.sizeOf_lt_of_mem h
  simp only [Prod.mk.sizeOf_spec, Json.obj.sizeOf_spec] at *
  omega

theorem sizeOf_lt_of_mem_items {items : List Json} (h : inner ∈ items) :
    sizeOf inner < sizeOf (Json.arr items) := by
  have := List.sizeOf_lt_of_mem h
  simp only [Json.arr.sizeOf_spec]
  omega

theorem Kind.sizeOf_lt_of_mem_places (h : place ∈ kind.places json)
    (hcontent : place.content = some inner) : sizeOf inner < sizeOf json := by
  rcases places_cases h with
    ⟨members, rfl, key, found, hmem, -, hfound⟩ | ⟨items, _, found, rfl, hat, -, hfound⟩ |
      ⟨_, _, _, rfl⟩
  · obtain rfl : found = inner := Option.some.inj (hfound.symm.trans hcontent)
    exact sizeOf_lt_of_mem_members hmem
  · obtain rfl : found = inner := Option.some.inj (hfound.symm.trans hcontent)
    exact sizeOf_lt_of_mem_items (List.mem_of_getElem? hat)
  · cases hcontent

end Document

end BlockScript
