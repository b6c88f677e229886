import BlockScript.Proofs.Document.Schema
import Mathlib.Data.List.Basic
import Mathlib.Data.List.Nodup

/-!
# Breaches of the schema

A place where a document does not give what the schema asks for is a breach. Nothing is asked for
inside a value of the wrong kind. Breaches are listed in the order of the schema, and told apart
by the paths that lead to them.

Results:

* `Kind.mem_breaches_iff`, `Kind.nodup_breaches`: the breaches of a document, each once.
* `Kind.breaches_eq_nil_iff`: a document conforms if it has no breach.
* `Asks.follow_eq`, `Asks.above_missing`: what is asked for is found along its path.
-/

namespace BlockScript

namespace Document

variable {kind asked : Kind} {json inner : Json} {members : List (String × Json)} {place : Place}
  {key : String} {path : List Step} {content : Option Json}

/-! ## What is asked for in vain -/

/-- A place, by its path, where the schema asks for a kind and does not get it. -/
structure Breach where
  path : List Step
  kind : Kind
  content : Option Json

/-- A breach seen from one step further up. -/
def Breach.under (step : Step) (breach : Breach) : Breach :=
  { breach with path := step :: breach.path }

/-- The breaches of a value where a kind is asked for, in the order of the schema. -/
def Kind.breaches (kind : Kind) (json : Json) : List Breach :=
  if kind.fits json then
    (kind.places json).attach.flatMap fun ⟨place, _⟩ =>
      match _hcontent : place.content with
      | some inner => (place.kind.breaches inner).map (.under place.step)
      | none => [⟨[place.step], place.kind, none⟩]
  else [⟨[], kind, some json⟩]
termination_by sizeOf json
decreasing_by exact Kind.sizeOf_lt_of_mem_places ‹_› _hcontent

/-- The breaches at a place and below. -/
def Place.breaches (place : Place) : List Breach :=
  match place.content with
  | some json => (place.kind.breaches json).map (.under place.step)
  | none => [⟨[place.step], place.kind, none⟩]

/-- What the schema asks for along the paths of a value. -/
inductive Asks : Kind → Json → List Step → Kind → Option Json → Prop
  | here (kind : Kind) (json : Json) : Asks kind json [] kind (some json)
  | missing {kind : Kind} {json : Json} {place : Place} (hplace : place ∈ kind.places json)
      (hcontent : place.content = none) : Asks kind json [place.step] place.kind none
  | inside {kind asked : Kind} {json inner : Json} {path : List Step} {content : Option Json}
      {place : Place} (hplace : place ∈ kind.places json) (hcontent : place.content = some inner)
      (hinner : Asks place.kind inner path asked content) :
      Asks kind json (place.step :: path) asked content

/-- Whether the schema asks for something in a value and does not get it. -/
def Breach.IsIn (kind : Kind) (json : Json) (breach : Breach) : Prop :=
  Asks kind json breach.path breach.kind breach.content ∧
    ∀ found, breach.content = some found → breach.kind.fits found = false

variable {breach : Breach}

theorem Kind.breaches_of_fits (h : kind.fits json = true) :
    kind.breaches json = (kind.places json).flatMap Place.breaches := by
  have hplace (place : { place // place ∈ kind.places json }) :
      (match _hcontent : place.1.content with
        | some inner => (place.1.kind.breaches inner).map (.under place.1.step)
        | none => [⟨[place.1.step], place.1.kind, none⟩]) = place.1.breaches := by
    rw [Place.breaches]
    split <;> simp_all
  calc
    kind.breaches json = (kind.places json).attach.flatMap fun place => place.1.breaches := by
      rw [breaches, if_pos h]
      exact List.flatMap_congr fun place _ => hplace place
    _ = ((kind.places json).attach.map Subtype.val).flatMap Place.breaches :=
      (List.flatMap_map ..).symm
    _ = (kind.places json).flatMap Place.breaches := by rw [List.attach_map_subtype_val]

theorem Kind.breaches_of_not_fits (h : kind.fits json = false) :
    kind.breaches json = [⟨[], kind, some json⟩] := by
  rw [breaches, if_neg (by simp [h])]

theorem Kind.fits_of_mem_places (h : place ∈ kind.places json) : kind.fits json = true := by
  unfold places at h
  split at h
  case h_8 => exact absurd h List.not_mem_nil
  all_goals rfl

/-- What is asked for is asked for at a place, or inside of what is there. -/
theorem mem_place_breaches_iff :
    breach ∈ place.breaches ↔
      (place.content = none ∧ breach = ⟨[place.step], place.kind, none⟩) ∨
        ∃ json, place.content = some json ∧
          ∃ inner ∈ place.kind.breaches json, inner.under place.step = breach := by
  rw [Place.breaches]
  cases place.content with
  | none => simp
  | some json => simp

/-- The breaches of a value are the places where the schema asks in vain. -/
theorem Kind.mem_breaches_iff : breach ∈ kind.breaches json ↔ breach.IsIn kind json := by
  induction hsize : sizeOf json using Nat.strongRecOn generalizing kind json breach with
  | ind size ih =>
    subst hsize
    cases hfits : kind.fits json with
    | false =>
      rw [breaches_of_not_fits hfits, List.mem_singleton]
      constructor
      · rintro rfl
        exact ⟨.here kind json, fun found hfound => by cases hfound; exact hfits⟩
      · obtain ⟨path, asked, content⟩ := breach
        rintro ⟨hasks, -⟩
        cases hasks with
        | here => rfl
        | missing hplace | inside hplace =>
          rw [fits_of_mem_places hplace] at hfits
          cases hfits
    | true =>
      rw [breaches_of_fits hfits, List.mem_flatMap]
      constructor
      · rintro ⟨place, hplace, hbreach⟩
        rcases mem_place_breaches_iff.mp hbreach with
          ⟨hnone, rfl⟩ | ⟨inner, hcontent, below, hbelow, rfl⟩
        · exact ⟨.missing hplace hnone, by simp⟩
        · obtain ⟨hasks, hvain⟩ := (ih _ (sizeOf_lt_of_mem_places hplace hcontent) rfl).mp hbelow
          exact ⟨.inside hplace hcontent hasks, hvain⟩
      · obtain ⟨path, asked, content⟩ := breach
        rintro ⟨hasks, hvain⟩
        cases hasks with
        | here =>
          rw [hvain json rfl] at hfits
          cases hfits
        | missing hplace hnone =>
          exact ⟨_, hplace, mem_place_breaches_iff.mpr (.inl ⟨hnone, rfl⟩)⟩
        | @inside _ _ _ inner path _ place hplace hcontent hasks =>
          refine ⟨place, hplace, mem_place_breaches_iff.mpr (.inr ⟨inner, hcontent, ?_⟩)⟩
          exact ⟨⟨path, asked, content⟩,
            (ih _ (sizeOf_lt_of_mem_places hplace hcontent) rfl).mpr ⟨hasks, hvain⟩, rfl⟩

/-- A document conforms if it has no breach. -/
theorem Kind.breaches_eq_nil_iff : kind.breaches json = [] ↔ kind.Conforms json := by
  induction hsize : sizeOf json using Nat.strongRecOn generalizing kind json with
  | ind size ih =>
    subst hsize
    rw [conforms_iff]
    cases hfits : kind.fits json with
    | false => simp [breaches_of_not_fits hfits]
    | true =>
      rw [breaches_of_fits hfits, List.flatMap_eq_nil_iff, and_iff_right rfl]
      refine forall₂_congr fun place hplace => ?_
      rw [Place.breaches, Place.Conforms]
      cases hcontent : place.content with
      | none => simp
      | some inner =>
        simpa using ih _ (sizeOf_lt_of_mem_places hplace hcontent) rfl

/-! ## Breaches occur once -/

theorem sublist_optionalPlace (members : List (String × Json)) (key : String) (kind : Kind) :
    ((optionalPlace members key kind).map Place.step).Sublist [.key key] := by
  unfold optionalPlace
  cases Json.find? members key with
  | none => exact List.nil_sublist _
  | some json => exact List.Sublist.refl _

theorem sublist_belowPlace (members : List (String × Json)) :
    ((belowPlace members).map Place.step).Sublist [.key "next", .key "next_block"] := by
  unfold belowPlace
  split
  · exact (sublist_optionalPlace members "next" .plug).trans (List.sublist_append_left [_] [_])
  · exact (sublist_optionalPlace members "next_block" .plug).trans
      (List.sublist_append_right [_] [_])

theorem nodup_blockPlaces (members : List (String × Json)) :
    ((blockPlaces members).map Place.step).Nodup := by
  have hsublist : ((blockPlaces members).map Place.step).Sublist
      (Step.key "type" :: ([.key "id"] ++ [.key "fields"] ++ [.key "values"] ++
        [.key "statements"] ++ [.key "next", .key "next_block"] ++ [.key "comment"] ++
        [.key "enabled"] ++ [.key "extra_state"])) := by
    simp only [blockPlaces, List.map_cons, List.map_append]
    have hkey (key : String) (kind : Kind) := sublist_optionalPlace members key kind
    exact (((((((hkey "id" _).append (hkey "fields" _)).append (hkey "values" _)).append
      (hkey "statements" _)).append (sublist_belowPlace members)).append (hkey "comment" _)).append
      (hkey "enabled" _)).append (hkey "extra_state" _) |>.cons_cons _
  exact hsublist.nodup (by decide)

theorem nodup_workspacePlaces (members : List (String × Json)) :
    ((workspacePlaces members).map Place.step).Nodup := by
  have hsublist : ((workspacePlaces members).map Place.step).Sublist
      ([Step.key "variables"] ++ [.key "developer_variables"] ++ [.key "blocks"]) := by
    simp only [workspacePlaces, List.map_append]
    exact ((sublist_optionalPlace members _ _).append (sublist_optionalPlace members _ _)).append
      (sublist_optionalPlace members _ _)
  exact hsublist.nodup (by decide)

theorem nodup_map_key {kind : Kind} (h : (members.map Prod.fst).Nodup) :
    ((members.map fun member => (⟨.key member.1, kind, some member.2⟩ : Place)).map
      Place.step).Nodup := by
  rw [List.map_map]
  show (members.map (Step.key ∘ Prod.fst)).Nodup
  rw [← List.map_map]
  exact h.map fun _ _ heq => Step.key.inj heq

theorem nodup_mapIdx {kind : Kind} (items : List Json) :
    ((items.mapIdx fun position item => (⟨.index position, kind, some item⟩ : Place)).map
      Place.step).Nodup := by
  have hsteps : (items.mapIdx fun position item =>
      (⟨.index position, kind, some item⟩ : Place)).map Place.step =
        (List.range' 0 items.length).map Step.index := by
    rw [List.mapIdx_eq_zipIdx_map, List.map_map, ← List.zipIdx_map_snd, List.map_map]
    rfl
  rw [hsteps]
  exact List.Nodup.map (fun _ _ heq => Step.index.inj heq) (List.nodup_range' ..)

/-- The places that a value leads to are told apart by their steps. -/
theorem Kind.nodup_places (kind : Kind) (h : json.KeysDistinct) :
    ((kind.places json).map Place.step).Nodup := by
  unfold places
  split
  · rw [Json.KeysDistinct] at h
    exact nodup_map_key h.1
  · rw [Json.KeysDistinct] at h
    exact nodup_map_key h.1
  · exact nodup_blockPlaces _
  · exact nodup_blockPlaces _
  · exact nodup_mapIdx _
  · exact nodup_mapIdx _
  · exact nodup_workspacePlaces _
  · exact List.nodup_nil

/-- The value at a place stands at the end of its step. -/
theorem Kind.follow_of_mem_places (h : json.KeysDistinct) (hplace : place ∈ kind.places json)
    (hcontent : place.content = some inner) (path : List Step) :
    json.follow (place.step :: path) = inner.follow path ∧ inner.KeysDistinct := by
  rcases places_cases hplace with
    ⟨members, rfl, key, found, hmem, hstep, hfound⟩ |
      ⟨items, position, found, rfl, hat, hstep, hfound⟩ | ⟨_, _, _, rfl⟩
  · obtain rfl : found = inner := Option.some.inj (hfound.symm.trans hcontent)
    rw [Json.KeysDistinct] at h
    rw [hstep, Json.follow, Json.find?_eq_some_of_mem h.1 hmem]
    exact ⟨rfl, h.2 _ hmem⟩
  · obtain rfl : found = inner := Option.some.inj (hfound.symm.trans hcontent)
    rw [Json.KeysDistinct] at h
    rw [hstep, Json.follow, hat]
    exact ⟨rfl, h found (List.mem_of_getElem? hat)⟩
  · cases hcontent

/-- Each breach of a document stands at a place of its own. -/
theorem Kind.nodup_breaches (kind : Kind) (h : json.KeysDistinct) :
    ((kind.breaches json).map Breach.path).Nodup := by
  induction hsize : sizeOf json using Nat.strongRecOn generalizing kind json with
  | ind size ih =>
    subst hsize
    cases hfits : kind.fits json with
    | false => simp [breaches_of_not_fits hfits]
    | true =>
      have hstart {place : Place} {path : List Step}
          (hpath : path ∈ place.breaches.map Breach.path) : path.head? = some place.step := by
        obtain ⟨breach, hbreach, rfl⟩ := List.mem_map.mp hpath
        rcases mem_place_breaches_iff.mp hbreach with ⟨-, rfl⟩ | ⟨_, -, below, -, rfl⟩ <;> rfl
      rw [breaches_of_fits hfits, List.map_flatMap, List.nodup_flatMap]
      constructor
      · intro place hplace
        rw [Place.breaches]
        cases hcontent : place.content with
        | none => exact List.nodup_singleton _
        | some inner =>
          have hinner := (follow_of_mem_places h hplace hcontent []).2
          have hbelow := ih _ (sizeOf_lt_of_mem_places hplace hcontent) place.kind hinner rfl
          rw [List.map_map]
          show ((place.kind.breaches inner).map ((place.step :: ·) ∘ Breach.path)).Nodup
          rw [← List.map_map]
          exact hbelow.map fun _ _ heq => (List.cons.inj heq).2
      · refine (List.pairwise_map.mp (nodup_places kind h)).imp fun hne => ?_
        intro path hfirst hsecond
        exact hne (Option.some.inj ((hstart hfirst).symm.trans (hstart hsecond)))

/-! ## What is asked for along a path -/

theorem Asks.follow_eq (hasks : Asks kind json path asked (some inner)) (h : json.KeysDistinct) :
    json.follow path = some inner := by
  generalize hcontent : some inner = content at hasks
  induction hasks with
  | here kind json =>
    cases hcontent
    cases json <;> rfl
  | missing => cases hcontent
  | inside hplace hfound _ ih =>
    obtain ⟨hfollow, hinner⟩ := Kind.follow_of_mem_places h hplace hfound _
    rw [hfollow]
    exact ih hinner hcontent

/-- What is missing is the type of an object. -/
theorem Asks.above_missing (hasks : Asks kind json path asked none) (h : json.KeysDistinct) :
    asked = .text ∧ ∃ above members, path = above ++ [.key "type"] ∧
      json.follow above = some (.obj members) ∧ Json.find? members "type" = none := by
  generalize hcontent : none = content at hasks
  induction hasks with
  | here => cases hcontent
  | missing hplace hnone =>
    rcases Kind.places_cases hplace with
      ⟨_, _, _, _, _, _, hsome⟩ | ⟨_, _, _, _, _, _, hsome⟩ | ⟨members, rfl, htype, rfl⟩
    · rw [hnone] at hsome
      cases hsome
    · rw [hnone] at hsome
      cases hsome
    · exact ⟨rfl, [], members, rfl, rfl, htype⟩
  | @inside _ _ _ _ _ _ place hplace hfound _ ih =>
    have hinner := (Kind.follow_of_mem_places h hplace hfound []).2
    obtain ⟨rfl, above, members, rfl, habove, htype⟩ := ih hinner hcontent
    refine ⟨rfl, place.step :: above, members, rfl, ?_, htype⟩
    rw [(Kind.follow_of_mem_places h hplace hfound above).1, habove]

/-- Whether a step leads into a value, and does not name one of the types that were tried. -/
def leadsOn : Step → Bool
  | .key _ | .index _ => true
  | .branch _ => false

theorem Asks.leadsOn (hasks : Asks kind json path asked content) :
    ∀ step ∈ path, Document.leadsOn step = true := by
  have hplace {kind : Kind} {json : Json} {place : Place} (h : place ∈ kind.places json) :
      Document.leadsOn place.step = true := by
    rcases Kind.places_cases h with
      ⟨_, _, _, _, _, hstep, _⟩ | ⟨_, _, _, _, _, hstep, _⟩ | ⟨_, _, _, rfl⟩
    · rw [hstep]
      rfl
    · rw [hstep]
      rfl
    · rfl
  induction hasks with
  | here => simp
  | missing h => simpa using hplace h
  | inside h _ _ ih => exact List.forall_mem_cons.mpr ⟨hplace h, ih⟩

end Document

end BlockScript
