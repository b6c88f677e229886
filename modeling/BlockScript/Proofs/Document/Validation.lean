import BlockScript.Proofs.Document.Breaches

/-!
# Checking documents

The checks collect the faults of a document in one go over the parts of it. What they find are the
breaches of the schema in the order of declaration: one entry for each breach, or one for each of
the four types that are tried for the value of a field.

Results:

* `Kind.faults_eq`: the entries of a report are those of the breaches.
* `Kind.toExcept_cases`: a document is taken exactly if it conforms, and refused with a report of
  its breaches otherwise.
* `validation_exact`: this for blocks and for workspaces.
-/

namespace BlockScript

open BlockScript.Number

/-- A fault seen from one step further up. -/
def SchemaFault.under (step : Step) (fault : SchemaFault) : SchemaFault :=
  ⟨step :: fault.path, fault.demand⟩

/-- The place of a fault, without the type that was tried there. -/
def SchemaFault.place (fault : SchemaFault) : List Step :=
  fault.path.filter Document.leadsOn

namespace Document

variable {kind : Kind} {json : Json} {members : List (String × Json)} {α β : Type}

/-! ## Parts of a block -/

/-- The parts of a block are what the checks make of the values under its keys. -/
theorem checkParts_eq (members : List (String × Json)) :
    checkParts members =
      { type := (Json.find? members "type").map checkText
        id := (Json.find? members "id").map checkText
        fields := (Json.find? members "fields").map checkFields
        values := (Json.find? members "values").map checkSockets
        statements := (Json.find? members "statements").map checkSockets
        next := (Json.find? members "next").map checkPlug
        nextBlock := (Json.find? members "next_block").map checkPlug
        comment := (Json.find? members "comment").map checkComment
        enabled := (Json.find? members "enabled").map checkTruth
        extraState := (Json.find? members "extra_state").map checkObject } := by
  induction members with
  | nil => rfl
  | cons member members ih =>
    obtain ⟨key, json⟩ := member
    rw [checkParts.eq_def]
    dsimp only
    rw [ih]
    split <;> simp_all [Json.find?]

/-! ## Entries -/

/-- What a value of the wrong kind is said to lack. A number or a word may be of a type that is
    read as a truth value, without being one. -/
def truthDemand : Json → Demand
  | .str _ => .readableTruth
  | .int n => if isWord64 n then .readableTruth else .truthValue
  | .float d =>
    match d.toInt? with
    | some n => if isWord64 n then .readableTruth else .truthValue
    | none => .truthValue
  | _ => .truthValue

/-- The entries for a value of the wrong kind, each with the type that was tried, if several
    were. -/
def Kind.demands (json : Json) : Kind → List (List Step × Demand)
  | .text | .comment => [([], .text)]
  | .truth => [([], truthDemand json)]
  | .scalar =>
    [([.branch "bool"], .truthValue), ([.branch "int"], .integer), ([.branch "float"], .double),
      ([.branch "str"], .text)]
  | .object | .fields | .sockets => [([], .object)]
  | .plug | .block | .workspace => [([], .model)]
  | .texts | .blocks => [([], .list)]

/-- The entries for a breach. -/
def Breach.faults (breach : Breach) : List SchemaFault :=
  match breach.content with
  | some json => (breach.kind.demands json).map fun entry => ⟨breach.path ++ entry.1, entry.2⟩
  | none => [⟨breach.path, .present⟩]

/-- What the check for a kind finds in a value. -/
def Kind.faults (json : Json) : Kind → List SchemaFault
  | .text => (checkText json).faults
  | .comment => (checkComment json).faults
  | .truth => (checkTruth json).faults
  | .scalar => (checkScalar json).faults
  | .object => (checkObject json).faults
  | .fields => (checkFields json).faults
  | .plug => (checkPlug json).faults
  | .sockets => (checkSockets json).faults
  | .block => (checkBlock json).faults
  | .texts => (checkList checkText json).faults
  | .blocks => (checkList checkBlock json).faults
  | .workspace => (checkWorkspace json).faults

/-- What the check of a place finds. -/
def Place.faults (place : Place) : List SchemaFault :=
  (match place.content with
    | some json => place.kind.faults json
    | none => [⟨[], .present⟩]).map (.under place.step)

theorem faults_under (step : Step) (checked : Checked α) :
    (checked.under step).faults = checked.faults.map (.under step) := rfl

theorem Breach.faults_under (step : Step) (breach : Breach) :
    (breach.under step).faults = breach.faults.map (.under step) := by
  unfold Breach.faults Breach.under
  cases breach.content with
  | none => rfl
  | some json => simp [SchemaFault.under, Function.comp_def]

/-! ## Values of the wrong kind -/

theorem faults_checkTruthInt (n : Int) :
    (checkTruthInt n).faults = if n = 0 ∨ n = 1 then [] else [⟨[], .readableTruth⟩] := by
  unfold checkTruthInt
  by_cases hzero : n = 0
  · simp [hzero, Checked.pass]
  · by_cases hone : n = 1 <;> simp [hzero, hone, Checked.pass, Checked.fault]

theorem isWord64_of_truth {n : Int} (h : n = 0 ∨ n = 1) : isWord64 n = true := by
  rcases h with rfl | rfl <;> decide

/-- What the check for a truth value finds. -/
theorem faults_checkTruth (json : Json) :
    (checkTruth json).faults =
      if Kind.truth.fits json then [] else [⟨[], truthDemand json⟩] := by
  cases json with
  | bool b => rfl
  | null | arr items | obj members => rfl
  | str text =>
    simp only [checkTruth, Kind.fits, truthDemand, List.contains_append, Bool.or_eq_true]
    cases trueWords.contains (text.map Char.toLower) with
    | true => rfl
    | false => cases falseWords.contains (text.map Char.toLower) <;> rfl
  | int n =>
    simp only [checkTruth, Kind.fits, truthDemand, Bool.or_eq_true, decide_eq_true_eq]
    by_cases hn : n = 0 ∨ n = 1
    · rw [if_pos (isWord64_of_truth hn), faults_checkTruthInt, if_pos hn, if_pos hn]
    · rw [if_neg hn]
      split
      · rw [faults_checkTruthInt, if_neg hn]
      · rfl
  | float d =>
    simp only [checkTruth, Kind.fits, truthDemand, Bool.or_eq_true, decide_eq_true_eq]
    cases d.toInt? with
    | none => rfl
    | some n =>
      simp only [Option.some.injEq]
      by_cases hn : n = 0 ∨ n = 1
      · rw [if_pos (isWord64_of_truth hn), faults_checkTruthInt, if_pos hn, if_pos hn]
      · rw [if_neg hn]
        split
        · rw [faults_checkTruthInt, if_neg hn]
        · rfl

/-- A value of the wrong kind has the entries of one breach. -/
theorem Kind.faults_of_not_fits (h : kind.fits json = false) :
    kind.faults json = Breach.faults ⟨[], kind, some json⟩ := by
  cases kind with
  | truth =>
    rw [Kind.faults, faults_checkTruth, h]
    rfl
  | _ =>
    cases json <;> first | rfl | cases h

/-! ## Values of the right kind -/

variable {check : Json → Checked α}

theorem Place.faults_some (step : Step) (kind : Kind) (json : Json) :
    Place.faults ⟨step, kind, some json⟩ = (kind.faults json).map (.under step) := rfl

theorem faults_checkMembers (kind : Kind)
    (hcheck : ∀ json, (check json).faults = kind.faults json) (members : List (String × Json)) :
    (checkMembers check members).faults =
      (members.map fun member => (⟨.key member.1, kind, some member.2⟩ : Place)).flatMap
        Place.faults := by
  induction members with
  | nil => rfl
  | cons member members ih =>
    rw [List.map_cons, List.flatMap_cons, ← ih, Place.faults_some, ← hcheck]
    rfl

theorem faults_checkSocketMembers (members : List (String × Json)) :
    (checkSocketMembers members).faults =
      (members.map fun member => (⟨.key member.1, .plug, some member.2⟩ : Place)).flatMap
        Place.faults := by
  induction members with
  | nil => rw [checkSocketMembers]; rfl
  | cons member members ih =>
    obtain ⟨key, json⟩ := member
    rw [checkSocketMembers, List.map_cons, List.flatMap_cons, ← ih]
    rfl

theorem faults_checkItems (kind : Kind)
    (hcheck : ∀ json, (check json).faults = kind.faults json) (position : Nat)
    (items : List Json) :
    (checkItems check position items).faults =
      ((items.zipIdx position).map fun item =>
        (⟨.index item.2, kind, some item.1⟩ : Place)).flatMap Place.faults := by
  induction items generalizing position with
  | nil => rfl
  | cons json items ih =>
    rw [List.zipIdx_cons, List.map_cons, List.flatMap_cons, ← ih, Place.faults_some, ← hcheck]
    rfl

theorem faults_checkList (kind : Kind)
    (hcheck : ∀ json, (check json).faults = kind.faults json) (items : List Json) :
    (checkList check (.arr items)).faults =
      (items.mapIdx fun position item => (⟨.index position, kind, some item⟩ : Place)).flatMap
        Place.faults := by
  rw [checkList, faults_checkItems kind hcheck, List.mapIdx_eq_zipIdx_map]

/-- A part that may be left out. -/
theorem faults_part (kind : Kind) (check : Json → Checked α)
    (hcheck : ∀ json, (check json).faults = kind.faults json) (members : List (String × Json))
    (key : String) (value : α) :
    (part key value ((Json.find? members key).map check)).faults =
      (optionalPlace members key kind).flatMap Place.faults := by
  unfold optionalPlace
  cases Json.find? members key with
  | none => rfl
  | some json =>
    rw [Option.map_some, Option.map_some, Option.toList_some, List.flatMap_singleton,
      Place.faults_some, ← hcheck]
    rfl

/-- The block below, under the key that is looked at. -/
theorem faults_nextPart (members : List (String × Json)) :
    (nextPart (checkParts members)).faults = (belowPlace members).flatMap Place.faults := by
  have hplug := faults_part .plug checkPlug (fun _ => rfl) members
  rw [checkParts_eq, nextPart, belowPlace]
  cases hnext : Json.find? members "next" with
  | none => exact hplug "next_block" none
  | some json =>
    rw [Option.isSome_some, if_pos rfl, ← hplug "next" none, hnext]
    rfl

/-- The faults of a block are those of its places. -/
theorem faults_assemble (members : List (String × Json)) :
    (assemble (checkParts members)).faults = (blockPlaces members).flatMap Place.faults := by
  have htype : (typePart (checkParts members)).faults =
      Place.faults ⟨.key "type", .text, Json.find? members "type"⟩ := by
    rw [checkParts_eq, typePart]
    cases Json.find? members "type" <;> rfl
  have hid := faults_part .text (fun json => (checkText json).map some) (fun _ => rfl) members
    "id" none
  have hfields := faults_part .fields checkFields (fun _ => rfl) members "fields" []
  have hsockets (key : String) :=
    faults_part .sockets checkSockets (fun _ => rfl) members key []
  have hcomment := faults_part .comment checkComment (fun _ => rfl) members "comment" none
  have henabled := faults_part .truth checkTruth (fun _ => rfl) members "enabled" true
  have hextra := faults_part .object checkObject (fun _ => rfl) members "extra_state" []
  rw [assemble, htype, faults_nextPart, checkParts_eq, blockPlaces]
  simp only [List.flatMap_cons, List.flatMap_append, List.append_assoc, Option.map_map,
    Function.comp_def, hid, hfields, hsockets, hcomment, henabled, hextra]

/-- The faults of a workspace are those of its places. -/
theorem faults_checkWorkspace (members : List (String × Json)) :
    (checkWorkspace (.obj members)).faults =
      (workspacePlaces members).flatMap Place.faults := by
  have htexts (key : String) :=
    faults_part .texts (checkList checkText) (fun _ => rfl) members key []
  have hblocks := faults_part .blocks (checkList checkBlock) (fun _ => rfl) members "blocks" []
  simp only [checkWorkspace, listPart, workspacePlaces, List.flatMap_append, htexts, hblocks]

/-- A value of the right kind has the faults of its places. -/
theorem Kind.faults_of_fits (h : kind.fits json = true) :
    kind.faults json = (kind.places json).flatMap Place.faults := by
  cases kind with
  | truth =>
    rw [Kind.faults, faults_checkTruth, h]
    cases json <;> rfl
  | fields =>
    cases json with
    | obj members => exact faults_checkMembers .scalar (fun _ => rfl) members
    | _ => cases h
  | sockets =>
    cases json with
    | obj members =>
      rw [Kind.faults, checkSockets]
      exact faults_checkSocketMembers members
    | _ => cases h
  | plug =>
    cases json with
    | null => rfl
    | obj members =>
      rw [Kind.faults, checkPlug]
      exact faults_assemble members
    | _ => cases h
  | block =>
    cases json with
    | obj members =>
      rw [Kind.faults, checkBlock]
      exact faults_assemble members
    | _ => cases h
  | texts =>
    cases json with
    | arr items => exact faults_checkList .text (fun _ => rfl) items
    | _ => cases h
  | blocks =>
    cases json with
    | arr items => exact faults_checkList .block (fun _ => rfl) items
    | _ => cases h
  | workspace =>
    cases json with
    | obj members => exact faults_checkWorkspace members
    | _ => cases h
  | text | comment | scalar | object =>
    cases json <;> first | rfl | cases h

/-- The entries of a report are those of the breaches. -/
theorem Kind.faults_eq : kind.faults json = (kind.breaches json).flatMap Breach.faults := by
  induction hsize : sizeOf json using Nat.strongRecOn generalizing kind json with
  | ind size ih =>
    subst hsize
    cases hfits : kind.fits json with
    | false => rw [faults_of_not_fits hfits, breaches_of_not_fits hfits, List.flatMap_singleton]
    | true =>
      rw [faults_of_fits hfits, breaches_of_fits hfits, List.flatMap_assoc]
      refine List.flatMap_congr fun place hplace => ?_
      unfold Place.faults Place.breaches
      cases hcontent : place.content with
      | none => rfl
      | some inner =>
        simp only [ih _ (sizeOf_lt_of_mem_places hplace hcontent) rfl, List.map_flatMap,
          List.flatMap_map, Breach.faults_under]

/-! ## Reports -/

/-- What a report says of a document in which the schema asks in vain: how many entries there are
    for each place, and where their paths lead. -/
structure IsReport (kind : Kind) (json : Json) (faults : List SchemaFault) : Prop where
  /-- The entries come in the order of the schema. -/
  order : faults = (kind.breaches json).flatMap Breach.faults
  /-- A field value has an entry for each type that was tried, everything else has one. -/
  count : ∀ breach : Breach, breach.IsIn kind json →
    faults.countP (fun fault => fault.place = breach.path) =
      if breach.kind = .scalar then 4 else 1
  /-- An entry leads to a value that is not of the kind that is asked for there. -/
  wrong : ∀ fault ∈ faults, fault.demand ≠ .present → ∃ asked found,
    json.follow fault.place = some found ∧ Breach.IsIn kind json ⟨fault.place, asked, some found⟩
  /-- An entry for something that is missing leads to an object without a type. -/
  missing : ∀ fault ∈ faults, fault.demand = .present → ∃ above members,
    fault.place = above ++ [.key "type"] ∧ json.follow above = some (.obj members) ∧
      Json.find? members "type" = none ∧ Breach.IsIn kind json ⟨fault.place, .text, none⟩

theorem Kind.not_present_of_mem_demands {entry : List Step × Demand}
    (h : entry ∈ kind.demands json) : entry.2 ≠ .present := by
  have htruth : truthDemand json ≠ .present := by
    unfold truthDemand
    split <;> (try split) <;> (try split) <;> decide
  cases kind <;> simp only [Kind.demands, List.mem_cons, List.not_mem_nil, or_false] at h
  case truth => exact h ▸ htruth
  case scalar => rcases h with rfl | rfl | rfl | rfl <;> decide
  all_goals exact h ▸ by decide

theorem Kind.leadsOn_of_mem_demands {entry : List Step × Demand}
    (h : entry ∈ kind.demands json) : entry.1.filter leadsOn = [] := by
  cases kind <;> simp only [Kind.demands, List.mem_cons, List.not_mem_nil, or_false] at h
  case scalar => rcases h with rfl | rfl | rfl | rfl <;> rfl
  all_goals exact h ▸ rfl

theorem Kind.length_demands (kind : Kind) (json : Json) :
    (kind.demands json).length = if kind = .scalar then 4 else 1 := by
  cases kind <;> rfl

variable {breach : Breach} {fault : SchemaFault}

/-- The entries for a breach stand at its place. -/
theorem Breach.IsIn.place_eq (hin : breach.IsIn kind json) (h : fault ∈ breach.faults) :
    fault.place = breach.path := by
  obtain ⟨path, asked, content⟩ := breach
  have hpath : path.filter leadsOn = path := List.filter_eq_self.mpr hin.1.leadsOn
  cases content with
  | none =>
    obtain rfl := List.mem_singleton.mp h
    exact hpath
  | some found =>
    obtain ⟨entry, hentry, rfl⟩ := List.mem_map.mp h
    rw [SchemaFault.place, List.filter_append, hpath, Kind.leadsOn_of_mem_demands hentry,
      List.append_nil]

theorem Breach.IsIn.length_faults (hin : breach.IsIn kind json) (h : json.KeysDistinct) :
    breach.faults.length = if breach.kind = .scalar then 4 else 1 := by
  obtain ⟨path, asked, content⟩ := breach
  cases content with
  | none =>
    obtain ⟨rfl, -⟩ := hin.1.above_missing h
    rfl
  | some found =>
    rw [Breach.faults, List.length_map]
    exact asked.length_demands found

/-- The entries for a place are those of the breach there. -/
theorem countP_flatMap_faults {breaches : List Breach}
    (hplace : ∀ breach ∈ breaches, ∀ fault ∈ breach.faults, fault.place = breach.path)
    (hnodup : (breaches.map Breach.path).Nodup) (hmem : breach ∈ breaches) :
    (breaches.flatMap Breach.faults).countP (fun fault => fault.place = breach.path) =
      breach.faults.length := by
  induction breaches with
  | nil => exact absurd hmem List.not_mem_nil
  | cons first rest ih =>
    rw [List.forall_mem_cons] at hplace
    rw [List.map_cons, List.nodup_cons] at hnodup
    rw [List.flatMap_cons, List.countP_append]
    rcases List.mem_cons.mp hmem with rfl | hrest
    · have hall : breach.faults.countP (fun fault => fault.place = breach.path) =
          breach.faults.length :=
        List.countP_eq_length.mpr fun fault hfault => by simpa using hplace.1 fault hfault
      have hothers : (rest.flatMap Breach.faults).countP
          (fun fault => fault.place = breach.path) = 0 := by
        refine List.countP_eq_zero.mpr fun fault hfault => ?_
        obtain ⟨other, hother, hfault⟩ := List.mem_flatMap.mp hfault
        rw [decide_eq_true_eq, hplace.2 other hother fault hfault]
        exact fun heq => hnodup.1 (heq ▸ List.mem_map_of_mem hother)
      rw [hall, hothers, Nat.add_zero]
    · have hfirst : first.faults.countP (fun fault => fault.place = breach.path) = 0 := by
        refine List.countP_eq_zero.mpr fun fault hfault => ?_
        rw [decide_eq_true_eq, hplace.1 fault hfault]
        exact fun heq => hnodup.1 (heq ▸ List.mem_map_of_mem hrest)
      rw [hfirst, Nat.zero_add, ih hplace.2 hnodup.2 hrest]

/-- What a check finds is a report of the breaches. -/
theorem Kind.isReport (kind : Kind) (h : json.KeysDistinct) :
    IsReport kind json (kind.faults json) := by
  have hfault {fault : SchemaFault} (hmem : fault ∈ kind.faults json) :
      ∃ breach : Breach, breach.IsIn kind json ∧ fault ∈ breach.faults := by
    rw [faults_eq, List.mem_flatMap] at hmem
    obtain ⟨breach, hbreach, hmem⟩ := hmem
    exact ⟨breach, mem_breaches_iff.mp hbreach, hmem⟩
  constructor
  case order => exact faults_eq
  case count =>
    intro breach hin
    rw [faults_eq, countP_flatMap_faults
      (fun _ hbreach _ hmem => (mem_breaches_iff.mp hbreach).place_eq hmem)
      (nodup_breaches kind h) (mem_breaches_iff.mpr hin), hin.length_faults h]
  case wrong =>
    intro fault hmem hdemand
    obtain ⟨⟨path, asked, content⟩, hin, hmem⟩ := hfault hmem
    cases content with
    | none => exact absurd (List.mem_singleton.mp hmem ▸ rfl) hdemand
    | some found =>
      obtain rfl := hin.place_eq hmem
      exact ⟨asked, found, hin.1.follow_eq h, hin⟩
  case missing =>
    intro fault hmem hdemand
    obtain ⟨⟨path, asked, content⟩, hin, hmem⟩ := hfault hmem
    cases content with
    | none =>
      obtain rfl := hin.place_eq hmem
      obtain ⟨rfl, above, members, habove, hfollow, htype⟩ := hin.1.above_missing h
      exact ⟨above, members, habove, hfollow, htype, hin⟩
    | some found =>
      obtain ⟨entry, hentry, rfl⟩ := List.mem_map.mp hmem
      exact absurd hdemand (not_present_of_mem_demands hentry)

/-- A document is taken exactly if it conforms, and refused with a report otherwise. -/
theorem Kind.toExcept_cases (kind : Kind) {checked : Checked α}
    (hfaults : checked.faults = kind.faults json) (h : json.KeysDistinct) :
    ((∃ value, checked.toExcept = .ok value) ↔ kind.Conforms json) ∧
      ∀ faults, checked.toExcept = .error faults → IsReport kind json faults := by
  have hnil : kind.faults json = [] ↔ kind.Conforms json := by
    rw [← breaches_eq_nil_iff, faults_eq, List.flatMap_eq_nil_iff]
    constructor
    · intro hempty
      refine List.eq_nil_iff_forall_not_mem.mpr fun breach hbreach => ?_
      have hlength := (mem_breaches_iff.mp hbreach).length_faults h
      rw [hempty breach hbreach, List.length_nil] at hlength
      split at hlength <;> cases hlength
    · intro hempty
      simp [hempty]
  rw [Checked.toExcept, hfaults, ← hnil]
  cases hempty : (kind.faults json).isEmpty with
  | true => exact ⟨⟨fun _ => List.isEmpty_iff.mp hempty, fun _ => ⟨_, rfl⟩⟩, nofun⟩
  | false =>
    have hsome : kind.faults json ≠ [] := by simpa using hempty
    refine ⟨⟨nofun, fun hnone => absurd hnone hsome⟩, ?_⟩
    rintro faults ⟨⟩
    exact kind.isReport h

/-- A block or a workspace is taken exactly if it conforms to the schema. Otherwise there is one
    entry for each place where the schema asks in vain, or four for a field value, and the path of
    an entry leads to the value that is wrong, or to the object that has no type. No value that is
    read has an object with a key twice (`keysDistinct_of_read`). -/
theorem validation_exact (json : Json) (h : json.KeysDistinct) :
    ((∃ tree, (checkBlock json).toExcept = .ok tree) ↔ IsBlock json) ∧
      (∀ faults, (checkBlock json).toExcept = .error faults → IsReport .block json faults) ∧
      ((∃ workspace, (checkWorkspace json).toExcept = .ok workspace) ↔ IsWorkspace json) ∧
      ∀ faults, (checkWorkspace json).toExcept = .error faults →
        IsReport .workspace json faults := by
  obtain ⟨hblock, hblockFaults⟩ := Kind.block.toExcept_cases rfl h
  obtain ⟨hworkspace, hworkspaceFaults⟩ := Kind.workspace.toExcept_cases rfl h
  exact ⟨hblock, hblockFaults, hworkspace, hworkspaceFaults⟩

/-- A document with faults at several depths: no type, an identifier and a block below that are
    numbers, and nothing for a field and for whether a block in a socket is enabled. -/
def faultyDocument : Json :=
  .obj [("next_block", .int 3), ("id", .int 7), ("fields", .obj [("NAME", .null)]),
    ("values", .obj [("A", .obj [("enabled", .null), ("type", .str "text")])])]

theorem validation_exact_faultyDocument :
    faultyDocument.KeysDistinct ∧
      IsReport .block faultyDocument
        [⟨[.key "type"], .present⟩, ⟨[.key "id"], .text⟩,
          ⟨[.key "fields", .key "NAME", .branch "bool"], .truthValue⟩,
          ⟨[.key "fields", .key "NAME", .branch "int"], .integer⟩,
          ⟨[.key "fields", .key "NAME", .branch "float"], .double⟩,
          ⟨[.key "fields", .key "NAME", .branch "str"], .text⟩,
          ⟨[.key "values", .key "A", .key "enabled"], .truthValue⟩,
          ⟨[.key "next_block"], .model⟩] ∧
      IsWorkspace faultyDocument := by
  have hkeys : faultyDocument.KeysDistinct := by simp [faultyDocument, Json.KeysDistinct]
  obtain ⟨-, hblock, hworkspace, -⟩ := validation_exact faultyDocument hkeys
  refine ⟨hkeys, hblock _ ?_, hworkspace.mp ⟨_, rfl⟩⟩
  cbv

end Document

end BlockScript
