import BlockScript.Graph.Traversal
import Mathlib.Logic.Relation

/-!
# Links between blocks

Which blocks can be reached from which, and what a chain of statements has to do
with it: its blocks are reached by going down from its first block, and one that
closes to a cycle has a block that is reached from itself.

Results:

* `Graph.of_mem_chainFrom`: the blocks of a chain.
* `Graph.cyclic_of_chainFrom`: a chain that comes back to one of its blocks.
-/

namespace BlockScript

/-- Whether a socket of a block holds something. -/
theorem Json.mem_of_find? {α : Type} {members : List (String × α)} {key : String} {value : α}
    (h : Json.find? members key = some value) : (key, value) ∈ members := by
  unfold Json.find? at h
  obtain ⟨member, hfind, rfl⟩ := Option.map_eq_some_iff.mp h
  obtain rfl : member.1 = key := by simpa using List.find?_some hfind
  exact List.mem_of_find?_eq_some hfind

namespace Block

variable {σ : Type} {block : Block σ} {socket : String} {target : σ}

/-- What sockets hold. -/
theorem mem_plugs_iff {sockets : List (String × Option σ)} :
    target ∈ sockets.filterMap Prod.snd ↔ ∃ socket, (socket, some target) ∈ sockets := by
  simp [List.mem_filterMap]

theorem mem_values_of_valueInput (h : block.valueInput socket = some target) :
    target ∈ block.values.filterMap Prod.snd := by
  exact mem_plugs_iff.mpr ⟨socket, Json.mem_of_find? (Option.join_eq_some_iff.mp h)⟩

theorem mem_statements_of_statementInput (h : block.statementInput socket = some target) :
    target ∈ block.statements.filterMap Prod.snd := by
  exact mem_plugs_iff.mpr ⟨socket, Json.mem_of_find? (Option.join_eq_some_iff.mp h)⟩

end Block

namespace Graph

variable {graph : Graph} {ref target : Ref}

/-- Whether a link of one block leads to another one: out of a value socket, out of a
    statement socket, or to the block below. -/
inductive Links (graph : Graph) (ref target : Ref) : Prop where
  | value {block : Block Ref} {socket : String} (hblock : graph.block? ref = some block)
    (hplug : (socket, some target) ∈ block.values) : Links graph ref target
  | statement {block : Block Ref} {socket : String} (hblock : graph.block? ref = some block)
    (hplug : (socket, some target) ∈ block.statements) : Links graph ref target
  | next {block : Block Ref} (hblock : graph.block? ref = some block)
    (hnext : block.next = some target) : Links graph ref target

/-- Whether a block can be reached from another one along one link or more. -/
abbrev Reaches (graph : Graph) : Ref → Ref → Prop :=
  Relation.TransGen graph.Links

/-- Whether no block can be reached from itself. -/
def Acyclic (graph : Graph) : Prop :=
  ∀ ref, ¬graph.Reaches ref ref

theorem links_of_mem_values {block : Block Ref} (hblock : graph.block? ref = some block)
    (h : target ∈ block.values.filterMap Prod.snd) : graph.Links ref target := by
  obtain ⟨socket, hplug⟩ := Block.mem_plugs_iff.mp h
  exact .value hblock hplug

theorem links_of_mem_statements {block : Block Ref} (hblock : graph.block? ref = some block)
    (h : target ∈ block.statements.filterMap Prod.snd) : graph.Links ref target := by
  obtain ⟨socket, hplug⟩ := Block.mem_plugs_iff.mp h
  exact .statement hblock hplug

/-- The links of a block lead to all that is plugged into it. -/
theorem links_iff :
    graph.Links ref target ↔ ∃ block, graph.block? ref = some block ∧ target ∈ block.links := by
  constructor
  · intro h
    cases h with
    | value hblock hplug =>
      refine ⟨_, hblock, List.mem_append_left _ (List.mem_append_left _ ?_)⟩
      exact Block.mem_plugs_iff.mpr ⟨_, hplug⟩
    | statement hblock hplug =>
      refine ⟨_, hblock, List.mem_append_left _ (List.mem_append_right _ ?_)⟩
      exact Block.mem_plugs_iff.mpr ⟨_, hplug⟩
    | next hblock hnext =>
      exact ⟨_, hblock, List.mem_append_right _ (Option.mem_toList.mpr hnext)⟩
  · rintro ⟨block, hblock, htarget⟩
    rcases List.mem_append.mp htarget with hchild | hnext
    · rcases List.mem_append.mp hchild with hvalue | hstatement
      · exact links_of_mem_values hblock hvalue
      · exact links_of_mem_statements hblock hstatement
    · exact .next hblock (Option.mem_toList.mp hnext)

/-- Whether a reference leads to a block. -/
def Stored (graph : Graph) (ref : Ref) : Prop :=
  ∃ block, graph.block? ref = some block

theorem Links.stored (h : graph.Links ref target) : graph.Stored ref := by
  obtain ⟨block, hblock, -⟩ := links_iff.mp h
  exact ⟨block, hblock⟩

/-- What reaches anything is stored. -/
theorem Reaches.stored (h : graph.Reaches ref target) : ∃ block, graph.block? ref = some block := by
  obtain ⟨mid, hlink, -⟩ := Relation.TransGen.head'_iff.mp h
  exact hlink.stored

/-! ## Chains -/

theorem chainFrom_of_seen {seen : List Ref} (h : ref ∈ seen) :
    graph.chainFrom seen (some ref) = ([], some ref) := by
  rw [chainFrom, dif_pos h]

theorem chainFrom_of_none {seen : List Ref} (h : ref ∉ seen) (hnone : graph.block? ref = none) :
    graph.chainFrom seen (some ref) = ([], none) := by
  rw [chainFrom, dif_neg h]
  split
  · rfl
  · next hsome => simp [hnone] at hsome

theorem chainFrom_of_some {seen : List Ref} {block : Block Ref} (h : ref ∉ seen)
    (hblock : graph.block? ref = some block) :
    graph.chainFrom seen (some ref) =
      (ref :: (graph.chainFrom (ref :: seen) block.next).1,
        (graph.chainFrom (ref :: seen) block.next).2) := by
  rw [chainFrom, dif_neg h]
  split
  · next hnone => simp [hnone] at hblock
  · next block' hblock' =>
    obtain rfl : block' = block := by simpa [hblock] using hblock'.symm
    rfl

/-- The first block of a chain, if it is stored. -/
theorem mem_chainFrom_self {block : Block Ref} (hblock : graph.block? ref = some block) :
    ref ∈ (graph.chainFrom [] (some ref)).1 := by
  rw [chainFrom_of_some List.not_mem_nil hblock]
  exact List.mem_cons_self

/-- The blocks of a chain are stored, and reached from the first one. -/
theorem of_mem_chainFrom {seen : List Ref} {place : Option Ref}
    (h : target ∈ (graph.chainFrom seen place).1) :
    (∃ block, graph.block? target = some block) ∧
      ∃ head, place = some head ∧ Relation.ReflTransGen graph.Links head target := by
  induction seen, place using chainFrom.induct graph with
  | case1 seen => simp [chainFrom] at h
  | case2 seen ref hseen => simp [chainFrom_of_seen hseen] at h
  | case3 seen ref hnew hnone => simp [chainFrom_of_none hnew hnone] at h
  | case4 seen ref hnew block hblock _ _ _ ih =>
    rw [chainFrom_of_some hnew hblock] at h
    rcases List.mem_cons.mp h with rfl | htail
    · exact ⟨⟨_, hblock⟩, _, rfl, .refl⟩
    · obtain ⟨hstored, next, hnext, hreach⟩ := ih htail
      exact ⟨hstored, ref, rfl, .head (.next hblock hnext) hreach⟩

/-- A chain that comes back to a block that was seen. What was seen reaches the
    place that the chain goes on at. -/
theorem reaches_of_chainFrom {seen : List Ref} {place : Option Ref} {repeated : Ref}
    (hseen : ∀ before ∈ seen, ∀ head, place = some head → graph.Reaches before head)
    (h : (graph.chainFrom seen place).2 = some repeated) : graph.Reaches repeated repeated := by
  induction seen, place using chainFrom.induct graph with
  | case1 seen => simp [chainFrom] at h
  | case2 seen ref hmem =>
    obtain rfl : ref = repeated := by simpa [chainFrom_of_seen hmem] using h
    exact hseen ref hmem ref rfl
  | case3 seen ref hnew hnone => simp [chainFrom_of_none hnew hnone] at h
  | case4 seen ref hnew block hblock _ _ _ ih =>
    rw [chainFrom_of_some hnew hblock] at h
    refine ih (fun before hbefore next hnext => ?_) h
    have hlink : graph.Links ref next := .next hblock hnext
    rcases List.mem_cons.mp hbefore with rfl | hold
    · exact .single hlink
    · exact (hseen before hold ref rfl).tail hlink

/-- A chain that comes back to one of its blocks. -/
theorem cyclic_of_chainFrom {place : Option Ref} {repeated : Ref}
    (h : (graph.chainFrom [] place).2 = some repeated) : graph.Reaches repeated repeated :=
  reaches_of_chainFrom (fun _ hmem => absurd hmem List.not_mem_nil) h

end Graph

end BlockScript
