import BlockScript.Proofs.Graph.Once
import Mathlib.Data.Finset.Card

/-!
# Nested blocks in preorder

The walk over the blocks nested inside a block keeps a stack of places to go to. A block
that is linked to from several places stands on the stack several times, and whether it
was seen shows only when it comes up. The order is that of a recursion all the same: every
block before what it links to, one link after the other, and each block where the recursion
gets to it first.

Results:

* `Graph.visit_eq_preorderAll`: a walk with a stack is the recursive walk.
* `Graph.mem_descendants_iff`: the nested blocks are those that can be reached without the
  link to the block below the outermost one.
* `Graph.descendants_in_preorder`: the blocks nested inside a block.
-/

namespace BlockScript.Graph

open Relation

variable {graph : Graph} {ref target : Ref} {seen stack refs more : List Ref} {block : Block Ref}

/-! ## The recursive walk -/

/-- The stored blocks that were not visited. -/
def unvisited (graph : Graph) (visited : Finset Ref) : Finset Ref :=
  Finset.range graph.size \ visited

theorem card_unvisited_insert_lt {visited : Finset Ref} (hnew : ref ∉ visited)
    (hblock : graph.block? ref = some block) :
    (graph.unvisited (insert ref visited)).card < (graph.unvisited visited).card := by
  have hstored : ref ∈ Finset.range graph.size := Finset.mem_range.mpr (lt_size_of_block? hblock)
  refine Finset.card_lt_card (Finset.ssubset_iff_of_subset ?_ |>.mpr ⟨ref, ?_, ?_⟩)
  · exact Finset.sdiff_subset_sdiff (Finset.Subset.refl _) (Finset.subset_insert _ _)
  · exact Finset.mem_sdiff.mpr ⟨hstored, hnew⟩
  · exact fun hmem => (Finset.mem_sdiff.mp hmem).2 (Finset.mem_insert_self _ _)

theorem card_unvisited_union_le (visited found : Finset Ref) :
    (graph.unvisited (visited ∪ found)).card ≤ (graph.unvisited visited).card :=
  Finset.card_le_card
    (Finset.sdiff_subset_sdiff (Finset.Subset.refl _) Finset.subset_union_left)

mutual

/-- Visits a block, then what its value sockets hold, then what its statement sockets
    hold, then the block below it. A block that was visited before is left out. -/
def preorder (graph : Graph) (visited : Finset Ref) (ref : Ref) : List Ref :=
  if _hvisited : ref ∈ visited then []
  else
    match _hblock : graph.block? ref with
    | none => []
    | some block =>
      ref :: preorderAll graph (insert ref visited)
        (block.values.filterMap Prod.snd ++ block.statements.filterMap Prod.snd ++
          block.next.toList)
termination_by ((graph.unvisited visited).card, 0)
decreasing_by exact Prod.Lex.left _ _ (card_unvisited_insert_lt _hvisited _hblock)

/-- Visits one place after the other. What the walk from one of them finds is visited for
    those that follow. -/
def preorderAll (graph : Graph) (visited : Finset Ref) (refs : List Ref) : List Ref :=
  match refs with
  | [] => []
  | ref :: refs =>
    let found := preorder graph visited ref
    found ++ preorderAll graph (visited ∪ found.toFinset) refs
termination_by ((graph.unvisited visited).card, refs.length + 1)
decreasing_by
  · exact Prod.Lex.right _ (by simp)
  · exact Prod.Lex.right' _ (card_unvisited_union_le _ _) (by simp)

end

variable {visited : Finset Ref}

theorem preorder_of_visited (h : ref ∈ visited) : graph.preorder visited ref = [] := by
  rw [preorder, dif_pos h]

theorem preorder_of_none (hnone : graph.block? ref = none) : graph.preorder visited ref = [] := by
  rw [preorder]
  split
  · rfl
  · split
    · rfl
    · next hsome => simp [hnone] at hsome

theorem preorder_of_some (h : ref ∉ visited) (hblock : graph.block? ref = some block) :
    graph.preorder visited ref = ref :: graph.preorderAll (insert ref visited)
      (block.values.filterMap Prod.snd ++ block.statements.filterMap Prod.snd ++
        block.next.toList) := by
  rw [preorder, dif_neg h]
  split
  · next hnone => simp [hnone] at hblock
  · next block' hblock' =>
    obtain rfl : block' = block := by simpa [hblock] using hblock'.symm
    rfl

@[simp]
theorem preorderAll_nil : graph.preorderAll visited [] = [] := by
  rw [preorderAll]

theorem preorderAll_cons : graph.preorderAll visited (ref :: refs) =
    graph.preorder visited ref ++
      graph.preorderAll (visited ∪ (graph.preorder visited ref).toFinset) refs := by
  rw [preorderAll]

/-- The walk from some places, then from the others with what was found visited. -/
theorem preorderAll_append : graph.preorderAll visited (refs ++ more) =
    graph.preorderAll visited refs ++
      graph.preorderAll (visited ∪ (graph.preorderAll visited refs).toFinset) more := by
  induction refs generalizing visited with
  | nil => simp
  | cons ref refs ih =>
    rw [List.cons_append, preorderAll_cons, preorderAll_cons, ih, List.append_assoc,
      List.toFinset_append, Finset.union_assoc]

/-! ## The walk with a stack -/

/-- A walk with a stack is the recursive walk from the places on the stack. What a block
    links to lies on top of the rest, so the rest waits until all of it is visited. -/
theorem visit_eq_preorderAll :
    graph.visit seen stack = graph.preorderAll seen.toFinset stack := by
  induction seen, stack using visit.induct graph with
  | case1 seen => simp [visit]
  | case2 seen ref stack hseen ih =>
    rw [visit_of_seen hseen, preorderAll_cons, preorder_of_visited (List.mem_toFinset.mpr hseen)]
    simpa using ih
  | case3 seen ref stack hnew hnone ih =>
    rw [visit_of_none hnew hnone, preorderAll_cons, preorder_of_none hnone]
    simpa using ih
  | case4 seen ref stack hnew block hblock ih =>
    have hvisited : ref ∉ seen.toFinset := fun hmem => hnew (List.mem_toFinset.mp hmem)
    rw [visit_of_some hnew hblock, ih, preorderAll_append, preorderAll_cons,
      preorder_of_some hvisited hblock, ← Block.children, ← Block.links, List.toFinset_cons,
      List.cons_append, List.toFinset_cons, Finset.insert_union, Finset.union_insert]

/-! ## What is nested -/

/-- Whether a link leads from one block to another, other than the link from `outer` to
    the block below it. -/
inductive LinksInside (graph : Graph) (outer ref target : Ref) : Prop where
  | value {block : Block Ref} {socket : String} (hblock : graph.block? ref = some block)
    (hplug : (socket, some target) ∈ block.values) : LinksInside graph outer ref target
  | statement {block : Block Ref} {socket : String} (hblock : graph.block? ref = some block)
    (hplug : (socket, some target) ∈ block.statements) : LinksInside graph outer ref target
  | next {block : Block Ref} (hne : ref ≠ outer) (hblock : graph.block? ref = some block)
    (hnext : block.next = some target) : LinksInside graph outer ref target

/-- All links but one lead inside. -/
theorem linksInside_iff {outer : Ref} : graph.LinksInside outer ref target ↔
    ∃ block, graph.block? ref = some block ∧
      (target ∈ block.children ∨ ref ≠ outer ∧ block.next = some target) := by
  constructor
  · intro h
    cases h with
    | value hblock hplug =>
      exact ⟨_, hblock, .inl (List.mem_append_left _ (Block.mem_plugs_iff.mpr ⟨_, hplug⟩))⟩
    | statement hblock hplug =>
      exact ⟨_, hblock, .inl (List.mem_append_right _ (Block.mem_plugs_iff.mpr ⟨_, hplug⟩))⟩
    | next hne hblock hnext => exact ⟨_, hblock, .inr ⟨hne, hnext⟩⟩
  · rintro ⟨block, hblock, hchild | ⟨hne, hnext⟩⟩
    · rcases List.mem_append.mp hchild with hvalue | hstatement
      · obtain ⟨socket, hplug⟩ := Block.mem_plugs_iff.mp hvalue
        exact .value hblock hplug
      · obtain ⟨socket, hplug⟩ := Block.mem_plugs_iff.mp hstatement
        exact .statement hblock hplug
    · exact .next hne hblock hnext

theorem LinksInside.links {outer : Ref} (h : graph.LinksInside outer ref target) :
    graph.Links ref target := by
  cases h with
  | value hblock hplug => exact .value hblock hplug
  | statement hblock hplug => exact .statement hblock hplug
  | next _ hblock hnext => exact .next hblock hnext

theorem Links.inside {outer : Ref} (h : graph.Links ref target) (hne : ref ≠ outer) :
    graph.LinksInside outer ref target := by
  cases h with
  | value hblock hplug => exact .value hblock hplug
  | statement hblock hplug => exact .statement hblock hplug
  | next hblock hnext => exact .next hne hblock hnext

/-- The blocks nested inside a block are those that can be reached from it without the
    link to the block below it. It is not nested inside itself. -/
theorem mem_descendants_iff : target ∈ graph.descendants ref ↔
    target ≠ ref ∧ graph.Stored target ∧ TransGen (graph.LinksInside ref) ref target := by
  constructor
  · intro h
    refine ⟨fun heq => notMem_descendants_self (heq ▸ h), (of_mem_descendants h).1, ?_⟩
    cases hblock : graph.block? ref with
    | none => simp [descendants, hblock] at h
    | some block =>
      rw [descendants_of_some hblock] at h
      obtain ⟨-, start, hstart, hreach⟩ := reaches_unseen_of_mem_visit h
      have hinside : ReflTransGen (graph.LinksInside ref) start target :=
        ReflTransGen.mono (fun _ _ hstep =>
          hstep.2.inside fun heq => hstep.1 (List.mem_singleton.mpr heq)) _ _ hreach
      exact .head' (linksInside_iff.mpr ⟨block, hblock, .inl hstart⟩) hinside
  · rintro ⟨hne, hstored, hreach⟩
    refine Or.resolve_left ?_ hne
    clear hne
    induction hreach with
    | single hlink =>
      obtain ⟨block, hblock, hchild | ⟨hself, -⟩⟩ := linksInside_iff.mp hlink
      · exact mem_descendants_of_children hblock hchild hstored
      · exact absurd rfl hself
    | @tail inner target _ hlink ih =>
      rcases ih hlink.links.stored with rfl | hnested
      · obtain ⟨block, hblock, hchild | ⟨hself, -⟩⟩ := linksInside_iff.mp hlink
        · exact mem_descendants_of_children hblock hchild hstored
        · exact absurd rfl hself
      · exact mem_descendants_of_links hnested hlink.links hstored

/-- The blocks nested inside a block come in preorder: the walk goes through its value
    sockets, then through its statement sockets, with the block itself visited. Neither the
    block itself nor what can be reached only by way of the block below it is among them. -/
theorem descendants_in_preorder (hblock : graph.block? ref = some block) :
    graph.descendants ref = graph.preorderAll {ref}
        (block.values.filterMap Prod.snd ++ block.statements.filterMap Prod.snd) ∧
      ∀ target, target ∈ graph.descendants ref ↔
        target ≠ ref ∧ graph.Stored target ∧ TransGen (graph.LinksInside ref) ref target := by
  refine ⟨?_, fun target => mem_descendants_iff⟩
  rw [descendants_of_some hblock, visit_eq_preorderAll, List.toFinset_cons, List.toFinset_nil,
    insert_empty_eq, Block.children]

/-- Two blocks in the value sockets of the first one link to each other, and one of them
    links back to the first. The block 3 in its statement socket has a block in a socket of
    each kind and one below it, and the block 4 stands below the first one. -/
def tangle : Graph :=
  ⟨#[
    { (Block.ofType "a" : Block Ref) with
      values := [("A", some 2), ("B", some 1)], statements := [("C", some 3)], next := some 4 },
    { (Block.ofType "b" : Block Ref) with values := [("A", some 2)] },
    { (Block.ofType "b" : Block Ref) with values := [("A", some 1)], next := some 0 },
    { (Block.ofType "a" : Block Ref) with
      values := [("A", some 6)], statements := [("C", some 7)], next := some 5 },
    { (Block.ofType "c" : Block Ref) with values := [("A", some 1)] },
    Block.ofType "c",
    Block.ofType "d",
    Block.ofType "e"]⟩

theorem descendants_in_preorder_tangle : ∃ block, tangle.block? 0 = some block ∧
    tangle.descendants 0 = [2, 1, 3, 6, 7, 5] ∧
    tangle.descendants 0 = tangle.preorderAll {0}
        (block.values.filterMap Prod.snd ++ block.statements.filterMap Prod.snd) ∧
      ∀ target, target ∈ tangle.descendants 0 ↔
        target ≠ 0 ∧ tangle.Stored target ∧ TransGen (tangle.LinksInside 0) 0 target :=
  ⟨_, rfl, by simp [descendants, visit, tangle, block?, Block.links, Block.children, Block.ofType],
    descendants_in_preorder rfl⟩

end BlockScript.Graph
