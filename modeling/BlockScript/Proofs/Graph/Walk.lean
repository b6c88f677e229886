import BlockScript.Proofs.Graph.Links
import BlockScript.Workspace

/-!
# What walks find

A walk through a graph finds all blocks that it should, also where blocks are shared or
links form cycles. What it leaves out for having been seen is found already, so what it
has found in the end is closed under links.

Results:

* `Graph.closed_visit`: a visit finds whatever its blocks link to, or has seen it.
* `Graph.mem_descendants_of_links`: what a nested block links to is nested as well.
* `Workspace.mem_allBlocks_iff`: all blocks of a workspace.
-/

namespace BlockScript

namespace Graph

open Relation

variable {graph : Graph} {ref target : Ref} {seen stack : List Ref} {block : Block Ref}

/-! ## Visits -/

theorem visit_of_seen (h : ref ∈ seen) : graph.visit seen (ref :: stack) = graph.visit seen stack := by
  rw [visit, dif_pos h]

theorem visit_of_none (h : ref ∉ seen) (hnone : graph.block? ref = none) :
    graph.visit seen (ref :: stack) = graph.visit seen stack := by
  rw [visit, dif_neg h]
  split
  · rfl
  · next hsome => simp [hnone] at hsome

theorem visit_of_some (h : ref ∉ seen) (hblock : graph.block? ref = some block) :
    graph.visit seen (ref :: stack) =
      ref :: graph.visit (ref :: seen) (block.links ++ stack) := by
  rw [visit, dif_neg h]
  split
  · next hnone => simp [hnone] at hblock
  · next block' hblock' =>
    obtain rfl : block' = block := by simpa [hblock] using hblock'.symm
    rfl

/-- A visit finds what it starts from, or has seen it. -/
theorem mem_visit_of_mem (h : target ∈ stack) (hstored : graph.Stored target) :
    target ∈ seen ∨ target ∈ graph.visit seen stack := by
  induction seen, stack using visit.induct graph with
  | case1 seen => cases h
  | case2 seen ref stack hseen ih =>
    rw [visit_of_seen hseen]
    rcases List.mem_cons.mp h with rfl | htail
    · exact .inl hseen
    · exact ih htail
  | case3 seen ref stack hnew hnone ih =>
    rw [visit_of_none hnew hnone]
    rcases List.mem_cons.mp h with rfl | htail
    · obtain ⟨block, hblock⟩ := hstored
      cases hnone.symm.trans hblock
    · exact ih htail
  | case4 seen ref stack hnew block hblock ih =>
    rw [visit_of_some hnew hblock]
    rcases List.mem_cons.mp h with rfl | htail
    · exact .inr List.mem_cons_self
    · rcases ih (List.mem_append_right _ htail) with hseen | hfound
      · rcases List.mem_cons.mp hseen with rfl | hseen
        · exact .inr List.mem_cons_self
        · exact .inl hseen
      · exact .inr (List.mem_cons_of_mem _ hfound)

/-- A visit finds whatever its blocks link to, or has seen it. -/
theorem closed_visit (h : ref ∈ graph.visit seen stack) (hlink : graph.Links ref target)
    (hstored : graph.Stored target) : target ∈ seen ∨ target ∈ graph.visit seen stack := by
  induction seen, stack using visit.induct graph with
  | case1 seen => simp [visit] at h
  | case2 seen first stack hseen ih =>
    rw [visit_of_seen hseen] at h ⊢
    exact ih h
  | case3 seen first stack hnew hnone ih =>
    rw [visit_of_none hnew hnone] at h ⊢
    exact ih h
  | case4 seen first stack hnew block hblock ih =>
    rw [visit_of_some hnew hblock] at h ⊢
    have hlater : target ∈ first :: seen ∨
        target ∈ graph.visit (first :: seen) (block.links ++ stack) := by
      rcases List.mem_cons.mp h with rfl | hfound
      · obtain ⟨other, hother, htarget⟩ := links_iff.mp hlink
        cases hblock.symm.trans hother
        exact mem_visit_of_mem (List.mem_append_left _ htarget) hstored
      · exact ih hfound
    rcases hlater with hseen | hfound
    · rcases List.mem_cons.mp hseen with rfl | hseen
      · exact .inr List.mem_cons_self
      · exact .inl hseen
    · exact .inr (List.mem_cons_of_mem _ hfound)

/-- What a visit finds is stored, and reached from where it starts along links of blocks
    that were not seen. -/
theorem reaches_unseen_of_mem_visit (h : target ∈ graph.visit seen stack) :
    graph.Stored target ∧ ∃ start ∈ stack,
      ReflTransGen (fun ref next => ref ∉ seen ∧ graph.Links ref next) start target := by
  induction seen, stack using visit.induct graph with
  | case1 seen => simp [visit] at h
  | case2 seen ref stack hseen ih =>
    rw [visit_of_seen hseen] at h
    obtain ⟨hstored, start, hstart, hreach⟩ := ih h
    exact ⟨hstored, start, List.mem_cons_of_mem _ hstart, hreach⟩
  | case3 seen ref stack hnew hnone ih =>
    rw [visit_of_none hnew hnone] at h
    obtain ⟨hstored, start, hstart, hreach⟩ := ih h
    exact ⟨hstored, start, List.mem_cons_of_mem _ hstart, hreach⟩
  | case4 seen ref stack hnew block hblock ih =>
    rw [visit_of_some hnew hblock] at h
    rcases List.mem_cons.mp h with rfl | hfound
    · exact ⟨⟨block, hblock⟩, target, List.mem_cons_self, .refl⟩
    · obtain ⟨hstored, start, hstart, hlater⟩ := ih hfound
      have hreach : ReflTransGen (fun ref next => ref ∉ seen ∧ graph.Links ref next) start target :=
        ReflTransGen.mono (fun _ _ ⟨hno, hlink⟩ =>
          ⟨fun hmem => hno (List.mem_cons_of_mem _ hmem), hlink⟩) _ _ hlater
      rcases List.mem_append.mp hstart with hlink | hstart
      · exact ⟨hstored, ref, List.mem_cons_self,
          .head ⟨hnew, links_iff.mpr ⟨block, hblock, hlink⟩⟩ hreach⟩
      · exact ⟨hstored, start, List.mem_cons_of_mem _ hstart, hreach⟩

/-- What a visit finds is stored, and reached from where it starts. -/
theorem of_mem_visit (h : target ∈ graph.visit seen stack) :
    graph.Stored target ∧ ∃ start ∈ stack, ReflTransGen graph.Links start target := by
  obtain ⟨hstored, start, hstart, hreach⟩ := reaches_unseen_of_mem_visit h
  exact ⟨hstored, start, hstart, ReflTransGen.mono (fun _ _ hlink => hlink.2) _ _ hreach⟩

/-! ## Nested blocks -/

theorem descendants_of_some (hblock : graph.block? ref = some block) :
    graph.descendants ref = graph.visit [ref] block.children := by
  simp only [descendants, hblock]

/-- What is plugged into a block is nested inside it, unless it is the block itself. -/
theorem mem_descendants_of_children (hblock : graph.block? ref = some block)
    (h : target ∈ block.children) (hstored : graph.Stored target) :
    target = ref ∨ target ∈ graph.descendants ref := by
  rw [descendants_of_some hblock]
  have hseen : target ∈ [ref] ∨ target ∈ graph.visit [ref] block.children :=
    mem_visit_of_mem h hstored
  simpa using hseen

/-- What a nested block links to is nested as well, unless it is the outermost block. -/
theorem mem_descendants_of_links {inner : Ref} (h : inner ∈ graph.descendants ref)
    (hlink : graph.Links inner target) (hstored : graph.Stored target) :
    target = ref ∨ target ∈ graph.descendants ref := by
  cases hblock : graph.block? ref with
  | none => simp [descendants, hblock] at h
  | some block =>
    rw [descendants_of_some hblock] at h ⊢
    simpa using closed_visit h hlink hstored

/-- Nested blocks are stored, and reached from the outermost block. -/
theorem of_mem_descendants (h : target ∈ graph.descendants ref) :
    graph.Stored target ∧ graph.Reaches ref target := by
  cases hblock : graph.block? ref with
  | none => simp [descendants, hblock] at h
  | some block =>
    rw [descendants_of_some hblock] at h
    obtain ⟨hstored, start, hstart, hreach⟩ := of_mem_visit h
    exact ⟨hstored, .head' (links_iff.mpr ⟨block, hblock, List.mem_append_left _ hstart⟩) hreach⟩

/-! ## All blocks -/

theorem mem_addNew_iff {found refs : List Ref} :
    target ∈ addNew found refs ↔ target ∈ found ∨ target ∈ refs := by
  induction refs generalizing found with
  | nil => simp [addNew]
  | cons first refs ih =>
    rw [addNew, ih]
    by_cases hmem : first ∈ found
    · simp only [List.contains_iff_mem, hmem, if_true, List.mem_cons]
      exact ⟨Or.imp_right .inr, fun h => h.elim .inl fun h => h.elim (fun heq => .inl (heq ▸ hmem)) .inr⟩
    · simp [hmem, or_assoc]

/-- Whether whatever the blocks found link to is found or is the place to go on at. -/
def ClosedUpTo (graph : Graph) (found : List Ref) (place : Option Ref) : Prop :=
  ∀ ref ∈ found, ∀ target, graph.Links ref target → graph.Stored target →
    target ∈ found ∨ place = some target

theorem collectChain_of_found {found : List Ref} (h : ref ∈ found) :
    graph.collectChain found (some ref) = found := by
  rw [collectChain, dif_pos h]

theorem collectChain_of_none {found : List Ref} (h : ref ∉ found)
    (hnone : graph.block? ref = none) : graph.collectChain found (some ref) = found := by
  rw [collectChain, dif_neg h]
  split
  · rfl
  · next hsome => simp [hnone] at hsome

theorem collectChain_of_some {found : List Ref} (h : ref ∉ found)
    (hblock : graph.block? ref = some block) :
    graph.collectChain found (some ref) =
      graph.collectChain (addNew (found ++ [ref]) (graph.descendants ref)) block.next := by
  rw [collectChain, dif_neg h]
  split
  · next hnone => simp [hnone] at hblock
  · next block' hblock' =>
    obtain rfl : block' = block := by simpa [hblock] using hblock'.symm
    rfl

/-- One block of a chain with the blocks nested inside it. Only the block below may be
    left to find. -/
theorem closedUpTo_addNew {found : List Ref} (h : graph.ClosedUpTo found (some ref))
    (hblock : graph.block? ref = some block) :
    graph.ClosedUpTo (addNew (found ++ [ref]) (graph.descendants ref)) block.next := by
  intro inner hinner target hlink hstored
  simp only [mem_addNew_iff, List.mem_append, List.mem_singleton] at hinner ⊢
  rcases hinner with (hold | rfl) | hnested
  · rcases h inner hold target hlink hstored with hfound | hplace
    · exact .inl (.inl (.inl hfound))
    · cases hplace
      exact .inl (.inl (.inr rfl))
  · obtain ⟨other, hother, htarget⟩ := links_iff.mp hlink
    cases hblock.symm.trans hother
    rcases List.mem_append.mp htarget with hchild | hnext
    · rcases mem_descendants_of_children hblock hchild hstored with rfl | hnested
      · exact .inl (.inl (.inr rfl))
      · exact .inl (.inr hnested)
    · exact .inr (Option.mem_toList.mp hnext)
  · rcases mem_descendants_of_links hnested hlink hstored with rfl | hnested
    · exact .inl (.inl (.inr rfl))
    · exact .inl (.inr hnested)

/-- Following a chain finds its first block, and what it has found is closed under
    links. -/
theorem closedUpTo_collectChain {found : List Ref} {place : Option Ref}
    (h : graph.ClosedUpTo found place) :
    graph.ClosedUpTo (graph.collectChain found place) none ∧
      found ⊆ graph.collectChain found place ∧
      ∀ head, place = some head → graph.Stored head → head ∈ graph.collectChain found place := by
  induction found, place using collectChain.induct graph with
  | case1 found => exact ⟨by simpa [collectChain] using h, by simp [collectChain], by simp⟩
  | case2 found ref hfound =>
    rw [collectChain_of_found hfound]
    refine ⟨fun inner hinner target hlink hstored => ?_, List.Subset.refl _, ?_⟩
    · rcases h inner hinner target hlink hstored with hmem | hplace
      · exact .inl hmem
      · cases hplace
        exact .inl hfound
    · rintro head ⟨⟩ -
      exact hfound
  | case3 found ref hnew hnone =>
    have hunstored : ¬graph.Stored ref := by
      rintro ⟨block, hblock⟩
      cases hnone.symm.trans hblock
    rw [collectChain_of_none hnew hnone]
    refine ⟨fun inner hinner target hlink hstored => ?_, List.Subset.refl _, ?_⟩
    · rcases h inner hinner target hlink hstored with hmem | hplace
      · exact .inl hmem
      · cases hplace
        exact absurd hstored hunstored
    · rintro head ⟨⟩ hstored
      exact absurd hstored hunstored
  | case4 found ref hnew block hblock ih =>
    rw [collectChain_of_some hnew hblock]
    obtain ⟨hclosed, hsubset, -⟩ := ih (closedUpTo_addNew h hblock)
    refine ⟨hclosed, fun inner hinner => hsubset ?_, ?_⟩
    · exact mem_addNew_iff.mpr (.inl (List.mem_append_left _ hinner))
    · rintro head ⟨⟩ -
      exact hsubset (mem_addNew_iff.mpr (.inl (List.mem_append_right _ List.mem_cons_self)))

/-- What following a chain finds is stored and reached from the start of the chain, or
    was found before. -/
theorem of_mem_collectChain {found : List Ref} {place : Option Ref}
    (h : target ∈ graph.collectChain found place) :
    target ∈ found ∨ graph.Stored target ∧
      ∃ head, place = some head ∧ ReflTransGen graph.Links head target := by
  induction found, place using collectChain.induct graph with
  | case1 found => exact .inl (by simpa [collectChain] using h)
  | case2 found ref hfound => exact .inl (by rwa [collectChain_of_found hfound] at h)
  | case3 found ref hnew hnone => exact .inl (by rwa [collectChain_of_none hnew hnone] at h)
  | case4 found ref hnew block hblock ih =>
    rw [collectChain_of_some hnew hblock] at h
    rcases ih h with hmem | ⟨hstored, next, hnext, hreach⟩
    · simp only [mem_addNew_iff, List.mem_append, List.mem_singleton] at hmem
      rcases hmem with (hold | rfl) | hnested
      · exact .inl hold
      · exact .inr ⟨⟨block, hblock⟩, target, rfl, .refl⟩
      · obtain ⟨hstored, hreach⟩ := of_mem_descendants hnested
        exact .inr ⟨hstored, ref, rfl, hreach.to_reflTransGen⟩
    · exact .inr ⟨hstored, ref, rfl, .head (.next hblock hnext) hreach⟩

/-- Following several chains finds their first blocks, and what it has found is closed
    under links. -/
theorem closedUpTo_collect {found : List Ref} (tops : List Ref)
    (h : graph.ClosedUpTo found none) :
    graph.ClosedUpTo (graph.collect found tops) none ∧ found ⊆ graph.collect found tops ∧
      ∀ top ∈ tops, graph.Stored top → top ∈ graph.collect found tops := by
  induction tops generalizing found with
  | nil => exact ⟨h, List.Subset.refl _, by simp⟩
  | cons first tops ih =>
    have hfirst : graph.ClosedUpTo found (some first) :=
      fun inner hinner target hlink hstored =>
        (h inner hinner target hlink hstored).imp_right fun hno => by cases hno
    obtain ⟨hchain, hsubset, hhead⟩ := closedUpTo_collectChain hfirst
    obtain ⟨hclosed, hrest, htops⟩ := ih hchain
    refine ⟨hclosed, fun inner hinner => hrest (hsubset hinner), fun top htop hstored => ?_⟩
    rcases List.mem_cons.mp htop with rfl | hmem
    · exact hrest (hhead top rfl hstored)
    · exact htops top hmem hstored

theorem of_mem_collect {found tops : List Ref} (h : target ∈ graph.collect found tops) :
    target ∈ found ∨ graph.Stored target ∧ ∃ top ∈ tops, ReflTransGen graph.Links top target := by
  induction tops generalizing found with
  | nil => exact .inl h
  | cons first tops ih =>
    rcases ih h with hmem | ⟨hstored, top, htop, hreach⟩
    · rcases of_mem_collectChain hmem with hold | ⟨hstored, head, hhead, hreach⟩
      · exact .inl hold
      · cases hhead
        exact .inr ⟨hstored, first, List.mem_cons_self, hreach⟩
    · exact .inr ⟨hstored, top, List.mem_cons_of_mem _ htop, hreach⟩

end Graph

namespace Workspace

open Relation

variable {workspace : Workspace} {ref : Ref}

/-- All blocks of a workspace are those that can be reached from its top blocks. -/
theorem mem_allBlocks_iff : ref ∈ workspace.allBlocks ↔
    workspace.graph.Stored ref ∧
      ∃ top ∈ workspace.tops, ReflTransGen workspace.graph.Links top ref := by
  have hnone : workspace.graph.ClosedUpTo [] none := fun _ hmem => by cases hmem
  obtain ⟨hclosed, -, htops⟩ := Graph.closedUpTo_collect workspace.tops hnone
  constructor
  · intro h
    exact (Graph.of_mem_collect h).resolve_left List.not_mem_nil
  · rintro ⟨hstored, top, htop, hreach⟩
    induction hreach with
    | refl => exact htops top htop hstored
    | @tail ref target hreach hlink ih =>
      exact (hclosed ref (ih hlink.stored) target hlink hstored).resolve_right (by simp)

end Workspace

end BlockScript
