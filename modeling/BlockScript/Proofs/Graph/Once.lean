import BlockScript.Proofs.Graph.Walk
import Mathlib.Data.List.Permutation

/-!
# Walks find nothing twice

A walk leaves out what it has seen, and what it finds it has seen from then on. Nothing it
finds was seen before, so what follows cannot find it again. A walk over a workspace has two
memories, one for the nest of the block it stands at and one for all it has found; only the
second one decides what is found.

Results:

* `Graph.nodup_visit`: a visit finds nothing twice, and nothing seen before.
* `Graph.nodup_descendants`: the blocks nested inside a block.
* `Workspace.allBlocks_each_once`: all blocks of a workspace.
-/

namespace BlockScript

namespace Graph

variable {graph : Graph} {ref : Ref} {seen stack found tops : List Ref}

/-! ## Nested blocks -/

/-- What a visit finds was not seen before. -/
theorem notMem_seen_of_mem_visit (h : ref ∈ graph.visit seen stack) : ref ∉ seen := by
  induction seen, stack using visit.induct graph with
  | case1 seen => simp [visit] at h
  | case2 seen first stack hseen ih =>
    rw [visit_of_seen hseen] at h
    exact ih h
  | case3 seen first stack hnew hnone ih =>
    rw [visit_of_none hnew hnone] at h
    exact ih h
  | case4 seen first stack hnew block hblock ih =>
    rw [visit_of_some hnew hblock] at h
    rcases List.mem_cons.mp h with rfl | hlater
    · exact hnew
    · exact fun hseen => ih hlater (List.mem_cons_of_mem _ hseen)

/-- A visit finds nothing twice. -/
theorem nodup_visit : (graph.visit seen stack).Nodup := by
  induction seen, stack using visit.induct graph with
  | case1 seen => simp [visit]
  | case2 seen first stack hseen ih => rwa [visit_of_seen hseen]
  | case3 seen first stack hnew hnone ih => rwa [visit_of_none hnew hnone]
  | case4 seen first stack hnew block hblock ih =>
    rw [visit_of_some hnew hblock]
    refine List.nodup_cons.mpr ⟨fun hlater => ?_, ih⟩
    exact notMem_seen_of_mem_visit hlater List.mem_cons_self

theorem nodup_descendants : (graph.descendants ref).Nodup := by
  cases hblock : graph.block? ref with
  | none => simp [descendants, hblock]
  | some block =>
    rw [descendants_of_some hblock]
    exact nodup_visit

/-- A block is not nested inside itself, also where a link leads back to it. -/
theorem notMem_descendants_self : ref ∉ graph.descendants ref := by
  cases hblock : graph.block? ref with
  | none => simp [descendants, hblock]
  | some block =>
    rw [descendants_of_some hblock]
    exact fun h => notMem_seen_of_mem_visit h List.mem_cons_self

/-! ## All blocks -/

/-- One more block than was found, which was not found before. -/
theorem nodup_append_new (h : found.Nodup) (hnew : ref ∉ found) : (found ++ [ref]).Nodup := by
  rw [← List.concat_eq_append]
  exact List.Nodup.concat hnew h

theorem nodup_addNew {refs : List Ref} (h : found.Nodup) : (addNew found refs).Nodup := by
  induction refs generalizing found with
  | nil => exact h
  | cons first refs ih =>
    rw [addNew]
    by_cases hmem : first ∈ found
    · simpa [hmem] using ih h
    · simpa [hmem] using ih (nodup_append_new h hmem)

theorem nodup_collectChain {place : Option Ref} (h : found.Nodup) :
    (graph.collectChain found place).Nodup := by
  induction found, place using collectChain.induct graph with
  | case1 found => simpa [collectChain] using h
  | case2 found ref hfound => rwa [collectChain_of_found hfound]
  | case3 found ref hnew hnone => rwa [collectChain_of_none hnew hnone]
  | case4 found ref hnew block hblock ih =>
    rw [collectChain_of_some hnew hblock]
    exact ih (nodup_addNew (nodup_append_new h hnew))

theorem nodup_collect (h : found.Nodup) : (graph.collect found tops).Nodup := by
  induction tops generalizing found with
  | nil => exact h
  | cons first tops ih => exact ih (nodup_collectChain h)

end Graph

namespace Workspace

open Relation

/-- The walk over a workspace yields each block that can be reached from its top blocks
    along links once, and nothing else. -/
theorem allBlocks_each_once (workspace : Workspace) :
    workspace.allBlocks.Nodup ∧
      ∀ ref, ref ∈ workspace.allBlocks ↔
        workspace.graph.Stored ref ∧
          ∃ top ∈ workspace.tops, ReflTransGen workspace.graph.Links top ref :=
  ⟨Graph.nodup_collect List.nodup_nil, fun _ => mem_allBlocks_iff⟩

/-- Links of all kinds: from the block 0 out of a value socket and a statement socket to the
    block 1, and down to the block 2, which is a top block as well. One link leads back to
    the block 0, and none to the block 4. -/
def woven : Workspace where
  tops := [0, 2]
  graph := ⟨#[
    { (Block.ofType "a" : Block Ref) with
      values := [("A", some 1)], statements := [("C", some 1)], next := some 2 },
    { (Block.ofType "b" : Block Ref) with statements := [("C", some 3)], next := some 0 },
    { (Block.ofType "c" : Block Ref) with statements := [("C", some 1)] },
    { (Block.ofType "d" : Block Ref) with values := [("A", some 2)] },
    { (Block.ofType "e" : Block Ref) with next := some 0 }]⟩

theorem allBlocks_each_once_woven : woven.allBlocks = [0, 1, 3, 2] ∧ woven.allBlocks.Nodup ∧
    ∀ ref, ref ∈ woven.allBlocks ↔
      woven.graph.Stored ref ∧ ∃ top ∈ woven.tops, ReflTransGen woven.graph.Links top ref :=
  ⟨by cbv, allBlocks_each_once woven⟩

end Workspace

end BlockScript
