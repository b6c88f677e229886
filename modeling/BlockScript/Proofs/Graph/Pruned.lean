import BlockScript.Proofs.Graph.Links
import BlockScript.Workspace

/-!
# Pruned graphs

A graph without its disabled blocks: a value socket with a disabled block in it is emptied,
and a disabled block of a chain is left out, so that whatever led to it leads to the next
block below it that is enabled. The blocks stay stored where they are, but nothing leads to
a disabled one.

A chain of a pruned graph is the chain that was there without its disabled blocks, if it
ends. The chains of a tree do, as every block is stored after what is plugged into it.

Definitions:

* `Graph.pruned`: a graph without its disabled blocks.
* `Graph.Chain`: the blocks from a place down to the end.

Results:

* `Graph.isEnabled_of_links_pruned`: no link of a pruned graph leads to a disabled block.
* `Graph.Chain.pruned`: the chains of a pruned graph.
* `Workspace.chains_end`: the chains of a tree end.
-/

namespace BlockScript

namespace Graph

variable {graph : Graph} {ref target : Ref} {place : Option Ref} {refs : List Ref}
  {block : Block Ref}

/-! ## Pruning -/

section Pruning

variable (graph : Graph)

/-- Whether a reference leads to an enabled block. -/
def isEnabled (ref : Ref) : Bool :=
  (graph.block? ref).any fun block => block.enabled

/-- The first enabled block of the chain that starts at a place. -/
def skip (place : Option Ref) : Option Ref :=
  (graph.chainFrom [] place).1.find? graph.isEnabled

/-- A block without the disabled blocks that are plugged into it. Its sockets stay. -/
def prunedBlock (block : Block Ref) : Block Ref :=
  { block with
    values := block.values.map fun socket => (socket.1, socket.2.filter graph.isEnabled)
    statements := block.statements.map fun socket => (socket.1, graph.skip socket.2)
    next := graph.skip block.next }

/-- A graph without its disabled blocks. -/
def pruned : Graph :=
  ⟨graph.blocks.map graph.prunedBlock⟩

end Pruning

theorem block?_pruned : graph.pruned.block? ref = (graph.block? ref).map graph.prunedBlock := by
  simp only [pruned, block?, Array.getElem?_map]

theorem size_pruned : graph.pruned.size = graph.size := by
  simp only [pruned, size, Array.size_map]

theorem isEnabled_pruned : graph.pruned.isEnabled ref = graph.isEnabled ref := by
  unfold isEnabled
  rw [block?_pruned, Option.any_map]
  rfl

theorem isEnabled_eq (hblock : graph.block? ref = some block) :
    graph.isEnabled ref = block.enabled := by
  rw [isEnabled, hblock, Option.any_some]

theorem isEnabled_of_skip (h : graph.skip place = some target) : graph.isEnabled target = true :=
  List.find?_some h

/-- No link of a pruned graph leads to a disabled block. -/
theorem isEnabled_of_links_pruned (h : graph.pruned.Links ref target) :
    graph.pruned.isEnabled target = true := by
  obtain ⟨left, hleft, htarget⟩ := links_iff.mp h
  rw [block?_pruned] at hleft
  obtain ⟨block, -, rfl⟩ := Option.map_eq_some_iff.mp hleft
  rw [isEnabled_pruned]
  simp only [Block.links, Block.children, prunedBlock, List.mem_append, List.mem_filterMap,
    List.mem_map, Option.mem_toList] at htarget
  rcases htarget with (⟨_, ⟨socket, -, rfl⟩, htarget⟩ | ⟨_, ⟨socket, -, rfl⟩, htarget⟩) | htarget
  · exact (Option.filter_eq_some_iff.mp htarget).2
  · exact isEnabled_of_skip htarget
  · exact isEnabled_of_skip htarget

/-! ## Chains -/

/-- The blocks from a place on, down to the end. -/
inductive Chain (graph : Graph) : Option Ref → List Ref → Prop where
  | none : Chain graph none []
  | absent {ref : Ref} (h : graph.block? ref = .none) : Chain graph (some ref) []
  | cons {ref : Ref} {block : Block Ref} {refs : List Ref} (hblock : graph.block? ref = some block)
    (hnext : Chain graph block.next refs) : Chain graph (some ref) (ref :: refs)

namespace Chain

/-- A walk along a chain that does not come back to one of its blocks goes to the end. -/
theorem of_chainFrom {seen : List Ref} (h : (graph.chainFrom seen place).2 = .none) :
    graph.Chain place (graph.chainFrom seen place).1 := by
  induction seen, place using chainFrom.induct graph with
  | case1 seen =>
    rw [chainFrom]
    exact .none
  | case2 seen ref hseen =>
    rw [chainFrom_of_seen hseen] at h
    cases h
  | case3 seen ref hnew hnone =>
    rw [chainFrom_of_none hnew hnone]
    exact .absent hnone
  | case4 seen ref hnew block hblock _ _ _ ih =>
    rw [chainFrom_of_some hnew hblock] at h ⊢
    exact .cons hblock (ih h)

theorem unique {others : List Ref} (h : graph.Chain place refs) (hother : graph.Chain place others) :
    refs = others := by
  induction h generalizing others with
  | none =>
    cases hother
    rfl
  | absent hnone =>
    cases hother with
    | absent _ => rfl
    | cons hblock _ => cases hnone.symm.trans hblock
  | cons hblock _ ih =>
    cases hother with
    | absent hnone => cases hnone.symm.trans hblock
    | cons hblock' hnext =>
      cases hblock.symm.trans hblock'
      rw [ih hnext]

/-- The chain from a block of a chain on is a part of it. -/
theorem exists_suffix (h : graph.Chain place refs) (hmem : target ∈ refs) :
    ∃ rest, graph.Chain (some target) (target :: rest) ∧ target :: rest <:+ refs := by
  induction h with
  | none => cases hmem
  | absent _ => cases hmem
  | @cons ref block refs hblock hnext ih =>
    rcases List.mem_cons.mp hmem with rfl | hmem
    · exact ⟨refs, .cons hblock hnext, List.suffix_rfl⟩
    · obtain ⟨rest, hrest, hsuffix⟩ := ih hmem
      exact ⟨rest, hrest, hsuffix.trans (List.suffix_cons _ _)⟩

/-- No block of a chain comes again below it. -/
theorem not_mem (h : graph.Chain (some ref) (ref :: refs)) : ref ∉ refs := by
  intro hmem
  cases h with
  | cons hblock hnext =>
    obtain ⟨rest, hrest, hsuffix⟩ := hnext.exists_suffix hmem
    have hsame := hrest.unique (.cons hblock hnext)
    have hlength := hsuffix.length_le
    rw [hsame, List.length_cons] at hlength
    omega

/-- A walk along a chain finds it. -/
theorem chainFrom_eq {seen : List Ref} (h : graph.Chain place refs) (hnew : ∀ ref ∈ refs, ref ∉ seen)
    (hseen : ∀ ref ∈ seen, ∃ block, graph.block? ref = some block) :
    graph.chainFrom seen place = (refs, .none) := by
  induction h generalizing seen with
  | none => rw [chainFrom]
  | absent hnone =>
    refine chainFrom_of_none (fun hmem => ?_) hnone
    obtain ⟨block, hblock⟩ := hseen _ hmem
    cases hnone.symm.trans hblock
  | @cons ref block refs hblock hnext ih =>
    have hthis : graph.Chain (some ref) (ref :: refs) := .cons hblock hnext
    have hrest : graph.chainFrom (ref :: seen) block.next = (refs, .none) := by
      refine ih (fun other hmem => ?_) (List.forall_mem_cons.mpr ⟨⟨block, hblock⟩, hseen⟩)
      refine List.not_mem_cons_of_ne_of_not_mem ?_ (hnew other (List.mem_cons_of_mem _ hmem))
      rintro rfl
      exact hthis.not_mem hmem
    rw [chainFrom_of_some (hnew ref List.mem_cons_self) hblock, hrest]

theorem skip_eq (h : graph.Chain place refs) : graph.skip place = refs.find? graph.isEnabled := by
  rw [skip, h.chainFrom_eq (fun _ _ => List.not_mem_nil) fun _ hmem => absurd hmem List.not_mem_nil]

/-- A chain of a pruned graph is the chain that was there without its disabled blocks. -/
theorem pruned (h : graph.Chain place refs) :
    graph.pruned.Chain (graph.skip place) (refs.filter graph.isEnabled) := by
  induction h with
  | none =>
    rw [skip_eq .none]
    exact .none
  | absent hnone =>
    rw [skip_eq (.absent hnone)]
    exact .none
  | @cons ref block refs hblock hnext ih =>
    rw [skip_eq (.cons hblock hnext)]
    cases henabled : graph.isEnabled ref with
    | true =>
      rw [List.find?_cons_of_pos henabled, List.filter_cons_of_pos henabled]
      exact .cons (by rw [block?_pruned, hblock]; rfl) ih
    | false =>
      have hno : ¬graph.isEnabled ref = true := by rw [henabled]; exact Bool.false_ne_true
      rw [List.find?_cons_of_neg hno, List.filter_cons_of_neg hno, ← hnext.skip_eq]
      exact ih

/-- Below the first block of a chain, every block is the one below another. -/
theorem exists_above (h : graph.Chain (some ref) (ref :: refs)) (hmem : target ∈ refs) :
    ∃ above block, graph.block? above = some block ∧ block.next = some target := by
  cases h with
  | @cons _ block _ hblock hnext =>
    generalize hplace : block.next = place at hnext
    induction hnext generalizing ref block with
    | none => cases hmem
    | absent _ => cases hmem
    | @cons next lower refs hlower _ ih =>
      rcases List.mem_cons.mp hmem with rfl | hmem
      · exact ⟨ref, block, hblock, hplace⟩
      · exact ih hmem hlower rfl

end Chain

/-! ## The graph of a tree -/

/-- Whether every block is stored after what is plugged into it. -/
def LinksBack (graph : Graph) : Prop :=
  ∀ ref target, graph.Links ref target → target < ref

/-- With every block stored after what is plugged into it, all chains end. -/
theorem LinksBack.chain_ends (h : graph.LinksBack) (place : Option Ref) :
    (graph.chainFrom [] place).2 = none := by
  cases hrepeated : (graph.chainFrom [] place).2 with
  | none => rfl
  | some repeated =>
    have hless : ∀ {outer inner : Ref}, graph.Reaches outer inner → inner < outer := by
      intro outer inner hreach
      induction hreach with
      | single hlink => exact h _ _ hlink
      | tail _ hlink ih => exact Nat.lt_trans (h _ _ hlink) ih
    exact absurd (hless (cyclic_of_chainFrom hrepeated)) (Nat.lt_irrefl _)

/-- What storing something leads to: every block comes after what is plugged into it, and
    nothing is lost. -/
structure Stores (before after : Graph) : Prop where
  linksBack : after.LinksBack
  size_le : before.size ≤ after.size

theorem Stores.push (h : graph.LinksBack) (hlinks : ∀ target ∈ block.links, target < graph.size) :
    Stores graph (graph.push block).2 := by
  refine ⟨?_, by simp [Graph.push, size]⟩
  intro ref target hlink
  obtain ⟨other, hother, htarget⟩ := links_iff.mp hlink
  simp only [Graph.push, block?, Array.getElem?_push] at hother
  split at hother
  · next hlast =>
    cases hother
    rw [hlast]
    exact hlinks target htarget
  · exact h ref target (links_iff.mpr ⟨other, hother, htarget⟩)

theorem Stores.trans {before between after : Graph} (h : Stores before between)
    (hmore : Stores between after) : Stores before after :=
  ⟨hmore.linksBack, Nat.le_trans h.size_le hmore.size_le⟩

mutual

/-- Storing a tree. -/
theorem stores_addTree (graph : Graph) (h : graph.LinksBack) : (tree : Tree) →
    Stores graph (addTree tree graph).2 ∧ (addTree tree graph).1 < (addTree tree graph).2.size
  | .node ⟨type, id, fields, values, statements, next, comment, enabled, extraState⟩ => by
    obtain ⟨hvalues, hvalue⟩ := stores_addSockets graph h values
    obtain ⟨hstatements, hstatement⟩ := stores_addSockets _ hvalues.linksBack statements
    obtain ⟨hplug, hnext⟩ := stores_addPlug _ hstatements.linksBack next
    rw [addTree]
    refine ⟨(hvalues.trans (hstatements.trans hplug)).trans (.push hplug.linksBack ?_), ?_⟩
    · intro target htarget
      rcases List.mem_append.mp htarget with hchild | htarget
      · rcases List.mem_append.mp hchild with hchild | hchild
        · exact Nat.lt_of_lt_of_le (hvalue target hchild)
            (Nat.le_trans hstatements.size_le hplug.size_le)
        · exact Nat.lt_of_lt_of_le (hstatement target hchild) hplug.size_le
      · exact hnext target (Option.mem_toList.mp htarget)
    · simp [Graph.push, size]

/-- Storing what is plugged into sockets. -/
theorem stores_addSockets (graph : Graph) (h : graph.LinksBack) :
    (sockets : List (String × Option Tree)) →
    Stores graph (addSockets sockets graph).2 ∧
      ∀ target ∈ (addSockets sockets graph).1.filterMap Prod.snd,
        target < (addSockets sockets graph).2.size
  | [] => ⟨⟨h, Nat.le_refl _⟩, fun _ hmem => absurd hmem List.not_mem_nil⟩
  | (socket, plug) :: rest => by
    obtain ⟨hplug, hfirst⟩ := stores_addPlug graph h plug
    obtain ⟨hrest, hlater⟩ := stores_addSockets _ hplug.linksBack rest
    rw [addSockets]
    refine ⟨hplug.trans hrest, fun target htarget => ?_⟩
    obtain ⟨member, hmember, hheld⟩ := List.mem_filterMap.mp htarget
    rcases List.mem_cons.mp hmember with rfl | hmember
    · exact Nat.lt_of_lt_of_le (hfirst target hheld) hrest.size_le
    · exact hlater target (List.mem_filterMap.mpr ⟨member, hmember, hheld⟩)

/-- Storing what is plugged in at one place. -/
theorem stores_addPlug (graph : Graph) (h : graph.LinksBack) : (plug : Option Tree) →
    Stores graph (addPlug plug graph).2 ∧
      ∀ target ∈ (addPlug plug graph).1, target < (addPlug plug graph).2.size
  | none => ⟨⟨h, Nat.le_refl _⟩, fun _ hmem => by cases hmem⟩
  | some tree => by
    obtain ⟨hstores, hlast⟩ := stores_addTree graph h tree
    rw [addPlug]
    exact ⟨hstores, fun target htarget => by cases htarget; exact hlast⟩

end

theorem stores_addTrees (h : graph.LinksBack) (trees : List Tree) :
    Stores graph (addTrees trees graph).2 := by
  induction trees generalizing graph with
  | nil => exact ⟨h, Nat.le_refl _⟩
  | cons tree trees ih =>
    obtain ⟨hstores, -⟩ := stores_addTree graph h tree
    exact hstores.trans (ih hstores.linksBack)

end Graph

namespace Workspace

/-- The chains of a document end. -/
theorem chains_end (document : WorkspaceDocument) (place : Option Ref) :
    ((ofDocument document).graph.chainFrom [] place).2 = none := by
  have hempty : Graph.LinksBack {} := by
    intro ref target hlink
    obtain ⟨block, hblock⟩ := hlink.stored
    cases hblock
  exact (Graph.stores_addTrees hempty document.blocks).linksBack.chain_ends place

end Workspace

end BlockScript
