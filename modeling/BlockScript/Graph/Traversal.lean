import BlockScript.Graph.Basic

/-!
# Walking through a graph

Walks that visit every block once, also where blocks are shared or links form
cycles: the blocks nested inside a block, the chain below a block, and all
blocks below the top blocks. Each walk remembers what it has seen; it ends
because every step either sees a stored block for the first time or takes one
reference off the stack.
-/

namespace BlockScript.Graph

/-! ## What is left to see -/

/-- How many references below `size` are not in `seen`. -/
def unseen : Nat → List Ref → Nat
  | 0, _ => 0
  | size + 1, seen => unseen size seen + if seen.contains size then 0 else 1

theorem unseen_le {seen seen' : List Ref} (size : Nat) (h : ∀ r ∈ seen, r ∈ seen') :
    unseen size seen' ≤ unseen size seen := by
  induction size with
  | zero => simp [unseen]
  | succ size ih =>
    simp only [unseen, List.contains_iff_mem]
    by_cases hs : size ∈ seen
    · simp [hs, h _ hs, ih]
    · split <;> simp <;> omega

/-- Seeing a stored block for the first time leaves fewer to see. -/
theorem unseen_lt {seen seen' : List Ref} {size ref : Nat} (h : ∀ r ∈ seen, r ∈ seen')
    (hsize : ref < size) (hnew : ref ∉ seen) (hseen : ref ∈ seen') :
    unseen size seen' < unseen size seen := by
  induction size with
  | zero => omega
  | succ size ih =>
    simp only [unseen, List.contains_iff_mem]
    have hle := unseen_le size h
    by_cases hs : ref = size
    · subst hs
      simp [hnew, hseen]
      omega
    · have := ih (by omega)
      by_cases hm : size ∈ seen
      · simp [hm, h _ hm, this]
      · split <;> simp <;> omega

theorem lt_size_of_block? {graph : Graph} {ref : Ref} {block : Block Ref}
    (h : graph.block? ref = some block) : ref < graph.size := by
  simp only [block?, Array.getElem?_eq_some_iff] at h
  exact h.1

/-! ## Nested blocks -/

/-- The loop of `Block.descendants`: visits the blocks on a stack, each before what
    is plugged into it, leaving out those in `seen`. -/
def visit (graph : Graph) (seen : List Ref) (stack : List Ref) : List Ref :=
  match stack with
  | [] => []
  | ref :: stack =>
    if _hseen : ref ∈ seen then visit graph seen stack
    else
      match _hblock : graph.block? ref with
      | none => visit graph seen stack
      | some block => ref :: visit graph (ref :: seen) (block.links ++ stack)
termination_by (unseen graph.size seen, stack.length)
decreasing_by
  · exact Prod.Lex.right _ (by simp)
  · exact Prod.Lex.right _ (by simp)
  · exact Prod.Lex.left _ _ (unseen_lt (fun r hr => by simp [hr]) (lt_size_of_block? _hblock)
      _hseen (by simp))

/-- `Block.descendants`: the blocks nested inside a block, in the order of a program
    text. The chain below the block itself is not nested inside it. -/
def descendants (graph : Graph) (ref : Ref) : List Ref :=
  match graph.block? ref with
  | none => []
  | some block => graph.visit [ref] block.children

/-! ## Chains -/

/-- The loop of `_render_chain` without the rendering: the chain of blocks from a
    place on, and the block at which it closes to a cycle, if it does. -/
def chainFrom (graph : Graph) (seen : List Ref) (place : Option Ref) : List Ref × Option Ref :=
  match place with
  | none => ([], none)
  | some ref =>
    if _hseen : ref ∈ seen then ([], some ref)
    else
      match _hblock : graph.block? ref with
      | none => ([], none)
      | some block =>
        let (refs, repeated) := chainFrom graph (ref :: seen) block.next
        (ref :: refs, repeated)
termination_by unseen graph.size seen
decreasing_by
  exact unseen_lt (fun r hr => by simp [hr]) (lt_size_of_block? _hblock) _hseen (by simp)

/-! ## All blocks -/

/-- Adds the references that are not there yet. -/
def addNew (found : List Ref) : List Ref → List Ref
  | [] => found
  | ref :: refs => addNew (if found.contains ref then found else found ++ [ref]) refs

theorem mem_addNew_of_mem {found : List Ref} {ref : Ref} (h : ref ∈ found) (refs : List Ref) :
    ref ∈ addNew found refs := by
  induction refs generalizing found with
  | nil => exact h
  | cons r refs ih =>
    rw [addNew]
    split
    · exact ih h
    · exact ih (by simp [h])

/-- The inner loop of `all_blocks`: follows a chain and adds each block with the
    blocks nested inside it, up to the first block that was found before. -/
def collectChain (graph : Graph) (found : List Ref) (place : Option Ref) : List Ref :=
  match place with
  | none => found
  | some ref =>
    if _hfound : ref ∈ found then found
    else
      match _hblock : graph.block? ref with
      | none => found
      | some block =>
        collectChain graph (addNew (found ++ [ref]) (graph.descendants ref)) block.next
termination_by unseen graph.size found
decreasing_by
  exact unseen_lt (fun r hr => mem_addNew_of_mem (by simp [hr]) _) (lt_size_of_block? _hblock)
    _hfound (mem_addNew_of_mem (by simp) _)

/-- The outer loop of `all_blocks`: the blocks below the given top blocks, each once. -/
def collect (graph : Graph) (found : List Ref) : List Ref → List Ref
  | [] => found
  | top :: tops => collect graph (collectChain graph found (some top)) tops

/-! ## Comments -/

/-- The comment of a block, unless it is empty. -/
def commentOf (graph : Graph) (ref : Ref) : List String :=
  match graph.block? ref with
  | some block => block.comment.toList.filter (· ≠ "")
  | none => []

/-- The comments that `comment_code` gathers above a statement: its own and those of
    everything inside its value sockets. -/
def commentsAbove (graph : Graph) (ref : Ref) : List String :=
  match graph.block? ref with
  | none => []
  | some block =>
    graph.commentOf ref ++ (block.values.filterMap Prod.snd).flatMap fun child =>
      graph.commentOf child ++ (graph.descendants child).flatMap graph.commentOf

end BlockScript.Graph
