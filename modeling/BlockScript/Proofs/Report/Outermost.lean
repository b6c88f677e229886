import BlockScript.SyntaxReport
import Mathlib.Data.List.Basic
import Mathlib.Data.List.Forall2

/-!
# Outermost faults

The walk over a syntax tree keeps a stack of nodes and does not look below a faulty one. Nodes
that look the same are told apart by their places: the place of a node says which child to go to
next, from the root on. Places are ordered as the text is, a node ahead of what lies below it.

Results:

* `faultsOf_eq`: the walk with a stack finds what a recursion over the tree finds.
* `mem_outermost_iff`: the recursion finds the faulty nodes without a faulty one above them.
* `pairwise_outermost`: it finds them in the order of the text, each once.
* `syntaxIssues_outermost`: the issues of a report.
-/

namespace BlockScript

namespace SyntaxNode

variable {node child found : SyntaxNode} {nodes : List SyntaxNode} {place above : List Nat}
  {i : Nat}

/-! ## Places -/

/-- The node at a place. -/
def at? : SyntaxNode → List Nat → Option SyntaxNode
  | node, [] => some node
  | node, i :: place => node.children[i]?.bind fun child => child.at? place

/-- Whether the node is one that was expected and not there. -/
def isMissing : SyntaxNode → Bool
  | .node _ _ _ missing _ _ => missing

/-- The place of a faulty node with no faulty one above it. -/
def IsOutermost (tree : SyntaxNode) (place : List Nat) : Prop :=
  (∃ node, tree.at? place = some node ∧ node.isFault = true) ∧
    ∀ above node, above <+: place → above ≠ place → tree.at? above = some node →
      node.isFault = false

@[simp]
theorem at?_nil : node.at? [] = some node := rfl

theorem at?_cons : node.at? (i :: place) = node.children[i]?.bind fun child => child.at? place :=
  rfl

theorem at?_cons_eq_some_iff :
    node.at? (i :: place) = some found ↔
      ∃ child, node.children[i]? = some child ∧ child.at? place = some found := by
  rw [at?_cons, Option.bind_eq_some_iff]

theorem isOutermost_nil_iff : node.IsOutermost [] ↔ node.isFault = true := by
  constructor
  · rintro ⟨⟨found, hfound, hfault⟩, -⟩
    cases hfound
    exact hfault
  · intro hfault
    refine ⟨⟨node, rfl, hfault⟩, fun above _ habove hne => ?_⟩
    exact absurd (List.prefix_nil.mp habove) hne

/-- Below a node that is sound itself, a place is outermost if it is so for the child that it
    leads to. -/
theorem isOutermost_cons_iff :
    node.IsOutermost (i :: place) ↔
      node.isFault = false ∧ ∃ child, node.children[i]? = some child ∧ child.IsOutermost place := by
  constructor
  · rintro ⟨⟨found, hfound, hfault⟩, habove⟩
    obtain ⟨child, hchild, hat⟩ := at?_cons_eq_some_iff.mp hfound
    refine ⟨habove [] node List.nil_prefix (by simp) rfl, child, hchild, ⟨found, hat, hfault⟩, ?_⟩
    intro above other hprefix hne hother
    refine habove (i :: above) other (List.cons_prefix_cons.mpr ⟨rfl, hprefix⟩) (by simpa) ?_
    exact at?_cons_eq_some_iff.mpr ⟨child, hchild, hother⟩
  · rintro ⟨hsound, child, hchild, ⟨found, hat, hfault⟩, habove⟩
    refine ⟨⟨found, at?_cons_eq_some_iff.mpr ⟨child, hchild, hat⟩, hfault⟩, ?_⟩
    intro above other hprefix hne hother
    cases above with
    | nil =>
      cases hother
      exact hsound
    | cons j above =>
      obtain ⟨rfl, hrest⟩ := List.cons_prefix_cons.mp hprefix
      obtain ⟨sibling, hsibling, hother⟩ := at?_cons_eq_some_iff.mp hother
      obtain rfl : child = sibling := Option.some.inj (hchild.symm.trans hsibling)
      exact habove above other hrest (by simpa using hne) hother

/-- Every faulty node is outermost or lies below one that is. -/
theorem exists_isOutermost (hat : node.at? place = some found) (hfault : found.isFault = true) :
    ∃ above, above <+: place ∧ node.IsOutermost above := by
  induction place generalizing node with
  | nil =>
    cases hat
    exact ⟨[], List.nil_prefix, isOutermost_nil_iff.mpr hfault⟩
  | cons i place ih =>
    cases hnode : node.isFault with
    | true => exact ⟨[], List.nil_prefix, isOutermost_nil_iff.mpr hnode⟩
    | false =>
      obtain ⟨child, hchild, hat⟩ := at?_cons_eq_some_iff.mp hat
      obtain ⟨above, hprefix, hout⟩ := ih hat
      exact ⟨i :: above, List.cons_prefix_cons.mpr ⟨rfl, hprefix⟩,
        isOutermost_cons_iff.mpr ⟨hnode, child, hchild, hout⟩⟩

/-! ## The recursion -/

mutual

/-- The outermost faulty nodes of a tree, each with its place. -/
def outermost : SyntaxNode → List (List Nat × SyntaxNode)
  | .node type row column missing bytes children =>
    if isFault (.node type row column missing bytes children) then
      [([], .node type row column missing bytes children)]
    else outermostFrom 0 children

/-- The outermost faulty nodes of the children from the one with number `i` on. -/
def outermostFrom (i : Nat) : List SyntaxNode → List (List Nat × SyntaxNode)
  | [] => []
  | child :: rest =>
    (outermost child).map (fun found => (i :: found.1, found.2)) ++ outermostFrom (i + 1) rest

end

theorem outermost_of_isFault (h : node.isFault = true) : node.outermost = [([], node)] := by
  cases node
  rw [outermost, if_pos h]

theorem outermost_of_not_isFault (h : node.isFault = false) :
    node.outermost = outermostFrom 0 node.children := by
  cases node
  rw [outermost, if_neg (by simp [h])]
  rfl

theorem count_lt_of_mem_children (h : child ∈ node.children) : child.count < node.count := by
  refine Nat.lt_of_le_of_lt ?_ (countAll_children_lt node)
  generalize node.children = children at h
  induction children with
  | nil => exact absurd h List.not_mem_nil
  | cons first rest ih =>
    rw [countAll]
    rcases List.mem_cons.mp h with rfl | hrest
    · exact Nat.le_add_right _ _
    · exact Nat.le_trans (ih hrest) (Nat.le_add_left _ _)

/-- What holds of a node whenever it holds of its children holds of every node. -/
theorem induct {P : SyntaxNode → Prop}
    (step : ∀ node, (∀ child ∈ node.children, P child) → P node) (node : SyntaxNode) : P node :=
  step node fun child _ => induct step child
termination_by node.count
decreasing_by exact count_lt_of_mem_children ‹_›

theorem map_snd_outermostFrom (i : Nat) (nodes : List SyntaxNode) :
    (outermostFrom i nodes).map Prod.snd =
      nodes.flatMap fun node => node.outermost.map Prod.snd := by
  induction nodes generalizing i with
  | nil => simp [outermostFrom]
  | cons node nodes ih => simp [outermostFrom, ih, Function.comp_def]

/-- The walk with a stack finds what the recursion finds in one tree of the stack after the
    other. -/
theorem faultsOf_eq (stack : List SyntaxNode) :
    faultsOf stack = stack.flatMap fun node => node.outermost.map Prod.snd := by
  induction stack using faultsOf.induct with
  | case1 => simp [faultsOf]
  | case2 first stack hfault ih =>
    rw [faultsOf, if_pos hfault, ih, List.flatMap_cons, outermost_of_isFault hfault]
    rfl
  | case3 first stack hsound ih =>
    rw [faultsOf, if_neg hsound, ih, List.flatMap_append, List.flatMap_cons,
      outermost_of_not_isFault (by simpa using hsound), map_snd_outermostFrom]

theorem faults_eq (tree : SyntaxNode) : tree.faults = tree.outermost.map Prod.snd := by
  rw [faults, faultsOf_eq, List.flatMap_singleton]

/-! ## What the recursion finds -/

theorem mem_outermostFrom_iff :
    (place, found) ∈ outermostFrom i nodes ↔
      ∃ j node rest, nodes[j]? = some node ∧ place = (i + j) :: rest ∧
        (rest, found) ∈ node.outermost := by
  induction nodes generalizing i with
  | nil => simp [outermostFrom]
  | cons first nodes ih =>
    rw [outermostFrom, List.mem_append, List.mem_map, ih]
    constructor
    · rintro (⟨⟨rest, below⟩, hmem, heq⟩ | ⟨j, node, rest, hnode, rfl, hmem⟩)
      · cases heq
        exact ⟨0, first, rest, rfl, rfl, hmem⟩
      · exact ⟨j + 1, node, rest, hnode, by rw [Nat.add_assoc, Nat.add_comm 1 j], hmem⟩
    · rintro ⟨j, node, rest, hnode, rfl, hmem⟩
      cases j with
      | zero =>
        cases hnode
        exact .inl ⟨(rest, found), hmem, rfl⟩
      | succ j => exact .inr ⟨j, node, rest, hnode, by rw [Nat.add_assoc, Nat.add_comm 1 j], hmem⟩

/-- The recursion finds the nodes at the outermost places. -/
theorem mem_outermost_iff :
    (place, found) ∈ node.outermost ↔ node.IsOutermost place ∧ node.at? place = some found := by
  induction node using induct generalizing place with
  | step node ih =>
    cases hnode : node.isFault with
    | true =>
      rw [outermost_of_isFault hnode, List.mem_singleton]
      constructor
      · rintro ⟨⟩
        exact ⟨isOutermost_nil_iff.mpr hnode, rfl⟩
      · rintro ⟨hout, hat⟩
        cases place with
        | nil =>
          cases hat
          rfl
        | cons i rest =>
          rw [isOutermost_cons_iff, hnode] at hout
          exact absurd hout.1 (by simp)
    | false =>
      rw [outermost_of_not_isFault hnode, mem_outermostFrom_iff]
      constructor
      · rintro ⟨j, child, rest, hchild, rfl, hmem⟩
        rw [ih child (List.mem_of_getElem? hchild)] at hmem
        rw [Nat.zero_add, isOutermost_cons_iff, at?_cons_eq_some_iff]
        exact ⟨⟨hnode, child, hchild, hmem.1⟩, child, hchild, hmem.2⟩
      · rintro ⟨hout, hat⟩
        cases place with
        | nil =>
          rw [isOutermost_nil_iff, hnode] at hout
          exact absurd hout (by simp)
        | cons j rest =>
          obtain ⟨-, child, hchild, hout⟩ := isOutermost_cons_iff.mp hout
          obtain ⟨sibling, hsibling, hat⟩ := at?_cons_eq_some_iff.mp hat
          obtain rfl : child = sibling := Option.some.inj (hchild.symm.trans hsibling)
          refine ⟨j, child, rest, hchild, by rw [Nat.zero_add], ?_⟩
          exact (ih child (List.mem_of_getElem? hchild)).mpr ⟨hout, hat⟩

/-- Places that go on from one child are ordered as what they go on with is. -/
theorem pairwise_map_cons {places : List (List Nat × SyntaxNode)}
    (h : (places.map Prod.fst).Pairwise (· < ·)) :
    ((places.map fun found => (i :: found.1, found.2)).map Prod.fst).Pairwise (· < ·) := by
  rw [List.pairwise_map] at h
  rw [List.map_map, List.pairwise_map]
  exact h.imp fun hlt => List.cons_lt_cons_iff.mpr (.inr ⟨rfl, hlt⟩)

theorem pairwise_outermostFrom
    (h : ∀ node ∈ nodes, (node.outermost.map Prod.fst).Pairwise (· < ·)) :
    ((outermostFrom i nodes).map Prod.fst).Pairwise (· < ·) := by
  induction nodes generalizing i with
  | nil => simp [outermostFrom]
  | cons first nodes ih =>
    rw [outermostFrom, List.map_append, List.pairwise_append]
    refine ⟨pairwise_map_cons (h first List.mem_cons_self),
      ih fun node hnode => h node (List.mem_cons_of_mem _ hnode), ?_⟩
    intro earlier hearlier later hlater
    rw [List.map_map] at hearlier
    obtain ⟨below, -, rfl⟩ := List.mem_map.mp hearlier
    obtain ⟨⟨place, found⟩, hmem, rfl⟩ := List.mem_map.mp hlater
    obtain ⟨j, node, rest, -, rfl, -⟩ := mem_outermostFrom_iff.mp hmem
    exact List.cons_lt_cons_iff.mpr (.inl (by omega))

/-- The recursion finds nodes in the order of the text. -/
theorem pairwise_outermost (node : SyntaxNode) :
    (node.outermost.map Prod.fst).Pairwise (· < ·) := by
  induction node using induct with
  | step node ih =>
    cases hnode : node.isFault with
    | true =>
      rw [outermost_of_isFault hnode]
      exact List.pairwise_singleton _ _
    | false =>
      rw [outermost_of_not_isFault hnode]
      exact pairwise_outermostFrom ih

theorem outermost_eq_nil_iff :
    node.outermost = [] ↔ ∀ place found, node.at? place = some found → found.isFault = false := by
  constructor
  · intro hnil place found hat
    by_contra hfault
    obtain ⟨above, -, hout⟩ := exists_isOutermost hat (by simpa using hfault)
    obtain ⟨first, hfirst, -⟩ := hout.1
    have hmem := mem_outermost_iff.mpr ⟨hout, hfirst⟩
    rw [hnil] at hmem
    exact List.not_mem_nil hmem
  · intro hsound
    rw [List.eq_nil_iff_forall_not_mem]
    rintro ⟨place, found⟩ hmem
    obtain ⟨hout, hat⟩ := mem_outermost_iff.mp hmem
    obtain ⟨other, hother, hfault⟩ := hout.1
    rw [hsound place other hother] at hfault
    exact absurd hfault (by simp)

end SyntaxNode

/-! ## Reports -/

open SyntaxNode

/-- The kind of an issue tells a missing node from one that could not be read. -/
theorem SyntaxIssue.kind_ofNode (language : String) (node : SyntaxNode) :
    (SyntaxIssue.ofNode language node).kind = if node.isMissing then "missing" else "error" := by
  cases node
  rfl

/-- The issues of a report are those of the outermost faulty nodes, one for each place, in the
    order of the text. An issue is of the kind `missing` if its node is missing, and of the kind
    `error` otherwise. There are no issues just if no node of the whole tree is faulty. -/
theorem syntaxIssues_outermost (language : String) (tree : SyntaxNode) :
    (∃ places : List (List Nat),
      places.Pairwise (· < ·) ∧ (∀ place, place ∈ places ↔ tree.IsOutermost place) ∧
        List.Forall₂
          (fun place issue => ∃ node, tree.at? place = some node ∧
            issue = SyntaxIssue.ofNode language node ∧
            (issue.kind = "missing" ↔ node.isMissing = true) ∧
            (issue.kind = "error" ↔ node.isMissing = false))
          places (syntaxIssues language tree)) ∧
      ((syntaxIssues language tree).isEmpty = true ↔
        ∀ place node, tree.at? place = some node → node.isFault = false) := by
  have hissues : syntaxIssues language tree =
      tree.outermost.map fun found => SyntaxIssue.ofNode language found.2 := by
    rw [syntaxIssues, faults_eq, List.map_map]
    rfl
  refine ⟨⟨tree.outermost.map Prod.fst, pairwise_outermost tree, fun place => ?_, ?_⟩, ?_⟩
  · rw [List.mem_map]
    constructor
    · rintro ⟨⟨_, found⟩, hmem, rfl⟩
      exact (mem_outermost_iff.mp hmem).1
    · intro hout
      obtain ⟨found, hat, -⟩ := hout.1
      exact ⟨(place, found), mem_outermost_iff.mpr ⟨hout, hat⟩, rfl⟩
  · rw [hissues, List.forall₂_map_left_iff, List.forall₂_map_right_iff, List.forall₂_same]
    rintro ⟨place, found⟩ hmem
    refine ⟨found, (mem_outermost_iff.mp hmem).2, rfl, ?_⟩
    rw [SyntaxIssue.kind_ofNode]
    cases found.isMissing <;> simp
  · rw [hissues, List.isEmpty_iff, List.map_eq_nil_iff, outermost_eq_nil_iff]

/-- A missing node below one that could not be read is not reported, one beside it is. -/
example :
    syntaxIssues "python"
      (.node "module" 0 0 false []
        [.node "ERROR" 1 4 false [40, 58] [.node ")" 1 6 true [] []],
          .node "block" 2 0 false [] [.node ")" 2 0 true [] []]]) =
      [⟨2, 4, "error", "(:"⟩, ⟨3, 0, "missing", ""⟩] := by
  rw [syntaxIssues, faults_eq]
  decide

end BlockScript
