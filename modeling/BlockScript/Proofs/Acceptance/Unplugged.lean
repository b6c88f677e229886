import Mathlib.Data.List.Permutation
import BlockScript.Proofs.Acceptance.Program
import BlockScript.Proofs.Graph.Walk
import BlockScript.Proofs.Recipe.Arms

/-!
# Unplugging blocks

Blocks are unplugged from a workspace by emptying or deleting sockets and by cutting
links to the block below. Whatever is unplugged, and at however many places, a workspace
that can be rendered stays one that can be rendered: no block needs a socket that it did
not need before, a place holds what it held or nothing, and a chain is cut short.

Definitions:

* `Unplugging`: what is unplugged, anywhere in a graph.
* `Workspace.unplug`: the workspace that is left.

Results:

* `Workspace.accepted_unplug`: the check still passes.
* `generate_unplug`: a workspace that has a program has one after unplugging.
-/

namespace BlockScript

open Relation

/-! ## What is unplugged -/

/-- What becomes of a socket. -/
inductive SocketFate where
  | kept
  | emptied
  | deleted
  deriving DecidableEq, Repr

/-- What becomes of the sockets of every block, and which blocks lose the block below. -/
structure Unplugging where
  value : Ref → String → SocketFate := fun _ _ => .kept
  statement : Ref → String → SocketFate := fun _ _ => .kept
  cut : Ref → Bool := fun _ => false

section Sockets

variable {σ : Type} (fate : String → SocketFate)

/-- What is left of a socket. -/
def SocketFate.apply (socket : String × Option σ) : SocketFate → Option (String × Option σ)
  | .kept => some socket
  | .emptied => some (socket.1, none)
  | .deleted => none

/-- What is left of the sockets of a block. -/
def unplugSockets (sockets : List (String × Option σ)) : List (String × Option σ) :=
  sockets.filterMap fun socket => (fate socket.1).apply socket

theorem find?_unplugSockets (sockets : List (String × Option σ)) (name : String) :
    Json.find? (unplugSockets fate sockets) name =
      (Json.find? sockets name).bind fun plug => ((fate name).apply (name, plug)).map Prod.snd := by
  induction sockets with
  | nil => rfl
  | cons socket sockets ih =>
    have hrest : unplugSockets fate (socket :: sockets) =
        ((fate socket.1).apply socket).toList ++ unplugSockets fate sockets := by
      unfold unplugSockets
      rw [List.filterMap_cons]
      cases (fate socket.1).apply socket <;> rfl
    rw [hrest]
    by_cases hname : socket.1 = name
    · have hhere : Json.find? (socket :: sockets) name = some socket.2 := by
        simp [Json.find?, hname]
      rw [hhere, hname]
      cases hfate : fate name with
      | kept => simp [SocketFate.apply, Json.find?, hname]
      | emptied => simp [SocketFate.apply, Json.find?, hname]
      | deleted =>
        -- A deleted socket leaves no second one of its name.
        rw [hfate] at ih
        exact ih.trans (by cases Json.find? sockets name <;> rfl)
    · have hthere : Json.find? (socket :: sockets) name = Json.find? sockets name := by
        simp [Json.find?, hname]
      rw [hthere, ← ih]
      cases hfate : fate socket.1 <;> simp [SocketFate.apply, Json.find?, hname]

/-- A socket that is left was there, and holds what it held or nothing. -/
theorem of_find?_unplugSockets {sockets : List (String × Option σ)} {name : String}
    {plug : Option σ} (h : Json.find? (unplugSockets fate sockets) name = some plug) :
    ∃ before, Json.find? sockets name = some before ∧ (plug = before ∨ plug = none) := by
  rw [find?_unplugSockets] at h
  obtain ⟨before, hbefore, hplug⟩ := Option.bind_eq_some_iff.mp h
  refine ⟨before, hbefore, ?_⟩
  cases hfate : fate name <;> rw [hfate] at hplug <;> cases hplug
  · exact .inl rfl
  · exact .inr rfl

/-- What the sockets that are left hold was held before. -/
theorem mem_of_unplugSockets {sockets : List (String × Option σ)} {target : σ}
    (h : target ∈ (unplugSockets fate sockets).filterMap Prod.snd) :
    target ∈ sockets.filterMap Prod.snd := by
  obtain ⟨left, hleft, htarget⟩ := List.mem_filterMap.mp h
  obtain ⟨socket, hsocket, hfate⟩ := List.mem_filterMap.mp hleft
  refine List.mem_filterMap.mpr ⟨socket, hsocket, ?_⟩
  cases hdone : fate socket.1 <;> rw [hdone] at hfate <;> cases hfate
  · exact htarget
  · cases htarget

end Sockets

namespace Unplugging

variable (unplugging : Unplugging)

/-- What is left of a block. -/
def block (ref : Ref) (block : Block Ref) : Block Ref :=
  { block with
    values := unplugSockets (unplugging.value ref) block.values
    statements := unplugSockets (unplugging.statement ref) block.statements
    next := if unplugging.cut ref then none else block.next }

/-- What is left of a graph. -/
def graph (graph : Graph) : Graph :=
  ⟨graph.blocks.mapIdx unplugging.block⟩

end Unplugging

/-- What is left of a workspace. -/
def Workspace.unplug (workspace : Workspace) (unplugging : Unplugging) : Workspace :=
  { workspace with graph := unplugging.graph workspace.graph }

/-! ## Blocks -/

namespace Unplugging

variable {unplugging : Unplugging} {ref target : Ref} {block : Block Ref} {socket : String}

/-- What is plugged into a block was plugged in before. -/
theorem links_subset : (unplugging.block ref block).links ⊆ block.links := by
  intro target htarget
  rcases List.mem_append.mp htarget with hchild | hnext
  · refine List.mem_append_left _ ?_
    rcases List.mem_append.mp hchild with hvalue | hstatement
    · exact List.mem_append_left _ (mem_of_unplugSockets _ hvalue)
    · exact List.mem_append_right _ (mem_of_unplugSockets _ hstatement)
  · refine List.mem_append_right _ ?_
    dsimp only [Unplugging.block] at hnext
    split at hnext
    · cases hnext
    · exact hnext

/-- A value socket holds what it held or nothing. -/
theorem valueInput_eq (unplugging : Unplugging) (ref : Ref) (block : Block Ref) (socket : String) :
    (unplugging.block ref block).valueInput socket = block.valueInput socket ∨
      (unplugging.block ref block).valueInput socket = none := by
  unfold Block.valueInput Unplugging.block
  cases hfind : Json.find? (unplugSockets (unplugging.value ref) block.values) socket with
  | none => exact .inr rfl
  | some plug =>
    obtain ⟨before, hbefore, rfl | rfl⟩ := of_find?_unplugSockets _ hfind
    · exact .inl (by rw [hbefore])
    · exact .inr rfl

/-- A statement socket holds what it held or nothing. -/
theorem statementInput_eq (unplugging : Unplugging) (ref : Ref) (block : Block Ref)
    (socket : String) :
    (unplugging.block ref block).statementInput socket = block.statementInput socket ∨
      (unplugging.block ref block).statementInput socket = none := by
  unfold Block.statementInput Unplugging.block
  cases hfind : Json.find? (unplugSockets (unplugging.statement ref) block.statements) socket with
  | none => exact .inr rfl
  | some plug =>
    obtain ⟨before, hbefore, rfl | rfl⟩ := of_find?_unplugSockets _ hfind
    · exact .inl (by rw [hbefore])
    · exact .inr rfl

/-- A socket that is left was there. -/
theorem hasInput_of_unplugged (h : (unplugging.block ref block).hasInput socket = true) :
    block.hasInput socket = true := by
  have hleft : ∀ {fate : String → SocketFate} {sockets : List (String × Option Ref)},
      (Json.find? (unplugSockets fate sockets) socket).isSome = true →
        (Json.find? sockets socket).isSome = true := by
    intro fate sockets hsome
    obtain ⟨plug, hplug⟩ := Option.isSome_iff_exists.mp hsome
    obtain ⟨before, hbefore, -⟩ := of_find?_unplugSockets fate hplug
    rw [hbefore]
    rfl
  unfold Block.hasInput at h ⊢
  rw [Bool.or_eq_true] at h ⊢
  exact h.imp hleft hleft

/-- A conditional has no arm that it did not have. -/
theorem arms_subset : Recipe.arms (unplugging.block ref block) ⊆ Recipe.arms block := by
  obtain ⟨left, hleft, hinputs, -⟩ := Recipe.arms_spec (unplugging.block ref block)
  obtain ⟨count, hcount, -, hend⟩ := Recipe.arms_spec block
  have hle : left ≤ count := by
    by_contra hmore
    have hinput := hasInput_of_unplugged (hinputs (count + 1) (by omega) (by omega))
    rw [hend] at hinput
    cases hinput
  rw [hleft, hcount]
  exact List.range_subset.mpr (by omega)

/-- A block needs no socket that it did not need. -/
theorem sockets?_unplugged (unplugging : Unplugging) (ref : Ref) {form : BlockForm} {sockets : Sockets}
    (h : form.sockets? block = some sockets) :
    ∃ left, form.sockets? (unplugging.block ref block) = some left ∧
      left.values ⊆ sockets.values ∧ left.bodies ⊆ sockets.bodies := by
  by_cases hform : form = .conditional
  · subst hform
    cases h
    refine ⟨_, rfl, List.map_subset _ arms_subset, ?_⟩
    exact List.append_subset_of_subset_of_subset
      (List.Subset.trans (List.map_subset _ arms_subset) (List.subset_append_left _ _))
      (List.subset_append_right _ _)
  · -- The fields and the parameters tell the sockets of all other blocks.
    have hsame : form.sockets? (unplugging.block ref block) = form.sockets? block := by
      cases form with
      | conditional => exact absurd rfl hform
      | _ => rfl
    exact ⟨sockets, hsame.trans h, List.Subset.refl _, List.Subset.refl _⟩

/-! ## Graphs -/

variable {graph : Graph}

theorem block?_graph :
    (unplugging.graph graph).block? ref = (graph.block? ref).map (unplugging.block ref) := by
  simp only [Unplugging.graph, Graph.block?, Array.getElem?_mapIdx]

theorem size_graph : (unplugging.graph graph).size = graph.size := by
  simp only [Unplugging.graph, Graph.size, Array.size_mapIdx]

theorem links_of_graph (h : (unplugging.graph graph).Links ref target) :
    graph.Links ref target := by
  obtain ⟨left, hleft, htarget⟩ := Graph.links_iff.mp h
  rw [block?_graph] at hleft
  obtain ⟨block, hblock, rfl⟩ := Option.map_eq_some_iff.mp hleft
  exact Graph.links_iff.mpr ⟨block, hblock, links_subset htarget⟩

theorem stored_of_graph (h : (unplugging.graph graph).Stored ref) : graph.Stored ref := by
  obtain ⟨left, hleft⟩ := h
  rw [block?_graph] at hleft
  obtain ⟨block, hblock, -⟩ := Option.map_eq_some_iff.mp hleft
  exact ⟨block, hblock⟩

/-- A chain that ends is cut short, and still ends. -/
theorem chainFrom_graph (unplugging : Unplugging) {seen : List Ref} {place : Option Ref}
    (h : (graph.chainFrom seen place).2 = none) :
    ((unplugging.graph graph).chainFrom seen place).2 = none ∧
      ((unplugging.graph graph).chainFrom seen place).1 <+: (graph.chainFrom seen place).1 := by
  induction seen, place using Graph.chainFrom.induct graph with
  | case1 seen => simp [Graph.chainFrom]
  | case2 seen ref hseen =>
    rw [Graph.chainFrom_of_seen hseen] at h
    cases h
  | case3 seen ref hnew hnone =>
    have hleft : (unplugging.graph graph).block? ref = none := by rw [block?_graph, hnone]; rfl
    rw [Graph.chainFrom_of_none hnew hleft]
    exact ⟨rfl, List.nil_prefix⟩
  | case4 seen ref hnew block hblock _ _ _ ih =>
    have hleft : (unplugging.graph graph).block? ref = some (unplugging.block ref block) := by
      rw [block?_graph, hblock]
      rfl
    rw [Graph.chainFrom_of_some hnew hblock] at h ⊢
    rw [Graph.chainFrom_of_some hnew hleft]
    cases hcut : unplugging.cut ref with
    | true =>
      have hnext : (unplugging.block ref block).next = none := if_pos hcut
      rw [hnext]
      simp [Graph.chainFrom]
    | false =>
      have hnext : (unplugging.block ref block).next = block.next :=
        if_neg (by rw [hcut]; exact Bool.false_ne_true)
      rw [hnext]
      obtain ⟨hends, hshorter⟩ := ih h
      exact ⟨hends, List.cons_prefix_cons.mpr ⟨rfl, hshorter⟩⟩

end Unplugging

/-! ## The check -/

namespace Workspace

variable {workspace : Workspace} {unplugging : Unplugging} {maxDepth : Int} {ref : Ref}

section Places

variable {shape left : Ref → Option Shape}
  (hshape : ∀ ref known, shape ref = some known → left ref = some known)

include hshape

theorem any_of_shape {fits : Shape → Bool} (h : (shape ref).any fits = true) :
    (left ref).any fits = true := by
  obtain ⟨known, hknown, hfits⟩ := (Option.any_eq_true ..).mp h
  exact (Option.any_eq_true ..).mpr ⟨known, hshape ref known hknown, hfits⟩

/-- A place that holds a chain of statements holds one after unplugging. -/
theorem holdsChain_unplug {place : Option Ref} (h : workspace.holdsChain shape place = true) :
    (workspace.unplug unplugging).holdsChain left place = true := by
  simp only [holdsChain, Bool.and_eq_true, List.all_eq_true, Option.isNone_iff_eq_none] at h ⊢
  obtain ⟨hends, hshorter⟩ := Unplugging.chainFrom_graph unplugging h.1
  exact ⟨hends, fun ref hmem => any_of_shape hshape (h.2 ref (hshorter.subset hmem))⟩

/-- A place that holds code holds code after unplugging. -/
theorem holdsCode_unplug {place : Option Ref} (h : workspace.holdsCode shape place = true) :
    (workspace.unplug unplugging).holdsCode left place = true := by
  unfold holdsCode at h ⊢
  rw [Bool.or_eq_true] at h ⊢
  refine h.imp (fun hvalue => ?_) (holdsChain_unplug hshape)
  obtain ⟨ref, rfl, hknown⟩ := Option.bind_eq_some_iff.mp (of_decide_eq_true hvalue)
  exact decide_eq_true (hshape ref .value hknown)

/-- The sockets that a block still needs can be rendered. -/
theorem fillsSockets_unplug {block : Block Ref} {sockets needed : Sockets}
    (hvalues : needed.values ⊆ sockets.values) (hbodies : needed.bodies ⊆ sockets.bodies)
    (h : workspace.fillsSockets shape block sockets = true) :
    (workspace.unplug unplugging).fillsSockets left (unplugging.block ref block) needed = true := by
  simp only [fillsSockets, Bool.and_eq_true, List.all_eq_true] at h ⊢
  refine ⟨fun socket hsocket => ?_, fun socket hsocket => ?_⟩
  · have hbefore := h.1 socket (hvalues hsocket)
    unfold fillsValue at hbefore ⊢
    rcases Unplugging.valueInput_eq unplugging ref block socket with heq | hnone
    · rw [heq]
      cases hinput : block.valueInput socket with
      | none => rfl
      | some target =>
        rw [hinput] at hbefore
        exact any_of_shape hshape hbefore
    · rw [hnone]
      rfl
  · have hbefore := h.2 socket (hbodies hsocket)
    rcases Unplugging.statementInput_eq unplugging ref block socket with heq | hnone
    · rw [heq]
      exact holdsChain_unplug hshape hbefore
    · rw [hnone]
      exact holdsChain_none _ _

end Places

/-- A block that is accepted is still accepted, with the same shape. -/
theorem shapeWithin_unplug {room : Nat} {nest : List Ref} {known : Shape}
    (h : workspace.shapeWithin maxDepth room nest ref = some known) :
    (workspace.unplug unplugging).shapeWithin maxDepth room nest ref = some known := by
  induction room generalizing nest ref known with
  | zero => cases h
  | succ room ih =>
    unfold shapeWithin at h ⊢
    rw [unplug, Unplugging.block?_graph]
    cases hblock : workspace.graph.block? ref with
    | none =>
      rw [hblock] at h
      exact h
    | some block =>
      rw [hblock] at h
      dsimp only [Option.map_some] at h ⊢
      have henabled : (unplugging.block ref block).enabled = block.enabled := rfl
      have htype : (unplugging.block ref block).type = block.type := rfl
      rw [henabled, htype]
      split at h
      · rw [if_pos ‹_›]
        exact h
      · rw [if_neg ‹_›]
        split at h
        · cases h
        · rw [if_neg ‹_›]
          obtain ⟨form, hform, rfl⟩ := Option.map_eq_some_iff.mp h
          obtain ⟨htype, hfills⟩ := Option.filter_eq_some_iff.mp hform
          refine Option.map_eq_some_iff.mpr ⟨form, ?_, rfl⟩
          refine Option.filter_eq_some_iff.mpr ⟨htype, ?_⟩
          obtain ⟨sockets, hsockets, hfills⟩ := (Option.any_eq_true ..).mp hfills
          obtain ⟨needed, hneeded, hvalues, hbodies⟩ :=
            Unplugging.sockets?_unplugged unplugging ref hsockets
          exact (Option.any_eq_true ..).mpr ⟨needed, hneeded,
            fillsSockets_unplug (fun _ _ => ih) hvalues hbodies hfills⟩

/-! ## Names -/

/-- The used variables can be told just if the parameters of every block are a list. -/
theorem isOk_usedVariables_iff : workspace.usedVariables.isOk = true ↔
    ∀ ref ∈ workspace.allBlocks, ∀ block, workspace.graph.block? ref = some block →
      (variablesOf block).isOk = true := by
  unfold usedVariables
  generalize workspace.declaredVariables.foldl addName [] = known
  induction workspace.allBlocks generalizing known with
  | nil => exact iff_of_true rfl nofun
  | cons ref refs ih =>
    unfold addVariables
    rw [List.forall_mem_cons]
    cases hblock : workspace.graph.block? ref with
    | none => exact (ih known).trans (by simp)
    | some block =>
      dsimp only
      cases hnames : variablesOf block with
      | error kind =>
        refine iff_of_false nofun fun h => ?_
        have hok := h.1 block rfl
        rw [hnames] at hok
        cases hok
      | ok names =>
        have hfirst : ∀ other, some block = some other → (variablesOf other).isOk = true := by
          rintro other ⟨⟩
          rw [hnames]
          rfl
        exact (ih _).trans (and_iff_right hfirst).symm

/-- All blocks that are left were there. -/
theorem allBlocks_unplug_subset : (workspace.unplug unplugging).allBlocks ⊆ workspace.allBlocks := by
  intro ref hmem
  obtain ⟨hstored, top, htop, hreach⟩ := mem_allBlocks_iff.mp hmem
  exact mem_allBlocks_iff.mpr ⟨Unplugging.stored_of_graph hstored, top, htop,
    hreach.lift id fun _ _ => Unplugging.links_of_graph⟩

/-- Names that can be reserved can still be reserved. -/
theorem namesAccepted_unplug (h : workspace.namesAccepted = true) :
    (workspace.unplug unplugging).namesAccepted = true := by
  simp only [namesAccepted, Bool.and_eq_true, isOk_usedVariables_iff, List.all_eq_true,
    List.mem_filterMap] at h ⊢
  obtain ⟨hparams, hnames⟩ := h
  refine ⟨fun ref hmem left hleft => ?_, ?_⟩
  · rw [unplug, Unplugging.block?_graph] at hleft
    obtain ⟨block, hblock, rfl⟩ := Option.map_eq_some_iff.mp hleft
    exact hparams ref (allBlocks_unplug_subset hmem) block hblock
  · rintro name ⟨ref, hmem, hname⟩
    obtain ⟨left, hleft, hname⟩ := Option.bind_eq_some_iff.mp hname
    rw [unplug, Unplugging.block?_graph] at hleft
    obtain ⟨block, hblock, rfl⟩ := Option.map_eq_some_iff.mp hleft
    refine hnames name ⟨ref, allBlocks_unplug_subset hmem, ?_⟩
    rw [hblock]
    exact hname

/-- A workspace that passes the check passes it after unplugging. -/
theorem accepted_unplug (unplugging : Unplugging) (h : workspace.accepted maxDepth = true) :
    (workspace.unplug unplugging).accepted maxDepth = true := by
  simp only [accepted, Bool.and_eq_true, List.all_eq_true] at h ⊢
  refine ⟨namesAccepted_unplug h.1, fun ref hmem => ?_⟩
  refine holdsCode_unplug (fun ref known hknown => ?_) (h.2 ref hmem)
  unfold shape at hknown ⊢
  rw [show (workspace.unplug unplugging).graph.size = workspace.graph.size from
    Unplugging.size_graph]
  exact shapeWithin_unplug hknown

end Workspace

/-! ## Programs -/

variable {language : Language} {config : Config} {workspace : Workspace}

/-- Unplugging never makes rendering fail: a workspace that has a program has one after
    any sockets have been emptied or deleted and any links to the block below cut. -/
theorem generate_unplug (unplugging : Unplugging) {program : Scene.Program}
    (h : (generate language config workspace).1 = .ok program) :
    ∃ left, (generate language config (workspace.unplug unplugging)).1 = .ok left := by
  have haccepted : workspace.accepted config.maxDepth = true :=
    (generate_isOk_iff language config workspace).mp (by rw [h]; rfl)
  have hok := (generate_isOk_iff language config _).mpr
    (Workspace.accepted_unplug unplugging haccepted)
  cases hrun : (generate language config (workspace.unplug unplugging)).1 with
  | ok left => exact ⟨left, rfl⟩
  | error failure =>
    rw [hrun] at hok
    cases hok

/-! ### A conditional above a loop -/

/-- A conditional with two arms, above a loop that is also the body of its first arm. -/
def twoArms : Workspace where
  tops := [3]
  graph := ⟨#[Block.ofType "logic_boolean",
    { Block.ofType "controls_flow_statements" with fields := [("FLOW", .text "BREAK")] },
    { (Block.ofType "controls_whileUntil" : Block Ref) with
      values := [("BOOL", some 0)], statements := [("DO", some 1)] },
    { (Block.ofType "controls_if" : Block Ref) with
      values := [("IF0", some 0), ("IF1", some 0)], statements := [("DO0", some 2)]
      next := some 2 }]⟩

theorem accepted_twoArms : twoArms.accepted 100 = true := by
  have hall : twoArms.allBlocks = [3, 0, 2, 1] := by cbv
  have hnames : twoArms.namesAccepted = true := by
    unfold Workspace.namesAccepted Workspace.usedVariables
    rw [hall]
    rfl
  rw [Workspace.accepted, hnames]
  decide +kernel

/-- The second condition is deleted, the bodies are emptied and the loop is cut off. -/
def oneArmLeft : Unplugging where
  value := fun _ socket => if socket = "IF1" then .deleted else .kept
  statement := fun _ _ => .emptied
  cut := fun ref => ref == 3

theorem generate_unplug_twoArms : ∃ program, (generate .lua {} twoArms).1 = .ok program ∧
    ∃ left, (generate .lua {} (twoArms.unplug oneArmLeft)).1 = .ok left := by
  have hok := (generate_isOk_iff .lua {} twoArms).mpr accepted_twoArms
  cases hrun : (generate .lua {} twoArms).1 with
  | ok program => exact ⟨program, rfl, generate_unplug oneArmLeft hrun⟩
  | error failure =>
    rw [hrun] at hok
    cases hok

end BlockScript
