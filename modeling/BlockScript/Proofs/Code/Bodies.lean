import BlockScript.Proofs.Code.Labels
import BlockScript.Proofs.Code.Writing
import BlockScript.Proofs.Graph.Links
import BlockScript.Proofs.Pass.Rounds

/-!
# Bodies

The text of a chain of statements is the code of the parts of its blocks, one after
the other, if every single block renders to the code of its parts. A jump to the
next round of a loop is noted, and only loops that are noted have a label.

Results:

* `Scene.Speaks.body_written`, `Scene.Speaks.loopBody_written`: the text of a
  statement socket, also inside a loop.
-/

namespace BlockScript

open BlockScript.Text

/-! ## Jumps to the next round -/

namespace Layout

@[simp]
theorem continues_nil : continues .nil = false := rfl

@[simp]
theorem continues_append (a b : Layout) : continues (a ++ b) = (continues a || continues b) := by
  induction a with
  | nil => rfl
  | line part inside rest _ ih =>
    obtain ⟨role, ref⟩ := part
    rw [Outline.line_append]
    cases role with
    | jump flow => cases flow <;> simp [continues, ih, Bool.or_assoc]
    | _ => simp [continues, ih, Bool.or_assoc]

@[simp]
theorem continues_single_jump (flow : FlowStatement) (ref : Ref) :
    continues (.single (.jump flow, ref)) = decide (flow = .continue) := by
  cases flow <;> rfl

@[simp]
theorem continues_block_branch (arm : Nat) (socket : String) (ref : Ref) (inside : Layout) :
    continues (.block (.branch arm socket, ref) inside) = inside.continues := by
  simp [Outline.block, continues]

@[simp]
theorem continues_block_otherwise (ref : Ref) (inside : Layout) :
    continues (.block (.otherwise, ref) inside) = inside.continues := by
  simp [Outline.block, continues]

@[simp]
theorem continues_loop (ref : Ref) (inside rest : Layout) :
    continues (.line (.loop, ref) inside rest) = continues rest := rfl

/-- A single part other than a jump to the next round. -/
theorem continues_single {role : Role} (ref : Ref) (h : role ≠ .jump .continue) :
    continues (.single (role, ref)) = false := by
  cases role with
  | jump flow =>
    cases flow with
    | «break» => rfl
    | «continue» => exact absurd rfl h
  | _ => rfl

theorem continues_piece {role : Role} (ref : Ref) (text : String) (h : role ≠ .jump .continue) :
    continues (Scene.piece role ref text) = false := by
  unfold Scene.piece
  split
  · rfl
  · exact continues_single ref h

end Layout

namespace Scene

variable {scene : Scene} {language : Language} {ref : Ref} {block : Block Ref} {room : Nat}
  {loop : Option Ref} {text text' : String} {parts parts' : Layout} {s t u : PassState}

@[simp]
theorem continues_comments : (scene.comments ref).continues = false :=
  Layout.continues_piece _ _ (by simp)

@[simp]
theorem continues_opening : (scene.opening ref block).continues = false :=
  Layout.continues_piece _ _ (by simp)

@[simp]
theorem continues_closing : (scene.closing ref block).continues = false :=
  Layout.continues_piece _ _ (by simp)

@[simp]
theorem continues_trapping : (scene.trapping ref block).continues = false :=
  Layout.continues_piece _ _ (by simp)

@[simp]
theorem continues_closer : (scene.closer ref).continues = false :=
  Layout.continues_piece _ _ (by simp)

@[simp]
theorem continues_reopening : (scene.reopening loop).continues = false := by
  unfold reopening
  split
  · rfl
  · split
    · rfl
    · split
      · rfl
      · split
        · rfl
        · simp

@[simp]
theorem continues_fill (parts : Layout) : (scene.fill ref parts).continues = parts.continues := by
  cases parts with
  | nil =>
    unfold fill
    cases scene.dialect.emptyBody <;> rfl
  | line part inside rest => rfl

/-- Whether labels close the bodies of noted loops only, and of all that have a jump to
    their next round, where the language has labels for that. -/
abbrev LabelledFor (scene : Scene) (noted : List Ref) (parts : Layout) : Prop :=
  parts.Labelled (· ∈ noted)
    fun loop => scene.dialect.continueLabel.isSome = true ∧ scene.Continues loop

/-- Whether a text is the code of parts with the labels that they need, and the loop
    around them is noted in a state if there is a jump to its next round. -/
structure Written (scene : Scene) (text : String) (parts : Layout) (loop : Option Ref)
    (state : PassState) : Prop where
  code : scene.IsCode text parts
  continued (hcontinues : parts.continues = true)
    (hlabel : scene.dialect.continueLabel.isSome = true) (around : Ref) (hloop : loop = some around) :
    around ∈ state.continued
  labelled : scene.LabelledFor state.continued parts

/-- Code without a jump to the next round. -/
theorem written_of_code (h : scene.IsCode text parts) (hno : parts.continues = false)
    (hlabelled : scene.LabelledFor s.continued parts) : scene.Written text parts loop s :=
  ⟨h, fun hyes => absurd (hno.symm.trans hyes) Bool.false_ne_true, hlabelled⟩

theorem LabelledFor.mono {noted more : List Ref} (h : scene.LabelledFor noted parts)
    (hmore : noted ⊆ more) : scene.LabelledFor more parts :=
  Layout.Labelled.mono h (fun _ hmem => hmore hmem) fun _ hmust => hmust

theorem Written.later (h : scene.Written text parts loop s) (hlater : s.continued ⊆ t.continued) :
    scene.Written text parts loop t :=
  ⟨h.code, fun hcontinues hlabel around hloop => hlater (h.continued hcontinues hlabel around hloop),
    LabelledFor.mono h.labelled hlater⟩

theorem Written.append (h : scene.Written text parts loop s)
    (h' : scene.Written text' parts' loop s) :
    scene.Written (text ++ text') (parts ++ parts') loop s := by
  refine ⟨h.code.append h'.code, fun hcontinues hlabel around hloop => ?_,
    Layout.labelled_append.mpr ⟨h.labelled, h'.labelled⟩⟩
  rw [Layout.continues_append, Bool.or_eq_true] at hcontinues
  rcases hcontinues with hfirst | hsecond
  · exact h.continued hfirst hlabel around hloop
  · exact h'.continued hsecond hlabel around hloop

/-! ## Chains -/

/-- Whether every block that renders to a text renders to the code of its parts. -/
def LaysOut (scene : Scene) (one : Ref → Pass Rendered) (parts : Option Ref → Ref → Layout → Prop) :
    Prop :=
  ∀ ref text s t, s.Named scene.dialect.policy → one ref s = (.ok (.text text), t) →
    ∃ layout, parts s.loops.head? ref layout ∧ scene.Written text layout s.loops.head? t

variable {lays : Option Ref → Ref → Layout → Prop}

namespace Speaks

variable (h : scene.Speaks language)
include h

/-- What renders to a text is no value. -/
theorem holdsValue_of_text (hs : s.Named scene.dialect.policy)
    (hrun : scene.renderWithin room ref s = (.ok (.text text), t)) :
    scene.holdsValue ref = false :=
  h.phrased.allRender t room ref _ s t hs hrun ⟨id, id⟩

omit h in
/-- The texts of the blocks of a chain. -/
theorem chainText_written (hone : scene.LaysOut (scene.renderWithin room) lays)
    {refs : List Ref} (hs : s.Named scene.dialect.policy)
    (hrun : scene.chainText (scene.renderWithin room) refs s = (.ok text, t)) :
    ∃ layout, ChainParts lays s.loops.head? refs layout ∧
      scene.Written text layout s.loops.head? t := by
  induction refs generalizing s text with
  | nil =>
    obtain ⟨rfl, rfl⟩ := Pass.pure_eq_ok hrun
    exact ⟨.nil, rfl, written_of_code isCode_nil rfl .nil⟩
  | cons ref refs ih =>
    obtain ⟨rendered, u, hfirst, hrest⟩ := Pass.bind_eq_ok hrun
    cases rendered with
    | value code tier => cases hrest
    | text first =>
      obtain ⟨rest, v, htail, hdone⟩ := Pass.bind_eq_ok hrest
      obtain ⟨rfl, rfl⟩ := Pass.pure_eq_ok hdone
      have hlater : Later scene.dialect.policy s u := Kept.of_run ((later_kept scene).renderWithin room ref) hfirst
      obtain ⟨layout, hlayout, hwritten⟩ := hone ref first s u hs hfirst
      obtain ⟨others, hothers, hwritten'⟩ := ih (hlater.names.named hs) htail
      rw [hlater.loops] at hothers hwritten'
      have hmore : Later scene.dialect.policy u t :=
        Kept.of_run ((later_kept scene).chainText ((later_kept scene).renderWithin room) refs) htail
      exact ⟨layout ++ others, ⟨layout, others, hlayout, hothers, rfl⟩,
        (hwritten.later hmore.continued).append hwritten'⟩

/-- A place that renders to a text renders to that of its chain. -/
theorem chainText_of_placeCode {place : Option Ref} (hs : s.Named scene.dialect.policy)
    (hrun : scene.placeCode (scene.renderWithin room) place s = (.ok (.text text), t)) :
    scene.chainText (scene.renderWithin room) (scene.graph.chainFrom [] place).1 s =
      (.ok text, t) := by
  cases place with
  | none =>
    obtain ⟨htext, rfl⟩ := Pass.pure_eq_ok hrun
    cases htext
    rw [Graph.chainFrom]
    rfl
  | some head =>
    have hchain : ∀ {u : PassState}, (scene.chainCode (scene.renderWithin room) head >>= fun code =>
        (pure (.text code) : Pass Rendered)) s = (.ok (.text text), u) →
        scene.chainText (scene.renderWithin room) (scene.graph.chainFrom [] (some head)).1 s =
          (.ok text, u) := by
      intro u hchain
      obtain ⟨code, v, hcode, hdone⟩ := Pass.bind_eq_ok hchain
      obtain ⟨htext, rfl⟩ := Pass.pure_eq_ok hdone
      cases htext
      obtain ⟨code', w, hcode', hrepeated⟩ := Pass.bind_eq_ok hcode
      cases hend : (scene.graph.chainFrom [] (some head)).2 with
      | none =>
        rw [hend] at hrepeated
        obtain ⟨rfl, rfl⟩ := Pass.pure_eq_ok hrepeated
        exact hcode'
      | some repeated =>
        rw [hend] at hrepeated
        cases hrepeated
    unfold placeCode at hrun
    dsimp only at hrun
    cases hblock : scene.graph.block? head with
    | none =>
      rw [hblock] at hrun
      obtain ⟨htext, rfl⟩ := Pass.pure_eq_ok hrun
      cases htext
      rw [Graph.chainFrom_of_none List.not_mem_nil hblock]
      rfl
    | some block =>
      rw [hblock] at hrun
      dsimp only at hrun
      split at hrun
      · next henabled =>
        obtain ⟨rule, u, hrule, hrest⟩ := Pass.bind_eq_ok hrun
        obtain ⟨hlookup, rfl⟩ := Pass.ofExcept_eq_ok hrule
        split at hrest
        · next hvalue =>
          have hno := h.holdsValue_of_text hs hrest
          have hfind := RuleTable.find?_of_lookup hlookup
          simp [holdsValue, hblock, henabled, hfind, hvalue] at hno
        · exact hchain hrest
      · exact hchain hrun

/-- The text of the chain at a place. -/
theorem placeCode_written (hone : scene.LaysOut (scene.renderWithin room) lays)
    {place : Option Ref}
    (hs : s.Named scene.dialect.policy)
    (hrun : scene.placeCode (scene.renderWithin room) place s = (.ok (.text text), t)) :
    ∃ layout, ChainParts lays s.loops.head? (scene.graph.chainFrom [] place).1 layout ∧
      scene.Written text layout s.loops.head? t :=
  chainText_written hone hs (h.chainText_of_placeCode hs hrun)

theorem bodyText_written (hone : scene.LaysOut (scene.renderWithin room) lays)
    {socket reply : String}
    (hs : s.Named scene.dialect.policy)
    (hrun : scene.bodyText (scene.renderWithin room) block socket s = (.ok reply, t)) :
    ∃ text layout, reply = scene.indented text ∧
      scene.BodyParts lays s.loops.head? block socket layout ∧
      scene.Written text layout s.loops.head? t := by
  obtain ⟨rendered, u, hplace, hdone⟩ := Pass.bind_eq_ok hrun
  cases rendered with
  | value code tier => cases hdone
  | text text =>
    obtain ⟨rfl, rfl⟩ := Pass.pure_eq_ok hdone
    obtain ⟨layout, hlayout, hwritten⟩ := h.placeCode_written hone hs hplace
    exact ⟨text, layout, rfl, hlayout, hwritten⟩

/-! ## Requests for bodies -/

/-- The text of a statement socket. -/
theorem body_written (hone : scene.LaysOut (scene.renderWithin room) lays)
    {socket reply : String}
    (hs : s.Named scene.dialect.policy)
    (hrun : scene.follow (scene.renderWithin room) ref block (Recipe.body socket) s = (.ok reply, t)) :
    ∃ text layout, reply = scene.indented text ∧
      scene.BodyParts lays s.loops.head? block socket layout ∧
      scene.Written text layout s.loops.head? t := by
  unfold Recipe.body at hrun
  rw [follow_ask] at hrun
  exact h.bodyText_written hone hs hrun

/-- The text of a statement socket inside the loop that the block is. -/
theorem loopBody_written (hone : scene.LaysOut (scene.renderWithin room) lays)
    {socket reply : String}
    (hs : s.Named scene.dialect.policy)
    (hrun : scene.follow (scene.renderWithin room) ref block (Recipe.loopBody socket) s = (.ok reply, t)) :
    ∃ text layout, reply = scene.indented text ∧
      scene.BodyParts lays (some ref) block socket layout ∧
      scene.Written text layout (some ref) t := by
  unfold Recipe.loopBody at hrun
  rw [follow_ask] at hrun
  change Pass.insideLoop ref (scene.bodyText (scene.renderWithin room) block socket) s = (.ok reply, t) at hrun
  obtain ⟨u, hinside, rfl⟩ := Pass.between_eq_ok hrun
  have hentered : PassState.Named scene.dialect.policy { s with loops := ref :: s.loops } :=
    ⟨fun hname => hs.assigned hname, fun hname => hs.helpers hname⟩
  obtain ⟨text, layout, hreply, hlayout, hwritten⟩ :=
    h.bodyText_written hone hentered hinside
  exact ⟨text, layout, hreply, hlayout, hwritten.later fun _ hmem => hmem⟩

end Speaks

end Scene

end BlockScript
