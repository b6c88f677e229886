import BlockScript.Proofs.Code.Parts

/-!
# Labels at the end of loops

Where the language goes on with the next round of a loop by way of a label, the label is
the last line of the body, and no label stands anywhere else.

Definitions:

* `Layout.Labelled`: which loops have a label.

Results:

* `Layout.labelled_append`: lines one after the other have the labels that each of them
  has.
-/

namespace BlockScript

/-- Whether labels stand at the end of the bodies of loops and nowhere else, where every
    loop with a label is one that may have one, and every loop that must have one has
    one. -/
inductive Layout.Labelled (may must : Ref → Prop) : Layout → Prop where
  | nil : Labelled may must .nil
  | closed {ref : Ref} {front rest : Layout} (hmay : may ref) (hfront : Labelled may must front)
    (hrest : Labelled may must rest) :
    Labelled may must (.line (.loop, ref) (front ++ .single (.label, ref)) rest)
  | unclosed {ref : Ref} {inside rest : Layout} (hmust : ¬must ref)
    (hinside : Labelled may must inside) (hrest : Labelled may must rest) :
    Labelled may must (.line (.loop, ref) inside rest)
  | other {role : Role} {ref : Ref} {inside rest : Layout} (hloop : role ≠ .loop)
    (hlabel : role ≠ .label) (hinside : Labelled may must inside)
    (hrest : Labelled may must rest) : Labelled may must (.line (role, ref) inside rest)

namespace Layout

variable {may must may' must' : Ref → Prop} {role : Role} {ref : Ref} {inside rest : Layout}

attribute [simp] Labelled.nil

theorem Labelled.mono {parts : Layout} (h : parts.Labelled may must)
    (hmay : ∀ ref, may ref → may' ref) (hmust : ∀ ref, must' ref → must ref) :
    parts.Labelled may' must' := by
  induction h with
  | nil => exact .nil
  | closed h _ _ ih ih' => exact .closed (hmay _ h) ih ih'
  | unclosed h _ _ ih ih' => exact .unclosed (fun h' => h (hmust _ h')) ih ih'
  | other hloop hlabel _ _ ih ih' => exact .other hloop hlabel ih ih'

theorem labelled_line (hloop : role ≠ .loop) (hlabel : role ≠ .label) :
    Labelled may must (.line (role, ref) inside rest) ↔
      inside.Labelled may must ∧ rest.Labelled may must := by
  refine ⟨fun h => ?_, fun h => .other hloop hlabel h.1 h.2⟩
  cases h with
  | closed => exact absurd rfl hloop
  | unclosed => exact absurd rfl hloop
  | other _ _ hinside hrest => exact ⟨hinside, hrest⟩

@[simp]
theorem labelled_append {a b : Layout} :
    (a ++ b).Labelled may must ↔ a.Labelled may must ∧ b.Labelled may must := by
  induction a with
  | nil => simp
  | line part inside rest _ ih =>
    obtain ⟨role, ref⟩ := part
    rw [Outline.line_append]
    constructor
    · intro h
      cases h with
      | closed hmay hfront hrest =>
        exact ⟨.closed hmay hfront (ih.mp hrest).1, (ih.mp hrest).2⟩
      | unclosed hmust hinside hrest =>
        exact ⟨.unclosed hmust hinside (ih.mp hrest).1, (ih.mp hrest).2⟩
      | other hloop hlabel hinside hrest =>
        exact ⟨.other hloop hlabel hinside (ih.mp hrest).1, (ih.mp hrest).2⟩
    · rintro ⟨h, hb⟩
      cases h with
      | closed hmay hfront hrest => exact .closed hmay hfront (ih.mpr ⟨hrest, hb⟩)
      | unclosed hmust hinside hrest => exact .unclosed hmust hinside (ih.mpr ⟨hrest, hb⟩)
      | other hloop hlabel hinside hrest =>
        exact .other hloop hlabel hinside (ih.mpr ⟨hrest, hb⟩)

theorem labelled_block (hloop : role ≠ .loop) (hlabel : role ≠ .label) :
    Labelled may must (.block (role, ref) inside) ↔ inside.Labelled may must := by
  simp [Outline.block, labelled_line hloop hlabel]

theorem labelled_single (ref : Ref) (hloop : role ≠ .loop) (hlabel : role ≠ .label) :
    Labelled may must (.single (role, ref)) :=
  .other hloop hlabel .nil .nil

theorem labelled_piece (ref : Ref) (text : String) (hloop : role ≠ .loop)
    (hlabel : role ≠ .label) : Labelled may must (Scene.piece role ref text) := by
  unfold Scene.piece
  split
  · exact .nil
  · exact labelled_single ref hloop hlabel

end Layout

namespace Scene

variable {scene : Scene} {may must : Ref → Prop} {ref : Ref} {block : Block Ref}
  {loop : Option Ref}

@[simp]
theorem labelled_comments : (scene.comments ref).Labelled may must :=
  Layout.labelled_piece ref _ (by simp) (by simp)

@[simp]
theorem labelled_opening : (scene.opening ref block).Labelled may must :=
  Layout.labelled_piece ref _ (by simp) (by simp)

@[simp]
theorem labelled_closing : (scene.closing ref block).Labelled may must :=
  Layout.labelled_piece ref _ (by simp) (by simp)

@[simp]
theorem labelled_trapping : (scene.trapping ref block).Labelled may must :=
  Layout.labelled_piece ref _ (by simp) (by simp)

@[simp]
theorem labelled_closer : (scene.closer ref).Labelled may must :=
  Layout.labelled_piece ref _ (by simp) (by simp)

@[simp]
theorem labelled_reopening : (scene.reopening loop).Labelled may must := by
  unfold reopening
  split
  · exact .nil
  · split
    · exact .nil
    · split
      · exact .nil
      · split
        · exact .nil
        · exact labelled_opening

@[simp]
theorem labelled_fill {parts : Layout} :
    (scene.fill ref parts).Labelled may must ↔ parts.Labelled may must := by
  cases parts with
  | nil =>
    unfold fill
    cases scene.dialect.emptyBody with
    | none => rfl
    | some filler => simp [Layout.labelled_single]
  | line part inside rest => rfl

/-- A procedure has the labels of its body. -/
theorem labelled_procedureParts {body : Layout} (declared : Bool) (h : body.Labelled may must) :
    (scene.procedureParts ref (scene.procedureInside ref block body
      (if declared then .single (.outer, ref) else .nil))).Labelled may must := by
  have houter : Layout.Labelled may must (if declared then .single (.outer, ref) else .nil) := by
    split <;> simp [Layout.labelled_single]
  have hrevisited : (scene.revisited ref block body).Labelled may must := by
    unfold revisited
    split <;> simp
  have hback : (scene.givenBack ref block).Labelled may must := by
    unfold givenBack
    split <;> simp [Layout.labelled_single]
  have hcloser : (piece .closer ref scene.dialect.procedureEnd).Labelled may must :=
    Layout.labelled_piece ref _ (by simp) (by simp)
  simp [procedureParts, procedureInside, Layout.labelled_block, h, houter, hrevisited, hback,
    hcloser]

/-- The body of a loop, with a label at its end or without. -/
theorem labelled_loop {front : Layout} (labelled : Bool) (hfront : front.Labelled may must)
    (hmay : labelled = true → may ref) (hmust : must ref → labelled = true) :
    Layout.Labelled may must (.block (.loop, ref)
      (scene.fill ref (front ++ if labelled then .single (.label, ref) else .nil))) := by
  cases labelled with
  | true =>
    have hfill : scene.fill ref (front ++ .single (.label, ref)) = front ++ .single (.label, ref) := by
      cases front <;> rfl
    rw [if_pos rfl, hfill]
    exact .closed (hmay rfl) hfront .nil
  | false =>
    refine .unclosed (fun h => Bool.false_ne_true (hmust h)) ?_ .nil
    simpa using hfront

end Scene

end BlockScript
