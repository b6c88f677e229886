import BlockScript.Proofs.Acceptance.Decision
import BlockScript.Proofs.Pass.Guard

/-!
# Steps that are settled

A step of a pass is settled if a condition tells whether it succeeds, whatever the
pass has named and defined before. What counts is which blocks are being rendered;
and a jump needs the loops around it to have rules.

If single blocks are settled, so are sockets, chains and places, and whatever
follows a recipe that decides a condition.

Results:

* `Scene.settles_placeCode`: a place renders just if it holds a single value or a
  chain.
* `Scene.settles_follow`: following a recipe comes to a result just if the condition
  holds that the recipe decides.
-/

namespace BlockScript

open BlockScript.Text

/-! ## Steps that are settled -/

namespace Pass

variable {α β : Type} {I : PassState → Prop} {P R : Prop} {Q : α → Prop} {S : β → Prop}

/-- Whether a step in a state of a kind succeeds just if a condition holds. It leaves a
    state of that kind and a result with a property. -/
def Settles (I : PassState → Prop) (P : Prop) (Q : α → Prop) (p : Pass α) : Prop :=
  ∀ s, I s → match p s with
    | (.ok a, t) => P ∧ Q a ∧ I t
    | (.error _, _) => ¬P

namespace Settles

theorem congr {p : Pass α} (h : p.Settles I P Q) (hiff : P ↔ R) : p.Settles I R Q :=
  propext hiff ▸ h

theorem pure {a : α} (h : Q a) : (Pure.pure a : Pass α).Settles I True Q :=
  fun _ hs => ⟨trivial, h, hs⟩

theorem throw (failure : Failure) : (MonadExcept.throw failure : Pass α).Settles I False Q :=
  fun _ _ => id

theorem ofExcept (x : Except Failure α) :
    (Pass.ofExcept x).Settles I (x.isOk = true) fun a => x = .ok a := by
  cases x with
  | ok a => exact fun s hs => ⟨rfl, rfl, hs⟩
  | error failure => exact fun s hs => Bool.false_ne_true

theorem bind {p : Pass α} {f : α → Pass β} (h : p.Settles I P Q)
    (hf : ∀ a, Q a → (f a).Settles I R S) : (p >>= f).Settles I (P ∧ R) S := by
  intro s hs
  have hp := h s hs
  rw [Pass.bind_apply]
  cases hrun : p s with
  | mk result t =>
    rw [hrun] at hp
    cases result with
    | ok a =>
      have hrest := hf a hp.2.1 t hp.2.2
      dsimp only
      cases hrun' : f a t with
      | mk result u =>
        rw [hrun'] at hrest
        cases result with
        | ok b => exact ⟨⟨hp.1, hrest.1⟩, hrest.2⟩
        | error failure => exact fun hboth => hrest hboth.2
    | error failure => exact fun hboth => hp hboth.1

/-- What is known of a step that has succeeded. -/
theorem of_run {p : Pass α} {s t : PassState} {a : α} (h : p.Settles I P Q) (hs : I s)
    (hrun : p s = (.ok a, t)) : P ∧ Q a ∧ I t := by
  have hp := h s hs
  rwa [hrun] at hp

/-- A step ahead that cannot fail. -/
theorem after {p : Pass α} {f : α → Pass β} (h : p.Settles I True Q)
    (hf : ∀ a, Q a → (f a).Settles I R S) : (p >>= f).Settles I R S :=
  (h.bind hf).congr (iff_of_eq (true_and R))

/-- A result that goes through a function. -/
theorem map {p : Pass α} {f : α → β} (h : p.Settles I P Q) (hf : ∀ a, Q a → S (f a)) :
    (p >>= fun a => Pure.pure (f a)).Settles I P S :=
  (h.bind fun a ha => pure (hf a ha)).congr (iff_of_eq (and_true P))

theorem mono {p : Pass α} {T : α → Prop} (h : p.Settles I P Q) (hsub : ∀ a, P → Q a → T a) :
    p.Settles I P T := by
  intro s hs
  have hp := h s hs
  cases hrun : p s with
  | mk result t =>
    rw [hrun] at hp
    cases result with
    | ok a => exact ⟨hp.1, hsub a hp.1 hp.2.1, hp.2.2⟩
    | error failure => exact hp

/-- A step that always succeeds and leaves a state of the kind. -/
theorem of_ok {p : Pass α} (h : ∀ s, I s → ∃ a t, p s = (.ok a, t) ∧ Q a ∧ I t) :
    p.Settles I True Q := by
  intro s hs
  obtain ⟨a, t, hrun, hresult⟩ := h s hs
  rw [hrun]
  exact ⟨trivial, hresult⟩

/-- A step between a change of the state and its undoing. -/
theorem between {J : PassState → Prop} {enter leave : PassState → PassState} {p : Pass α}
    (h : p.Settles J P Q) (henter : ∀ s, I s → J (enter s)) (hleave : ∀ s, J s → I (leave s)) :
    (Pass.between enter leave p).Settles I P Q := by
  intro s hs
  have hp := h (enter s) (henter s hs)
  unfold Pass.between
  cases hrun : p (enter s) with
  | mk result t =>
    rw [hrun] at hp
    cases result with
    | ok a => exact ⟨hp.1, hp.2.1, hleave t hp.2.2⟩
    | error failure => exact hp

end Settles

end Pass

/-- What a block rendered to, without the text. -/
def Rendered.shape : Rendered → Shape
  | .text code => if code = "" then .blank else .statement
  | .value .. => .value

theorem Rendered.shape_text_ne_value (code : String) : (text code).shape ≠ .value := by
  by_cases hempty : code = "" <;> simp [shape, hempty]

namespace Scene

variable {scene : Scene} {nest : List Ref} {ref : Ref} {block : Block Ref}
  {one : Ref → Pass Rendered} {shape : Ref → Option Shape} {I : PassState → Prop}

/-! ## Sockets and chains -/

/-- Whether blocks render just if they have a shape, and then to what has it. -/
def Shapes (I : PassState → Prop) (one : Ref → Pass Rendered) (shape : Ref → Option Shape) : Prop :=
  ∀ ref, (one ref).Settles I ((shape ref).isSome = true) fun rendered =>
    shape ref = some rendered.shape

theorem settles_valueText (hone : Shapes I one shape) (socket : String) (tier : Tier)
    (strict : Bool) :
    (scene.valueText one block socket tier strict).Settles I
      (Workspace.fillsValue shape block socket = true) fun _ => True := by
  unfold valueText Workspace.fillsValue
  cases block.valueInput socket with
  | none => exact (Pass.Settles.pure trivial).congr (by simp)
  | some target =>
    refine ((hone target).bind (R := (shape target).any Shape.fitsValue = true)
      fun rendered hshape => ?_).congr ⟨And.right, fun h => ⟨?_, h⟩⟩
    · rw [hshape]
      cases rendered with
      | text code =>
        dsimp only
        split
        · next hempty =>
          exact (Pass.Settles.pure trivial).congr
            (by simp [Rendered.shape, hempty, Shape.fitsValue])
        · next hdark =>
          exact (Pass.Settles.throw _).congr
            (by simp [Rendered.shape, hdark, Shape.fitsValue])
      | value code inner =>
        refine Pass.Settles.congr ?_ (show True ↔ _ by simp [Rendered.shape, Shape.fitsValue])
        dsimp only
        split
        · exact .pure trivial
        · split
          · exact .pure trivial
          · exact .pure trivial
    · cases hshape : shape target with
      | none => simp [hshape] at h
      | some known => rfl

theorem settles_chainText (hone : Shapes I one shape) (refs : List Ref) :
    (scene.chainText one refs).Settles I
      ((refs.all fun ref => (shape ref).any Shape.fitsChain) = true) fun _ => True := by
  induction refs with
  | nil => exact (Pass.Settles.pure trivial).congr (by simp)
  | cons ref refs ih =>
    unfold chainText
    refine ((hone ref).bind (R := (shape ref).any Shape.fitsChain = true ∧
      (refs.all fun ref => (shape ref).any Shape.fitsChain) = true)
      fun rendered hshape => ?_).congr ?_
    · rw [hshape]
      cases rendered with
      | text code =>
        refine (ih.map fun _ _ => trivial).congr ?_
        simp only [Rendered.shape, Option.any_some]
        split <;> simp [Shape.fitsChain]
      | value code tier =>
        exact (Pass.Settles.throw _).congr (by simp [Rendered.shape, Shape.fitsChain])
    · cases hshape : shape ref <;> simp [hshape]

theorem settles_chainCode (hone : Shapes I one shape) (ref : Ref) :
    (scene.chainCode one ref).Settles I (scene.workspace.holdsChain shape (some ref) = true)
      fun _ => True := by
  unfold chainCode Workspace.holdsChain
  dsimp only
  refine ((settles_chainText hone _).bind
    (R := (scene.graph.chainFrom [] (some ref)).2.isNone = true) fun code _ => ?_).congr ?_
  · cases (scene.graph.chainFrom [] (some ref)).2 with
    | none => exact (Pass.Settles.pure trivial).congr (by simp)
    | some repeated => exact (Pass.Settles.throw _).congr (by simp)
  · rw [Bool.and_eq_true, and_comm]
    rfl

/-! ## Places -/

/-- Whether the shapes of enabled blocks come from their rules, where a block is a value
    only if it is enabled. -/
structure Ordered (scene : Scene) (shape : Ref → Option Shape) : Prop where
  rule (ref : Ref) (block : Block Ref) (known : Shape)
    (hblock : scene.graph.block? ref = some block) (henabled : block.enabled = true)
    (hshape : shape ref = some known) :
    ∃ rule, scene.rules.lookup block.type = .ok rule ∧ (rule.isValue = true ↔ known = .value)
  value (ref : Ref) (hshape : shape ref = some .value) :
    ∃ block, scene.graph.block? ref = some block ∧ block.enabled = true

/-- The first block of a chain has a shape that fits. -/
theorem fitsChain_of_holdsChain (hblock : scene.graph.block? ref = some block)
    (h : scene.workspace.holdsChain shape (some ref) = true) :
    (shape ref).any Shape.fitsChain = true := by
  simp only [Workspace.holdsChain, Bool.and_eq_true, List.all_eq_true] at h
  exact h.2 ref (Graph.mem_chainFrom_self hblock)

/-- A single value is no chain. -/
theorem Ordered.not_holdsChain (h : scene.Ordered shape) {place : Option Ref}
    (hvalue : Workspace.holdsValue shape place = true) :
    ¬scene.workspace.holdsChain shape place = true := by
  obtain ⟨ref, rfl, hshape⟩ : ∃ ref, place = some ref ∧ shape ref = some .value := by
    simpa [Workspace.holdsValue, Option.bind_eq_some_iff] using hvalue
  obtain ⟨block, hblock, -⟩ := h.value ref hshape
  intro hchain
  simpa [hshape, Shape.fitsChain] using fitsChain_of_holdsChain hblock hchain

/-- What starts at a place renders just if it is a single value or a chain. -/
theorem settles_placeCode (hone : Shapes I one shape) (hordered : scene.Ordered shape)
    (place : Option Ref) :
    (scene.placeCode one place).Settles I
      (scene.workspace.holdsCode shape place = true)
      fun rendered => rendered.shape = .value ↔ Workspace.holdsValue shape place = true := by
  cases place with
  | none =>
    refine (Pass.Settles.pure (iff_of_false (Rendered.shape_text_ne_value "") ?_)).congr
      (by simp [Workspace.holdsCode, Workspace.holdsChain_none])
    simp [Workspace.holdsValue]
  | some ref =>
    have hvalue : Workspace.holdsValue shape (some ref) = true ↔ shape ref = some .value := by
      simp [Workspace.holdsValue]
    have hchain : shape ref ≠ some .value →
        (scene.chainCode one ref >>= fun code => pure (Rendered.text code)).Settles I
          (scene.workspace.holdsCode shape (some ref) = true)
          fun rendered => rendered.shape = .value ↔
            Workspace.holdsValue shape (some ref) = true := by
      intro hno
      refine ((settles_chainCode hone ref).map (f := Rendered.text) fun code _ => ?_).congr ?_
      · exact iff_of_false (Rendered.shape_text_ne_value code) (mt hvalue.mp hno)
      · simp [Workspace.holdsCode, mt hvalue.mp hno]
    unfold placeCode
    dsimp only
    cases hblock : scene.graph.block? ref with
    | none =>
      have hno : shape ref ≠ some .value := fun hshape => by
        obtain ⟨block, hsome, -⟩ := hordered.value ref hshape
        rw [hblock] at hsome
        cases hsome
      refine (Pass.Settles.pure (iff_of_false (Rendered.shape_text_ne_value "")
        (mt hvalue.mp hno))).congr (iff_of_true trivial (Bool.or_eq_true_iff.mpr (.inr ?_)))
      have hempty : scene.workspace.graph.chainFrom [] (some ref) = ([], none) :=
        Graph.chainFrom_of_none (by simp) hblock
      simp [Workspace.holdsChain, hempty]
    | some block =>
      have hnone : shape ref = none → ¬scene.workspace.holdsCode shape (some ref) = true := by
        intro hshape hcode
        rcases Bool.or_eq_true_iff.mp hcode with hyes | hheld
        · simp [hvalue, hshape] at hyes
        · simpa [hshape] using fitsChain_of_holdsChain hblock hheld
      dsimp only
      split
      · next henabled =>
        have hrule := fun known => hordered.rule ref block known hblock henabled
        cases hlookup : scene.rules.lookup block.type with
        | error failure =>
          refine (Pass.Settles.throw failure).congr (iff_of_false id (hnone ?_))
          cases hshape : shape ref with
          | none => rfl
          | some known => simpa [hlookup] using hrule known hshape
        | ok rule =>
          rw [hlookup] at hrule
          refine (Pass.Settles.pure (Q := (rule = ·)) rfl).after fun found hfound => ?_
          cases hfound
          split
          · next hyes =>
            have hiff : (shape ref).isSome = true ↔
                scene.workspace.holdsCode shape (some ref) = true := by
              cases hshape : shape ref with
              | none => exact iff_of_false Bool.false_ne_true (hnone hshape)
              | some known =>
                obtain ⟨found, hfound, hkind⟩ := hrule known hshape
                cases hfound
                have hheld := hvalue.mpr (hshape.trans (congrArg some (hkind.mp hyes)))
                exact iff_of_true rfl (Bool.or_eq_true_iff.mpr (.inl hheld))
            refine ((hone ref).congr hiff).mono fun rendered _ hshape => ?_
            rw [hvalue, hshape, Option.some_inj]
          · next hstatement =>
            refine hchain fun hshape => hstatement ?_
            obtain ⟨found, hfound, hkind⟩ := hrule .value hshape
            cases hfound
            exact hkind.mpr rfl
      · next hdisabled =>
        refine hchain fun hshape => hdisabled ?_
        obtain ⟨found, hfound, henabled⟩ := hordered.value ref hshape
        rw [hblock] at hfound
        cases hfound
        exact henabled

/-- A statement socket is rendered just if it holds a chain. -/
theorem settles_bodyText (hone : Shapes I one shape) (hordered : scene.Ordered shape)
    (block : Block Ref) (socket : String) :
    (scene.bodyText one block socket).Settles I
      (scene.workspace.holdsChain shape (block.statementInput socket) = true) fun _ => True := by
  unfold bodyText
  refine ((settles_placeCode hone hordered _).bind
    (R := ¬Workspace.holdsValue shape (block.statementInput socket) = true)
    fun rendered hshape => ?_).congr ?_
  · rw [← hshape]
    cases rendered with
    | text code =>
      exact (Pass.Settles.pure trivial).congr
        (iff_of_true trivial (Rendered.shape_text_ne_value code))
    | value code tier => exact (Pass.Settles.throw _).congr (by simp [Rendered.shape])
  · have hnot : Workspace.holdsValue shape (block.statementInput socket) = true →
        ¬scene.workspace.holdsChain shape (block.statementInput socket) = true :=
      fun hvalue => hordered.not_holdsChain hvalue
    rw [Workspace.holdsCode, Bool.or_eq_true]
    tauto

/-! ## Whole blocks -/

/-- Whether the blocks being rendered are those of a nest, and the loops around have
    rules. -/
structure Inside (scene : Scene) (nest : List Ref) (s : PassState) : Prop where
  within : s.Within nest
  loops : ∀ loop ∈ s.loops, scene.Ruled loop

/-- One more block is being rendered. -/
theorem Inside.entered {s : PassState} (h : scene.Inside nest s) :
    scene.Inside (ref :: nest) { s with depth := s.depth + 1, active := ref :: s.active } where
  within := ⟨by rw [h.within.1], by rw [h.within.2, List.length_cons]⟩
  loops := h.loops

/-- The innermost block has been rendered. -/
theorem Inside.left {s : PassState} (h : scene.Inside (ref :: nest) s) :
    scene.Inside nest { s with depth := s.depth - 1, active := s.active.erase ref } where
  within := by
    refine ⟨?_, ?_⟩
    · rw [h.within.1, List.erase_cons_head]
    · rw [h.within.2, List.length_cons, Nat.add_sub_cancel]
  loops := h.loops

theorem settles_answer (hone : Shapes (scene.Inside nest) one shape)
    (hordered : scene.Ordered shape) (hself : scene.Ruled ref) (block : Block Ref)
    (request : Request) :
    (scene.answer one ref block request).Settles (scene.Inside nest)
      (scene.CanAnswer shape block request) (scene.AnswerFits request) := by
  cases request with
  | value socket tier strict => exact settles_valueText hone socket tier strict
  | body socket loop =>
    have hbody := settles_bodyText hone hordered block socket
    cases loop with
    | false => exact hbody
    | true =>
      have henter : ∀ s, scene.Inside nest s →
          scene.Inside nest { s with loops := ref :: s.loops } :=
        fun s hs => ⟨hs.within, by simpa using ⟨hself, hs.loops⟩⟩
      have hleave : ∀ s, scene.Inside nest s →
          scene.Inside nest { s with loops := s.loops.tail } :=
        fun s hs => ⟨hs.within, fun loop hloop => hs.loops loop (List.mem_of_mem_tail hloop)⟩
      exact hbody.between henter hleave
  | name kind name => exact .of_ok fun s hs => ⟨_, _, rfl, trivial, hs.within, hs.loops⟩
  | freshName kind base => exact .of_ok fun s hs => ⟨_, _, rfl, trivial, hs.within, hs.loops⟩
  | helper key template => exact .of_ok fun s hs => ⟨_, _, rfl, trivial, hs.within, hs.loops⟩
  | define key code => exact .of_ok fun s hs => ⟨_, _, rfl, trivial, hs.within, hs.loops⟩
  | enclosingLoop =>
    refine .of_ok fun s hs => ⟨_, _, rfl, fun loop hloop => ?_, hs⟩
    exact hs.loops loop (List.mem_of_mem_head? hloop)
  | markContinue =>
    refine .of_ok fun s hs => ⟨_, _, rfl, trivial, ?_⟩
    dsimp only
    split
    · exact hs
    · exact ⟨hs.within, hs.loops⟩
  | loopContinued loop => exact .of_ok fun s hs => ⟨_, _, rfl, trivial, hs⟩
  | warn warning => exact .of_ok fun s hs => ⟨_, _, rfl, trivial, hs.within, hs.loops⟩

/-- Following a recipe comes to a result just if the condition holds that it decides. -/
theorem settles_follow {α : Type} {P : Prop} {Q : α → Prop} {recipe : Recipe α}
    (hone : Shapes (scene.Inside nest) one shape) (hordered : scene.Ordered shape)
    (hself : scene.Ruled ref) (hdecides : scene.DecidesFor shape block P Q recipe) :
    (scene.follow one ref block recipe).Settles (scene.Inside nest) P Q := by
  induction recipe with
  | done result => exact (Pass.Settles.pure hdecides.2).congr (iff_of_true trivial hdecides.1)
  | fail failure => exact (Pass.Settles.throw failure).congr (iff_of_false id hdecides)
  | ask request next ih =>
    intro s hs
    have hreply := settles_answer hone hordered hself block request s hs
    unfold follow
    rw [Pass.bind_apply]
    cases hrun : scene.answer one ref block request s with
    | mk result t =>
      rw [hrun] at hreply
      cases result with
      | ok reply => exact ih reply (hdecides.2 hreply.1 reply hreply.2.1) t hreply.2.2
      | error failure => exact hdecides.1 hreply

end Scene

end BlockScript
