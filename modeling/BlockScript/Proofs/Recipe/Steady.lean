import BlockScript.Proofs.Pass.Guard
import BlockScript.Proofs.Recipe.Follow
import BlockScript.Proofs.Recipe.Straight

/-!
# What recipes read

Which sockets a recipe reads does not depend on what it is answered: it reads the same
ones in every run that comes to a result. So whatever a recipe can come to read is read
whenever the block is rendered with success.

Results:

* `BlockForm.recipe_steady`: every recipe reads the same sockets in every run.
* `Scene.answered_of_asks`: a socket that a recipe asks for is read with success.
-/

namespace BlockScript

/-- Whether a request is for what is plugged into a socket. -/
def Request.isReading : Request → Bool
  | .value .. | .body .. => true
  | _ => false

namespace Recipe

variable {α β : Type} {reads more : List Request} {request : Request}

/-- Whether a recipe that comes to a result has read these sockets, in this order. -/
def Reads : Recipe α → List Request → Prop
  | .done _, reads => reads = []
  | .fail _, _ => True
  | .ask request next, reads =>
    if request.isReading then
      ∃ rest, reads = request :: rest ∧ ∀ reply, (next reply).Reads rest
    else ∀ reply, (next reply).Reads reads

/-- Whether a recipe reads the same sockets in every run. -/
def Steady (recipe : Recipe α) : Prop :=
  ∃ reads, recipe.Reads reads

/-- A recipe with the sockets that it reads can come to read no others. -/
theorem Reads.mem_of_asks {recipe : Recipe α} (h : recipe.Reads reads)
    (hasks : recipe.Asks request) (hreading : request.isReading = true) : request ∈ reads := by
  induction recipe generalizing reads with
  | done result => cases hasks
  | fail failure => cases hasks
  | ask own next ih =>
    rw [Reads] at h
    split at h
    · obtain ⟨rest, rfl, hrest⟩ := h
      rcases hasks with rfl | ⟨reply, hlater⟩
      · exact List.mem_cons_self
      · exact List.mem_cons_of_mem _ (ih reply (hrest reply) hlater)
    · next hother =>
      rcases hasks with rfl | ⟨reply, hlater⟩
      · exact absurd hreading hother
      · exact ih reply (h reply) hlater

/-! ## Parts of recipes -/

theorem Reads.bind {recipe : Recipe α} {next : α → Recipe β} (h : recipe.Reads reads)
    (hnext : ∀ a, (next a).Reads more) : (recipe >>= next).Reads (reads ++ more) := by
  show (andThen recipe next).Reads (reads ++ more)
  induction recipe generalizing reads with
  | done result =>
    obtain rfl : reads = [] := h
    exact hnext result
  | fail failure => trivial
  | ask request later ih =>
    rw [Reads] at h
    rw [andThen, Reads]
    split at h
    · next hreading =>
      obtain ⟨rest, rfl, hrest⟩ := h
      rw [if_pos hreading]
      exact ⟨rest ++ more, rfl, fun reply => ih reply (hrest reply)⟩
    · next hother =>
      rw [if_neg hother]
      exact fun reply => ih reply (h reply)

/-- A recipe that reads no socket. -/
theorem reads_nil_of_only {recipe : Recipe α} {fail : Failure → Prop}
    (h : recipe.Only (fun request => request.isReading = false) fail) : recipe.Reads [] := by
  induction recipe with
  | done result => rfl
  | fail failure => trivial
  | ask request next ih =>
    rw [Reads, if_neg (by simp [h.1])]
    exact fun reply => ih reply (h.2 reply)

theorem Reads.quiet_bind {recipe : Recipe α} {next : α → Recipe β} (h : recipe.Reads [])
    (hnext : ∀ a, (next a).Reads reads) : (recipe >>= next).Reads reads :=
  h.bind hnext

/-- What is done with a result that needs no request. -/
theorem Steady.ofExcept_bind {x : Except Failure α} {next : α → Recipe β}
    (h : ∀ a, x = .ok a → (next a).Steady) : (ofExcept x >>= next).Steady := by
  cases x with
  | ok a => exact h a rfl
  | error failure => exact ⟨[], trivial⟩

theorem reads_ofExcept (x : Except Failure α) : (ofExcept x).Reads [] := by
  cases x with
  | ok a => rfl
  | error failure => trivial

theorem reads_value (socket : String) (tier : Tier) (strict : Bool) :
    (value socket tier strict).Reads [.value socket tier strict] :=
  ⟨[], rfl, fun _ => rfl⟩

theorem reads_valueOr (socket : String) (tier : Tier) (strict : Bool) (fallback : String) :
    (valueOr socket tier strict fallback).Reads [.value socket tier strict] :=
  (reads_value socket tier strict).bind fun _ => rfl

theorem reads_body (socket : String) : (body socket).Reads [.body socket false] :=
  ⟨[], rfl, fun _ => rfl⟩

theorem reads_nameOf (kind : NameKind) (name : Json) : (nameOf kind name).Reads [] :=
  reads_nil_of_only (only_nameOf fun _ _ => rfl)

theorem reads_importAll (statements : List String) : (importAll statements).Reads [] := by
  induction statements with
  | nil => rfl
  | cons statement statements ih =>
    have hdefine : (define (importKey ++ statement) statement).Reads [] := fun _ => rfl
    exact hdefine.quiet_bind fun _ => ih

theorem reads_calleeName (callee : Callee) : (calleeName callee).Reads [] := by
  cases callee with
  | function name imports => exact (reads_importAll imports).quiet_bind fun _ => rfl
  | helper form => exact (reads_importAll form.imports).quiet_bind fun _ _ => rfl

theorem reads_forEach {ι : Type} {f : ι → Recipe α} {each : ι → List Request} (items : List ι)
    (h : ∀ item, (f item).Reads (each item)) : (forEach f items).Reads (items.flatMap each) := by
  induction items with
  | nil => rfl
  | cons item items ih =>
    have hrest : ∀ result, (forEach f items >>= fun results =>
        (pure (result :: results) : Recipe (List α))).Reads (items.flatMap each) :=
      fun result => List.append_nil (items.flatMap each) ▸ ih.bind fun _ => rfl
    exact (h item).bind hrest

theorem reads_forEach_nil {ι : Type} {f : ι → Recipe α} (items : List ι)
    (h : ∀ item, (f item).Reads []) : (forEach f items).Reads [] := by
  have heach := reads_forEach items h
  rwa [List.flatMap_eq_nil_iff.mpr fun _ _ => rfl] at heach

variable (scene : Scene) (ref : Ref) (block : Block Ref)

theorem reads_outerDeclaration : (outerDeclaration scene ref block).Reads [] := by
  unfold outerDeclaration
  split
  · rfl
  · refine (reads_ofExcept _).quiet_bind fun known => ?_
    refine (reads_forEach_nil _ fun _ => reads_nameOf _ _).quiet_bind fun named => ?_
    refine (reads_forEach_nil _ fun _ => reads_nameOf _ _).quiet_bind fun developer => ?_
    split <;> rfl

theorem reads_loopStatements : (loopStatements scene ref block).Reads [.body "DO" true] := by
  have hbody : (loopBody "DO").Reads [.body "DO" true] := ⟨[], rfl, fun _ => rfl⟩
  refine hbody.bind fun statements => (reads_ofExcept _).quiet_bind fun trapped => ?_
  split
  · rfl
  · exact fun _ => rfl

/-! ## Whole recipes -/

theorem steady_conditional : (conditional scene block).Steady := by
  have harm : ∀ number, (arm scene block number).Reads
      [.value (conditionSocket number) .none false, .body (bodySocket number) false] :=
    fun number => (reads_valueOr _ _ _ _).bind fun _ => (reads_body _).bind fun _ => rfl
  have hotherwise : (otherwise scene block).Steady := by
    unfold otherwise
    split
    · exact ⟨_, (reads_body _).bind fun _ => rfl⟩
    · exact ⟨[], rfl⟩
  obtain ⟨reads, hlast⟩ := hotherwise
  exact ⟨_, (reads_forEach _ harm).bind fun _ => hlast.bind fun _ => rfl⟩

theorem steady_whileLoop : (whileLoop scene ref block).Steady := by
  refine Steady.ofExcept_bind fun mode _ => ?_
  cases mode with
  | «until» | «while» =>
    exact ⟨_, (reads_valueOr _ _ _ _).bind fun _ =>
      (reads_loopStatements scene ref block).bind fun _ => rfl⟩

theorem steady_repeatLoop : (repeatLoop scene ref block).Steady := by
  have hcount : (repeatCount block).Steady := by
    unfold repeatCount
    split
    · exact ⟨[], (reads_ofExcept _).quiet_bind fun _ => rfl⟩
    · exact ⟨_, reads_valueOr _ _ _ _⟩
  have hcounter : ∀ base, (freshName .variable base).Reads [] := fun _ _ => rfl
  obtain ⟨reads, hcount⟩ := hcount
  refine ⟨_, hcount.bind fun count => (reads_loopStatements scene ref block).bind fun statements =>
    (hcounter _).quiet_bind fun counter => (?_ : Reads _ [])⟩
  split
  · rfl
  · split
    · rfl
    · exact (hcounter _).quiet_bind fun _ => rfl

theorem steady_flow : (flow scene block).Steady := by
  refine ⟨[], (reads_ofExcept _).quiet_bind fun jump => ?_⟩
  dsimp only
  split
  · intro _ loop
    cases loop with
    | none => exact fun _ => rfl
    | some loop => exact (reads_ofExcept _).quiet_bind fun _ => rfl
  · intro loop
    cases loop with
    | none => exact fun _ => rfl
    | some loop => exact (reads_ofExcept _).quiet_bind fun _ => rfl

theorem steady_property : (property scene.dialect block).Steady := by
  refine Steady.ofExcept_bind fun property _ => ?_
  split
  · exact ⟨_, (reads_valueOr _ _ _ _).bind fun _ => (reads_importAll _).quiet_bind fun _ _ => rfl⟩
  · refine ⟨_, (reads_valueOr _ _ _ _).bind fun _ => (reads_valueOr _ _ _ _).bind fun _ =>
      (?_ : Reads _ [])⟩
    split <;> rfl
  · exact ⟨_, (reads_valueOr _ _ _ _).bind fun _ => rfl⟩

theorem steady_randomInteger : (randomInteger scene.dialect).Steady := by
  unfold randomInteger
  cases scene.dialect.randomInteger with
  | function name imports =>
    exact ⟨_, (reads_importAll _).quiet_bind fun _ => (reads_valueOr _ _ _ _).bind fun _ =>
      (reads_valueOr _ _ _ _).bind fun _ => rfl⟩
  | helper form =>
    exact ⟨_, (reads_valueOr _ _ _ _).bind fun _ => (reads_valueOr _ _ _ _).bind fun _ =>
      (reads_calleeName _).quiet_bind fun _ => rfl⟩

theorem steady_onList : (onList scene.dialect block).Steady := by
  refine Steady.ofExcept_bind fun op _ => ?_
  dsimp only
  split
  · exact ⟨_, (reads_calleeName _).quiet_bind fun _ => (reads_valueOr _ _ _ _).bind fun _ => rfl⟩
  · exact ⟨_, (reads_valueOr _ _ _ _).bind fun _ => (reads_calleeName _).quiet_bind fun _ => rfl⟩

theorem steady_call : (call scene block).Steady := by
  unfold call
  cases params block with
  | error failure => exact ⟨[], (reads_nameOf _ _).quiet_bind fun _ => trivial⟩
  | ok listed =>
    exact ⟨_, (reads_nameOf _ _).quiet_bind fun _ =>
      (reads_forEach _ fun _ => reads_valueOr _ _ _ _).bind fun _ => rfl⟩

theorem steady_procedureDefinition : (procedureDefinition scene ref block).Steady :=
  ⟨_, (reads_nameOf _ _).quiet_bind fun _ =>
    (reads_outerDeclaration scene ref block).quiet_bind fun _ =>
      (reads_body _).bind fun _ => (reads_value _ _ _).bind fun _ =>
        (reads_ofExcept _).quiet_bind fun _ =>
          (reads_forEach_nil _ fun _ => reads_nameOf _ _).quiet_bind fun _ _ => rfl⟩

theorem steady_conditionalReturn : (conditionalReturn scene block).Steady := by
  unfold conditionalReturn
  cases block.hasInput "VALUE" with
  | true =>
    exact ⟨_, (reads_valueOr _ _ _ _).bind fun _ => (reads_valueOr _ _ _ _).bind fun _ => rfl⟩
  | false => exact ⟨_, (reads_valueOr _ _ _ _).bind fun _ => rfl⟩

end Recipe

open Recipe in
/-- Every recipe reads the same sockets in every run. -/
theorem BlockForm.recipe_steady (scene : Scene) (ref : Ref) (block : Block Ref)
    (form : BlockForm) : (form.recipe scene ref block).Steady := by
  cases form with
  | conditional => exact steady_conditional scene block
  | whileLoop => exact steady_whileLoop scene ref block
  | repeatLoop => exact steady_repeatLoop scene ref block
  | flow => exact steady_flow scene block
  | property => exact steady_property scene block
  | onList => exact steady_onList scene block
  | randomInteger => exact steady_randomInteger scene
  | procedureDefinition => exact steady_procedureDefinition scene ref block
  | procedureCall =>
    obtain ⟨reads, h⟩ := steady_call scene block
    exact ⟨_, h.bind fun _ => rfl⟩
  | procedureCallStatement =>
    obtain ⟨reads, h⟩ := steady_call scene block
    exact ⟨_, h.bind fun _ => rfl⟩
  | conditionalReturn => exact steady_conditionalReturn scene block
  | truthValue | nullValue | text => exact ⟨[], rfl⟩
  | number =>
    refine ⟨[], (reads_ofExcept _).quiet_bind fun d => ?_⟩
    split <;> rfl
  | single =>
    refine Steady.ofExcept_bind fun op _ => ?_
    split
    · exact ⟨_, (reads_valueOr _ _ _ _).bind fun _ => rfl⟩
    · exact ⟨_, (reads_valueOr _ _ _ _).bind fun _ => (reads_importAll _).quiet_bind fun _ => rfl⟩
  | constant =>
    exact ⟨[], (reads_ofExcept _).quiet_bind fun _ => (reads_importAll _).quiet_bind fun _ => rfl⟩
  | compare | logic | arithmetic =>
    exact Steady.ofExcept_bind fun op _ =>
      ⟨_, Reads.bind (by first | exact reads_valueOr _ _ _ _ | exact reads_value _ _ _) fun _ =>
        Reads.bind (by first | exact reads_valueOr _ _ _ _ | exact reads_value _ _ _) fun _ => rfl⟩
  | logicNot => exact ⟨_, (reads_valueOr _ _ _ _).bind fun _ => rfl⟩
  | modulo =>
    exact ⟨_, (reads_valueOr _ _ _ _).bind fun _ => (reads_valueOr _ _ _ _).bind fun _ => rfl⟩
  | ternary | constrain =>
    exact ⟨_, (reads_valueOr _ _ _ _).bind fun _ => (reads_valueOr _ _ _ _).bind fun _ =>
      (reads_valueOr _ _ _ _).bind fun _ => rfl⟩
  | change =>
    exact ⟨_, (reads_importAll _).quiet_bind fun _ => (reads_valueOr _ _ _ _).bind fun _ =>
      (reads_nameOf _ _).quiet_bind fun _ => rfl⟩
  | randomFraction => exact ⟨[], (reads_importAll _).quiet_bind fun _ => rfl⟩
  | arcTangent =>
    exact ⟨_, (reads_importAll _).quiet_bind fun _ => (reads_valueOr _ _ _ _).bind fun _ =>
      (reads_valueOr _ _ _ _).bind fun _ => rfl⟩
  | variableValue => exact ⟨[], (reads_nameOf _ _).quiet_bind fun _ => rfl⟩
  | variableAssignment =>
    exact ⟨_, (reads_valueOr _ _ _ _).bind fun _ => (reads_nameOf _ _).quiet_bind fun _ => rfl⟩

theorem Handler.recipe_steady (scene : Scene) (ref : Ref) (block : Block Ref) (handler : Handler) :
    (handler.recipe scene ref block).Steady := by
  cases handler with
  | form known => exact known.recipe_steady scene ref block
  | always product => exact ⟨[], rfl⟩

namespace Scene

variable {scene : Scene} {α : Type} {ref : Ref} {block : Block Ref} {room : Nat}
  {recipe : Recipe α} {request : Request} {s t : PassState} {a : α}

/-- A socket that a steady recipe asks for is read with success in every run that comes to
    a result. -/
theorem answered_of_asks (hsteady : recipe.Steady) (hasks : recipe.Asks request)
    (hreading : request.isReading = true)
    (hrun : scene.follow (scene.renderWithin room) ref block recipe s = (.ok a, t)) :
    ∃ u reply v, Later scene.dialect.policy s u ∧
      scene.answer (scene.renderWithin room) ref block request u = (.ok reply, v) ∧
      Later scene.dialect.policy v t := by
  obtain ⟨reads, hreads⟩ := hsteady
  have hmem := hreads.mem_of_asks hasks hreading
  clear hasks
  induction recipe generalizing reads s with
  | done result =>
    obtain rfl : reads = [] := hreads
    cases hmem
  | fail failure => cases hrun
  | ask own next ih =>
    obtain ⟨reply, v, hanswer, hrest⟩ := Pass.bind_eq_ok hrun
    have hfirst : Later scene.dialect.policy s v :=
      Kept.of_run ((later_kept scene).answer ((later_kept scene).renderWithin room) ref block own)
        hanswer
    have hlater : ∀ rest, request ∈ rest → (next reply).Reads rest → ∃ u reply v,
        Later scene.dialect.policy s u ∧
        scene.answer (scene.renderWithin room) ref block request u = (.ok reply, v) ∧
        Later scene.dialect.policy v t := by
      intro rest hrestmem hnext
      obtain ⟨u, reply', w, hu, hanswer', hw⟩ := ih reply hrest rest hnext hrestmem
      exact ⟨u, reply', w, (later_kept scene).trans hfirst hu, hanswer', hw⟩
    rw [Recipe.Reads] at hreads
    split at hreads
    · obtain ⟨rest, rfl, hnext⟩ := hreads
      rcases List.mem_cons.mp hmem with rfl | hrestmem
      · exact ⟨s, reply, v, (later_kept scene).refl s, hanswer, later_of_follow hrest⟩
      · exact hlater rest hrestmem (hnext reply)
    · exact hlater reads hmem (hreads reply)

end Scene

end BlockScript
