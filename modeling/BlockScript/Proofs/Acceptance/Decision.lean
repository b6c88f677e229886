import BlockScript.Proofs.Acceptance.Check
import BlockScript.Proofs.Recipe.Modest
import BlockScript.Proofs.Text.Lines

/-!
# What recipes decide

A recipe decides a condition if it comes to a result where the condition holds and
fails where it does not, whatever the answers to its requests are. A request that
cannot be answered then means that the condition does not hold. The recipes of the
languages ask for sockets and names in different orders; the condition is what
remains the same.

Results:

* `Recipe.Decides.bind`: what composed recipes decide.
* `Language.visible`: no language has headers or statements that are blank.
* `Recipe.passes_iff`, `Recipe.passes_iff_of_ite`: what the check makes of a block.
-/

namespace BlockScript

open BlockScript.Text

/-! ## Decisions -/

namespace Recipe

variable {α β : Type} {fine : Request → Prop} {sound : (request : Request) → request.Answer → Prop}
  {P R : Prop} {Q : α → Prop} {S : β → Prop}

/-- Whether a recipe comes to a result, with a property, just if a condition holds.
    `fine` tells the requests that can be answered, `sound` the answers they can
    get. -/
def Decides (fine : Request → Prop) (sound : (request : Request) → request.Answer → Prop)
    (P : Prop) (Q : α → Prop) : Recipe α → Prop
  | .done result => P ∧ Q result
  | .fail _ => ¬P
  | .ask request next => (¬fine request → ¬P) ∧
    (fine request → ∀ reply, sound request reply → Decides fine sound P Q (next reply))

theorem Decides.congr {recipe : Recipe α} (h : recipe.Decides fine sound P Q) (hiff : P ↔ R) :
    recipe.Decides fine sound R Q :=
  propext hiff ▸ h

theorem Decides.mono {recipe : Recipe α} {T : α → Prop} (h : recipe.Decides fine sound P Q)
    (hsub : ∀ result, Q result → T result) : recipe.Decides fine sound P T := by
  induction recipe with
  | done result => exact ⟨h.1, hsub result h.2⟩
  | fail failure => exact h
  | ask request next ih => exact ⟨h.1, fun hfine reply hreply => ih reply (h.2 hfine reply hreply)⟩

/-- A condition that is known to hold can be added. -/
theorem Decides.and_left {recipe : Recipe α} (h : recipe.Decides fine sound P Q) (hR : R) :
    recipe.Decides fine sound (R ∧ P) Q :=
  h.congr ⟨fun hP => ⟨hR, hP⟩, And.right⟩

/-- What composed recipes decide. -/
theorem Decides.bind {recipe : Recipe α} {next : α → Recipe β}
    (h : recipe.Decides fine sound P Q)
    (hnext : ∀ result, Q result → (next result).Decides fine sound R S) :
    (recipe >>= next).Decides fine sound (P ∧ R) S := by
  show (andThen recipe next).Decides fine sound (P ∧ R) S
  induction recipe with
  | done result => exact (hnext result h.2).and_left h.1
  | fail failure => exact fun hboth => h hboth.1
  | ask request rest ih =>
    exact ⟨fun hno hboth => h.1 hno hboth.1,
      fun hfine reply hreply => ih reply (h.2 hfine reply hreply)⟩

theorem decides_done {result : α} (h : Q result) :
    (Recipe.done result).Decides fine sound True Q :=
  ⟨trivial, h⟩

/-- A result that goes through a function. -/
theorem Decides.map {recipe : Recipe α} {f : α → β} (h : recipe.Decides fine sound P Q)
    (hf : ∀ result, Q result → S (f result)) :
    (recipe >>= fun result => pure (f result)).Decides fine sound P S :=
  (h.bind fun result hresult => decides_done (hf result hresult)).congr (iff_of_eq (and_true P))

/-- A step ahead that decides nothing. -/
theorem Decides.after {recipe : Recipe α} {next : α → Recipe β}
    (h : recipe.Decides fine sound True Q)
    (hnext : ∀ result, Q result → (next result).Decides fine sound R S) :
    (recipe >>= next).Decides fine sound R S :=
  (h.bind hnext).congr (iff_of_eq (true_and R))

/-- A single request. -/
theorem decides_ask (request : Request) :
    (Recipe.ask request .done).Decides fine sound (fine request) (sound request) :=
  ⟨id, fun hfine _ hreply => ⟨hfine, hreply⟩⟩

/-- A result or failure that needs no request. -/
theorem decides_ofExcept (x : Except Failure α) :
    (ofExcept x).Decides fine sound (x.isOk = true) fun result => x = .ok result := by
  cases x with
  | ok result => exact ⟨rfl, rfl⟩
  | error failure => exact nofun

/-- The results of one recipe for every item. -/
theorem decides_forEach {ι : Type} {f : ι → Recipe α} {P : ι → Prop} (items : List ι)
    (h : ∀ item, (f item).Decides fine sound (P item) Q) :
    (forEach f items).Decides fine sound (∀ item ∈ items, P item) fun results =>
      results.length = items.length ∧ ∀ result ∈ results, Q result := by
  induction items with
  | nil => exact ⟨by simp, by simp⟩
  | cons item items ih =>
    refine ((h item).bind fun result hresult => ih.bind (R := True)
      fun results hresults => ?_).congr (by simp)
    exact decides_done ⟨by simp [hresults.1], by simpa [hresult] using hresults.2⟩

end Recipe

namespace Scene

/-! ## Requests that can be answered -/

variable (scene : Scene) (shape : Ref → Option Shape) (ref : Ref) (block : Block Ref)

/-- Whether a reference leads to no block without a rule. -/
def Ruled (ref : Ref) : Prop :=
  ∀ block, scene.graph.block? ref = some block → ∃ rule, scene.rules.lookup block.type = .ok rule

/-- Whether a request for a block can be answered, where `shape` tells the shapes of
    the blocks that are accepted. -/
def CanAnswer : Request → Prop
  | .value socket _ _ => Workspace.fillsValue shape block socket = true
  | .body socket _ => scene.workspace.holdsChain shape (block.statementInput socket) = true
  | _ => True

/-- What is known of the answers: a loop around a block has a rule. -/
def AnswerFits : (request : Request) → request.Answer → Prop
  | .enclosingLoop, loop => ∀ ref, loop = some ref → scene.Ruled ref
  | _, _ => True

/-- Whether a recipe decides a condition for a block. -/
abbrev DecidesFor {α : Type} (P : Prop) (Q : α → Prop) (recipe : Recipe α) : Prop :=
  recipe.Decides (scene.CanAnswer shape block) scene.AnswerFits P Q

end Scene

/-- Whether a product is of a shape. A statement is never blank. -/
def Product.HasShape : Shape → Product → Prop
  | .blank, product => product = .nothing
  | .statement, product => ∃ code, product = .text code ∧ isBlankText code = false
  | .value, product => ∃ code tier, product = .value code tier

/-- Whether the headers and statements of a dialect are never blank. -/
structure Dialect.Visible (dialect : Dialect) : Prop where
  ifHeader (condition : String) : isBlankText (dialect.ifHeader condition) = false
  elseIfHeader (condition : String) : isBlankText (dialect.elseIfHeader condition) = false
  whileHeader (condition : String) : isBlankText (dialect.whileHeader condition) = false
  repeatHeader (name count : String) : isBlankText (dialect.repeatHeader name count) = false
  continueStatement : isBlankText dialect.continueStatement = false
  changeStatement (name summand : String) :
    isBlankText (dialect.changeStatement name summand) = false

theorem Language.visible (language : Language) : language.dialect.Visible := by
  cases language <;>
    exact {
      ifHeader := fun condition => by
        simp [dialect, Python.dialect, Lua.dialect, Php.dialect, isBlankText_append,
          show isBlankText "if " = false by decide, show isBlankText "if (" = false by decide]
      elseIfHeader := fun condition => by
        simp [dialect, Python.dialect, Lua.dialect, Php.dialect, isBlankText_append,
          show isBlankText "elif " = false by decide, show isBlankText "elseif " = false by decide,
          show isBlankText "\x7d else if (" = false by decide]
      whileHeader := fun condition => by
        simp [dialect, Python.dialect, Lua.dialect, Php.dialect, isBlankText_append,
          show isBlankText "while " = false by decide, show isBlankText "while (" = false by decide]
      repeatHeader := fun name count => by
        simp [dialect, Python.dialect, Lua.dialect, Php.dialect, isBlankText_append,
          show isBlankText "for " = false by decide, show isBlankText "for (" = false by decide]
      continueStatement := by decide
      changeStatement := fun name summand => by
        simp [dialect, Python.dialect, Lua.dialect, Php.dialect, isBlankText_append,
          show isBlankText " = " = false by decide, show isBlankText " += " = false by decide,
          show isBlankText " = (" = false by decide] }

/-! ## The recipes of the forms -/

namespace Recipe

variable {scene : Scene} {shape : Ref → Option Shape} {ref : Ref} {block : Block Ref}

/-- What the check makes of a block of a form. -/
def Passes (scene : Scene) (shape : Ref → Option Shape) (block : Block Ref) (form : BlockForm) :
    Prop :=
  (form.sockets? block).any (scene.workspace.fillsSockets shape block) = true

/-! ### Single requests -/

theorem decides_value (socket : String) (tier : Tier) (strict : Bool) :
    scene.DecidesFor shape block (Workspace.fillsValue shape block socket = true) (fun _ => True)
      (value socket tier strict) :=
  (decides_ask (.value socket tier strict)).mono fun _ _ => trivial

theorem decides_valueOr (socket : String) (tier : Tier) (strict : Bool) (fallback : String) :
    scene.DecidesFor shape block (Workspace.fillsValue shape block socket = true) (fun _ => True)
      (valueOr socket tier strict fallback) :=
  (decides_value socket tier strict).map fun _ _ => trivial

theorem decides_body (socket : String) (loop : Bool) :
    scene.DecidesFor shape block
      (scene.workspace.holdsChain shape (block.statementInput socket) = true) (fun _ => True)
      (.ask (.body socket loop) .done) :=
  (decides_ask (.body socket loop)).mono fun _ _ => trivial

theorem decides_nameOf (kind : NameKind) (name : Json) :
    scene.DecidesFor shape block (name.isText = true) (fun _ => True) (nameOf kind name) := by
  cases name with
  | str name => exact ⟨fun h => absurd trivial h, fun _ _ _ => ⟨rfl, trivial⟩⟩
  | _ => exact nofun

theorem decides_freshName (kind : NameKind) (base : String) :
    scene.DecidesFor shape block True (fun _ => True) (freshName kind base) :=
  decides_ask (.freshName kind base)

theorem decides_importAll (statements : List String) :
    scene.DecidesFor shape block True (fun _ => True) (importAll statements) := by
  induction statements with
  | nil => exact decides_done trivial
  | cons statement statements ih =>
    exact (decides_ask (.define (importKey ++ statement) statement)).after fun _ _ => ih

theorem decides_helper (key template : String) :
    scene.DecidesFor shape block True (fun _ => True) (helper key template) :=
  decides_ask (.helper key template)

theorem decides_calleeName (callee : Callee) :
    scene.DecidesFor shape block True (fun _ => True) (calleeName callee) := by
  cases callee with
  | function name imports => exact (decides_importAll imports).map fun _ _ => trivial
  | helper form =>
    exact (decides_importAll form.imports).after fun _ _ => decides_helper form.key form.template

/-! ### Forms -/

/-- Whether a recipe decides for a form what the check does, with a product of the
    form's shape. -/
abbrev DecidesForm (scene : Scene) (shape : Ref → Option Shape) (block : Block Ref)
    (form : BlockForm) (recipe : Recipe Product) : Prop :=
  scene.DecidesFor shape block (Passes scene shape block form) (Product.HasShape form.shape) recipe

/-- What the check makes of a block whose sockets depend on no field. -/
theorem passes_iff {form : BlockForm} {values bodies : List String}
    (h : form.sockets? block = some ⟨values, bodies⟩) :
    Passes scene shape block form ↔
      (∀ socket ∈ values, Workspace.fillsValue shape block socket = true) ∧
        ∀ socket ∈ bodies,
          scene.workspace.holdsChain shape (block.statementInput socket) = true := by
  simp [Passes, h, Workspace.fillsSockets]

/-- What the check makes of a block that a field can rule out. -/
theorem passes_iff_of_ite {form : BlockForm} {values bodies : List String} {p : Bool}
    (h : form.sockets? block = if p then some ⟨values, bodies⟩ else none) :
    Passes scene shape block form ↔ p = true ∧
      (∀ socket ∈ values, Workspace.fillsValue shape block socket = true) ∧
        ∀ socket ∈ bodies,
          scene.workspace.holdsChain shape (block.statementInput socket) = true := by
  cases p <;> simp [Passes, h, Workspace.fillsSockets]

end Recipe

end BlockScript
