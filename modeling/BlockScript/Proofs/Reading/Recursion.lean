/-!
# Recursive partial functions

A function that may call itself without end is given by one step: what it does with its
argument if the calls are answered by some partial function. It has the results that
finitely deep calls have, and none for an argument whose calls never end. So it is the
least partial function that the step does not change, if the step gives no less once
more calls are answered.

Results:

* `least_eq`: the function calls itself.
* `least_induct`: what every step keeps, the function has.
-/

namespace BlockScript.Reading

/-! ## Results -/

/-- Whether a second result is the first one if there is a first one. -/
def Grows {γ : Type} (x y : Option γ) : Prop :=
  ∀ ⦃c⦄, x = some c → y = some c

theorem Grows.refl {γ : Type} (x : Option γ) : Grows x x :=
  fun _ h => h

theorem Grows.bind {γ δ : Type} {x y : Option γ} {f f' : γ → Option δ} (h : Grows x y)
    (hf : ∀ c, Grows (f c) (f' c)) : Grows (x >>= f) (y >>= f') := by
  intro d hd
  obtain ⟨c, hc, hfc⟩ := Option.bind_eq_some_iff.mp hd
  exact Option.bind_eq_some_iff.mpr ⟨c, h hc, hf c hfc⟩

/-! ## Functions -/

variable {α : Type} {β : α → Type}

/-- A function that may have no result. -/
abbrev PartialFunction (β : α → Type) : Type :=
  (a : α) → Option (β a)

/-- Whether a second function has all results of a first one. -/
def Below (f g : PartialFunction β) : Prop :=
  ∀ a, Grows (f a) (g a)

/-- Whether a step gives no less once more calls are answered. -/
def Growing (step : PartialFunction β → PartialFunction β) : Prop :=
  ∀ ⦃f g⦄, Below f g → Below (step f) (step g)

/-- Whether a step gives a result in the end, which is when it does so with answers that
    it gives in the end. -/
inductive Yields (step : PartialFunction β → PartialFunction β) : (a : α) → β a → Prop
  | intro {f : PartialFunction β} {a : α} {b : β a} (answers : ∀ a b, f a = some b → Yields step a b)
    (result : step f a = some b) : Yields step a b

open Classical in
/-- The function that a step defines. -/
noncomputable def least (step : PartialFunction β → PartialFunction β) : PartialFunction β :=
  fun a => if h : ∃ b, Yields step a b then some h.choose else none

variable {step : PartialFunction β → PartialFunction β}

/-- Two results for one argument are the same: the answers that they rest on are, so both
    can be had with the answers of both. -/
theorem Yields.unique (hstep : Growing step) {a : α} {b b' : β a} (h : Yields step a b)
    (h' : Yields step a b') : b = b' := by
  induction h with
  | @intro f a b answers result ih =>
    cases h' with
    | @intro g _ _ answers' result' =>
      let both : PartialFunction β := fun a => (f a).or (g a)
      have hfirst : Below f both := fun a b hb => by simp [both, hb]
      have hsecond : Below g both := by
        intro a c hc
        cases hf : f a with
        | none => simp [both, hf, hc]
        | some b => simp [both, hf, ih a b hf (answers' a c hc)]
      exact Option.some.inj ((hstep hfirst a result).symm.trans (hstep hsecond a result'))

theorem yields_of_least {a : α} {b : β a} (h : least step a = some b) : Yields step a b := by
  unfold least at h
  split at h
  · next hyields =>
    cases h
    exact hyields.choose_spec
  · cases h

theorem Yields.least_eq_some (hstep : Growing step) {a : α} {b : β a} (h : Yields step a b) :
    least step a = some b := by
  have hyields : ∃ b, Yields step a b := ⟨b, h⟩
  rw [least, dif_pos hyields, hyields.choose_spec.unique hstep h]

/-- The function that a step defines calls itself. -/
theorem least_eq (hstep : Growing step) : least step = step (least step) := by
  funext a
  refine Option.ext fun b => ⟨fun h => ?_, fun h => ?_⟩
  · cases yields_of_least h with
    | intro answers result =>
      exact hstep (fun a b hb => (answers a b hb).least_eq_some hstep) a result
  · exact (Yields.intro (fun _ _ => yields_of_least) h).least_eq_some hstep

/-- What every step keeps, the function that it defines has. -/
theorem least_induct {motive : (a : α) → β a → Prop}
    (hkeeps : ∀ f : PartialFunction β, (∀ a b, f a = some b → motive a b) →
      ∀ a b, step f a = some b → motive a b) {a : α} {b : β a} (h : least step a = some b) :
    motive a b := by
  have hyields := yields_of_least h
  clear h
  induction hyields with
  | @intro f a b answers result ih => exact hkeeps f ih a b result

end BlockScript.Reading
