import BlockScript.Proofs.Recipe.Asks
import BlockScript.Proofs.Text.Noted

/-!
# Recipes in step

Two recipes are in step if they come to the same requests and fail in the same way, where
the bodies that the first one is answered have comments in them and those of the second
one have none.

Results:

* `Recipe.InStep.bind`, `Recipe.inStep_forEach`: recipes put together from recipes in step.
* `Recipe.InStep.of_only`: a recipe that asks for no bodies.
-/

namespace BlockScript

open BlockScript.Text

/-! ## Answers and results -/

/-- Whether an answer to a request is another one with comments. -/
def Request.Replies (mark : List Char) : (request : Request) → request.Answer → request.Answer → Prop
  | .body .., reply, plain => Noted mark reply plain
  | _, reply, plain => reply = plain

/-- Whether what a recipe gives is the same but for comments. -/
inductive Product.Noted (mark : List Char) : Product → Product → Prop
  | nothing : Noted mark .nothing .nothing
  | text {code plain : String} (h : Annotates mark code.toList plain.toList) :
    Noted mark (.text code) (.text plain)
  | value (code : String) (tier : Tier) : Noted mark (.value code tier) (.value code tier)

namespace Recipe

variable {α β γ δ : Type} {mark : List Char} {R : α → β → Prop} {S : γ → δ → Prop}

/-- Whether recipes come to the same requests and failures, if those of the first are
    answered with comments and those of the second without. -/
inductive InStep (mark : List Char) (R : α → β → Prop) : Recipe α → Recipe β → Prop
  | done {a : α} {b : β} (h : R a b) : InStep mark R (.done a) (.done b)
  | fail (failure : Failure) : InStep mark R (.fail failure) (.fail failure)
  | ask (request : Request) {next : request.Answer → Recipe α} {plain : request.Answer → Recipe β}
    (h : ∀ reply plainReply, request.Replies mark reply plainReply →
      InStep mark R (next reply) (plain plainReply)) :
    InStep mark R (.ask request next) (.ask request plain)
  | define (key : String) {code plainCode : String}
    (hcode : Annotates mark code.toList plainCode.toList)
    (himport : startsWith importKey key = true → code = plainCode)
    {next : Unit → Recipe α} {plain : Unit → Recipe β} (h : InStep mark R (next ()) (plain ())) :
    InStep mark R (.ask (.define key code) next) (.ask (.define key plainCode) plain)

namespace InStep

theorem bind {recipe : Recipe α} {plain : Recipe β} {next : α → Recipe γ} {plainNext : β → Recipe δ}
    (h : InStep mark R recipe plain) (hnext : ∀ a b, R a b → InStep mark S (next a) (plainNext b)) :
    InStep mark S (recipe >>= next) (plain >>= plainNext) := by
  show InStep mark S (andThen recipe next) (andThen plain plainNext)
  induction h with
  | done h => exact hnext _ _ h
  | fail failure => exact .fail failure
  | ask request _ ih => exact .ask request fun reply plainReply hreply => ih reply plainReply hreply
  | define key hcode himport _ ih => exact .define key hcode himport ih

/-- Where the first results are the same, what comes next is in step for each of them. -/
theorem bind_eq {recipe plain : Recipe α} {next : α → Recipe γ} {plainNext : α → Recipe δ}
    (h : InStep mark Eq recipe plain) (hnext : ∀ a, InStep mark S (next a) (plainNext a)) :
    InStep mark S (recipe >>= next) (plain >>= plainNext) :=
  h.bind fun a _ heq => heq ▸ hnext a

/-- A recipe that asks for no bodies. -/
theorem of_only {recipe : Recipe α}
    (h : recipe.Only (fun request => ∀ socket loop, request ≠ .body socket loop) fun _ => True) :
    InStep mark Eq recipe recipe := by
  induction recipe with
  | done result => exact .done rfl
  | fail failure => exact .fail failure
  | ask request next ih =>
    refine .ask request fun reply plainReply hreply => ?_
    have heq : reply = plainReply := by
      cases request with
      | body socket loop => exact absurd rfl (h.1 socket loop)
      | _ => exact hreply
    subst heq
    exact ih reply (h.2 reply)

theorem mono {S : α → β → Prop} {recipe : Recipe α} {plain : Recipe β}
    (h : InStep mark R recipe plain) (hsub : ∀ a b, R a b → S a b) :
    InStep mark S recipe plain := by
  induction h with
  | done h => exact .done (hsub _ _ h)
  | fail failure => exact .fail failure
  | ask request _ ih => exact .ask request fun reply plainReply hreply => ih reply plainReply hreply
  | define key hcode himport _ ih => exact .define key hcode himport ih

end InStep

/-! ## Parts of recipes -/

theorem inStep_ofExcept (x : Except Failure α) : InStep mark Eq (ofExcept x) (ofExcept x) :=
  .of_only (only_ofExcept fun _ _ => trivial)

theorem inStep_value (socket : String) (tier : Tier) (strict : Bool) :
    InStep mark Eq (value socket tier strict) (value socket tier strict) :=
  .of_only (only_ask fun _ _ h => by cases h)

theorem inStep_valueOr (socket : String) (tier : Tier) (strict : Bool) (fallback : String) :
    InStep mark Eq (valueOr socket tier strict fallback) (valueOr socket tier strict fallback) :=
  .of_only (only_valueOr fun _ _ h => by cases h)

theorem inStep_nameOf (kind : NameKind) (name : Json) :
    InStep mark Eq (nameOf kind name) (nameOf kind name) :=
  .of_only (only_nameOf fun _ _ _ _ h => by cases h)

theorem inStep_freshName (kind : NameKind) (base : String) :
    InStep mark Eq (freshName kind base) (freshName kind base) :=
  .of_only (only_ask fun _ _ h => by cases h)

theorem inStep_body (socket : String) (loop : Bool) :
    InStep mark (Text.Noted mark) (.ask (.body socket loop) .done) (.ask (.body socket loop) .done) :=
  .ask _ fun _ _ hreply => .done hreply

/-- The results of one recipe for every item. -/
theorem inStep_forEach {ι : Type} {f : ι → Recipe α} {plain : ι → Recipe β}
    (h : ∀ item, InStep mark R (f item) (plain item)) (items : List ι) :
    InStep mark (List.Forall₂ R) (forEach f items) (forEach plain items) := by
  induction items with
  | nil => exact .done .nil
  | cons item items ih =>
    exact (h item).bind fun _ _ hfirst => ih.bind fun _ _ hrest => .done (.cons hfirst hrest)

theorem inStep_forEach_eq {ι : Type} {f : ι → Recipe α}
    (h : ∀ item, InStep mark Eq (f item) (f item)) (items : List ι) :
    InStep mark Eq (forEach f items) (forEach f items) :=
  (inStep_forEach h items).mono fun _ _ hall => by rwa [List.forall₂_eq_eq_eq] at hall

theorem noted_concat {texts plainTexts : List String}
    (h : List.Forall₂ (Text.Noted mark) texts plainTexts) :
    Text.Noted mark (concat texts) (concat plainTexts) := by
  induction h with
  | nil => exact .empty
  | cons hfirst _ ih => exact hfirst.append ih

end Recipe

end BlockScript
