import Mathlib.Data.List.Forall2

/-!
# Expression trees

What a reader of a target language makes of the text of an expression. The
languages share one type of trees: a leaf is a word as it stands in the text,
and an operator is known by its sign. Parentheses leave no trace.

A conjunction or disjunction of several operands is one run, and every grouping
of it means the same. `Regrouped` relates two trees that differ in the grouping
of such runs only.

Results:

* `Regrouped.call`: calls whose callees and arguments are related are related.
-/

namespace BlockScript.Reading

/-- An expression as a reader understands it. -/
inductive Expr where
  | name (word : String)
  | number (digits : String)
  | text (literal : String)
  | emptyList
  | member (owner : Expr) (field : String)
  | call (callee : Expr) (args : List Expr)
  | unary (sign : String) (operand : Expr)
  | binary (sign : String) (left right : Expr)
  /-- A comparison whose left side is a comparison as well: `a < b < c` is
      `chain (a < b) "<" c`. -/
  | chain (first : Expr) (sign : String) (right : Expr)
  | choice (condition consequent alternative : Expr)

namespace Expr

/-- The number zero. -/
def zero : Expr := .number "0"

/-- Whether a tree is the number zero. -/
def isZero : Expr → Bool
  | .number digits => digits = "0"
  | _ => false

mutual

/-- Whether no two comparisons of the tree chain. -/
def chainFree : Expr → Bool
  | .name _ | .number _ | .text _ | .emptyList => true
  | .member owner _ => owner.chainFree
  | .call callee args => callee.chainFree && chainFreeList args
  | .unary _ operand => operand.chainFree
  | .binary _ left right => left.chainFree && right.chainFree
  | .chain .. => false
  | .choice condition consequent alternative =>
    condition.chainFree && consequent.chainFree && alternative.chainFree

/-- Whether no two comparisons chain in any of the trees. -/
def chainFreeList : List Expr → Bool
  | [] => true
  | tree :: trees => tree.chainFree && chainFreeList trees

end

theorem chainFreeList_iff {trees : List Expr} :
    chainFreeList trees = true ↔ ∀ tree ∈ trees, tree.chainFree = true := by
  induction trees with
  | nil => simp [chainFreeList]
  | cons tree trees ih => simp [chainFreeList, ih]

mutual

/-- Whether every word that is called in a tree is an allowed one. -/
def calls (allowed : String → Bool) : Expr → Bool
  | .name _ | .number _ | .text _ | .emptyList => true
  | .member owner _ => owner.calls allowed
  | .call (.name word) args => allowed word && callsList allowed args
  | .call callee args => callee.calls allowed && callsList allowed args
  | .unary _ operand => operand.calls allowed
  | .binary _ left right | .chain left _ right => left.calls allowed && right.calls allowed
  | .choice condition consequent alternative =>
    condition.calls allowed && consequent.calls allowed && alternative.calls allowed

/-- Whether every word that is called in the trees is an allowed one. -/
def callsList (allowed : String → Bool) : List Expr → Bool
  | [] => true
  | tree :: trees => tree.calls allowed && callsList allowed trees

end

mutual

/-- Without forbidden words every tree is in order. -/
theorem calls_of_forall {allowed : String → Bool} (h : ∀ word, allowed word = true)
    (tree : Expr) : tree.calls allowed = true := by
  cases tree with
  | name | number | text | emptyList => rfl
  | member owner field => exact calls_of_forall h owner
  | call callee args =>
    have hargs := callsList_of_forall h args
    cases callee with
    | name word => simp [calls, h, hargs]
    | _ => simp [calls, hargs, calls_of_forall h _]
  | unary sign operand => exact calls_of_forall h operand
  | binary sign left right => simp [calls, calls_of_forall h left, calls_of_forall h right]
  | chain left sign right => simp [calls, calls_of_forall h left, calls_of_forall h right]
  | choice condition consequent alternative =>
    simp [calls, calls_of_forall h condition, calls_of_forall h consequent,
      calls_of_forall h alternative]

theorem callsList_of_forall {allowed : String → Bool} (h : ∀ word, allowed word = true)
    (trees : List Expr) : callsList allowed trees = true := by
  cases trees with
  | nil => rfl
  | cons tree trees => simp [callsList, calls_of_forall h tree, callsList_of_forall h trees]

end

end Expr

/-! ## Runs -/

/-- The signs of conjunctions and disjunctions. -/
def runSigns : List String :=
  ["and", "or", "&&", "||"]

/-- Whether two trees differ in the grouping of conjunctions and disjunctions
    only. -/
inductive Regrouped : Expr → Expr → Prop where
  | refl (a : Expr) : Regrouped a a
  | symm {a b : Expr} : Regrouped a b → Regrouped b a
  | trans {a b c : Expr} : Regrouped a b → Regrouped b c → Regrouped a c
  | run {sign : String} (a b c : Expr) (h : sign ∈ runSigns) :
    Regrouped (.binary sign a (.binary sign b c)) (.binary sign (.binary sign a b) c)
  | member {a a' : Expr} (field : String) : Regrouped a a' →
    Regrouped (.member a field) (.member a' field)
  | callee {f f' : Expr} (args : List Expr) : Regrouped f f' →
    Regrouped (.call f args) (.call f' args)
  | arg {a a' : Expr} (f : Expr) (before after : List Expr) : Regrouped a a' →
    Regrouped (.call f (before ++ a :: after)) (.call f (before ++ a' :: after))
  | unary {a a' : Expr} (sign : String) : Regrouped a a' →
    Regrouped (.unary sign a) (.unary sign a')
  | binary {a a' b b' : Expr} (sign : String) : Regrouped a a' → Regrouped b b' →
    Regrouped (.binary sign a b) (.binary sign a' b')
  | choice {c c' a a' b b' : Expr} : Regrouped c c' → Regrouped a a' → Regrouped b b' →
    Regrouped (.choice c a b) (.choice c' a' b')

namespace Regrouped

theorem args {args args' : List Expr} (f : Expr) (before : List Expr)
    (h : List.Forall₂ Regrouped args args') :
    Regrouped (.call f (before ++ args)) (.call f (before ++ args')) := by
  induction h generalizing before with
  | nil => exact .refl _
  | @cons a a' as as' ha _ ih =>
    have hhead : Regrouped (.call f (before ++ a :: as)) (.call f (before ++ a' :: as)) :=
      .arg f before as ha
    have htail := ih (before ++ [a'])
    simp only [List.append_assoc, List.singleton_append] at htail
    exact hhead.trans htail

/-- Calls whose callees and arguments are related are related. -/
theorem call {f f' : Expr} {as as' : List Expr} (hf : Regrouped f f')
    (ha : List.Forall₂ Regrouped as as') : Regrouped (.call f as) (.call f' as') :=
  (hf.callee as).trans (args f' [] ha)

end Regrouped

end BlockScript.Reading
