import BlockScript.Proofs.Code.Operand
import BlockScript.Proofs.Counting.Assigned
import BlockScript.Proofs.Number.Nearest
import Mathlib.Data.Nat.Prime.Defs

/-!
# Tests of integers

The tests of a number, run on integers. Division with remainder differs between the
languages: a remainder has the sign of the divisor in Python and Lua, and that of the
dividend in PHP. Whether it is zero does not depend on that, but an odd integer leaves
a remainder of one only where the sign is that of the divisor. So every test is right on
all integers, except that PHP takes no negative integer for odd.

Integers stay below 2 ^ 53, where their literals are their digits.

Results:

* `Regrouped.truth?_eq`: what a test gives does not depend on how a reader groups it.
* `Language.truth?_testTree`: what the tree of a test gives.
* `Scene.parse_property`: the text of a test is read as that tree.
* `Scene.property_truth`: what the test of an integer gives.
-/

namespace BlockScript

open BlockScript.Number BlockScript.Reading

/-! ## Integer arithmetic -/

/-- The remainder of a division. -/
def Language.remainder (language : Language) (a b : Int) : Int :=
  match language with
  | .python | .lua => a.fmod b
  | .php => a.tmod b

theorem Language.remainder_eq_zero_iff (language : Language) (a b : Int) :
    language.remainder a b = 0 ↔ b ∣ a := by
  cases language with
  | python | lua => exact Int.dvd_iff_fmod_eq_zero.symm
  | php => exact Int.dvd_iff_tmod_eq_zero.symm

/-- An odd integer leaves the remainder one, but not behind a minus sign in PHP. -/
theorem Language.remainder_two_eq_one_iff (language : Language) (a : Int) :
    language.remainder a 2 = 1 ↔ ¬2 ∣ a ∧ ¬(language = .php ∧ a < 0) := by
  cases language with
  | python | lua =>
    show a.fmod 2 = 1 ↔ _
    rw [Int.fmod_eq_emod_of_nonneg a (by decide)]
    simp only [reduceCtorEq, false_and, not_false_eq_true, and_true]
    omega
  | php =>
    show a.tmod 2 = 1 ↔ _
    rw [Int.tmod_eq_emod]
    simp only [true_and]
    split <;> omega

namespace Reading

namespace Expr

/-- The word that a tree is, if it is one. -/
def word? : Expr → Option String
  | .name word => some word
  | _ => none

/-- The integer that a tree evaluates to. -/
def integer? (language : Language) : Expr → Option Int
  | .number digits =>
    if digits ≠ "" ∧ digits.toList.all Char.isDigit = true then
      some (naturalOf digits.toList : Int)
    else none
  | .unary sign operand => if sign = "-" then (operand.integer? language).map (-·) else none
  | .binary sign left right =>
    if sign = "%" then do
      let a ← left.integer? language
      let b ← right.integer? language
      if b = 0 then none else some (language.remainder a b)
    else none
  | _ => none

/-- The truth value that a comparison of integers evaluates to, or the question of PHP
    whether a value is an integer. -/
def truth? (language : Language) : Expr → Option Bool
  | .binary sign left right => do
    let a ← left.integer? language
    let b ← right.integer? language
    if sign = "==" then some (decide (a = b))
    else if sign = "<" then some (decide (a < b))
    else if sign = ">" then some (decide (a > b))
    else none
  | .call callee [operand] =>
    if language = .php ∧ callee.word? = some "is_int" then
      (operand.integer? language).map fun _ => true
    else none
  | _ => none

end Expr

namespace Regrouped

variable {language : Language} {a b : Expr}

theorem word?_eq (h : Regrouped a b) : a.word? = b.word? := by
  induction h with
  | refl => rfl
  | symm _ ih => exact ih.symm
  | trans _ _ ih ih' => exact ih.trans ih'
  | _ => rfl

theorem integer?_eq (h : Regrouped a b) : a.integer? language = b.integer? language := by
  induction h with
  | refl => rfl
  | symm _ ih => exact ih.symm
  | trans _ _ ih ih' => exact ih.trans ih'
  | run a b c hsign =>
    have hno : ∀ sign ∈ runSigns, sign ≠ "%" := by decide
    simp only [Expr.integer?, hno _ hsign, if_false]
  | unary sign _ ih => simp only [Expr.integer?, ih]
  | binary sign _ _ ih ih' => simp only [Expr.integer?, ih, ih']
  | _ => rfl

/-- What a test gives does not depend on how a reader groups it. -/
theorem truth?_eq (h : Regrouped a b) : a.truth? language = b.truth? language := by
  induction h with
  | refl => rfl
  | symm _ ih => exact ih.symm
  | trans _ _ ih ih' => exact ih.trans ih'
  | @run sign a b c hsign =>
    have hno : ∀ sign ∈ runSigns, sign ≠ "==" ∧ sign ≠ "<" ∧ sign ≠ ">" := by decide
    simp [Expr.truth?, hno sign hsign]
  | binary sign hleft hright =>
    simp only [Expr.truth?, hleft.integer?_eq, hright.integer?_eq]
  | @callee f f' args hf =>
    match args with
    | [] => rfl
    | [operand] => simp only [Expr.truth?, hf.word?_eq]
    | _ :: _ :: _ => rfl
  | @arg a a' f before after ha =>
    match before, after with
    | [], [] => simp only [List.nil_append, Expr.truth?, ha.integer?_eq]
    | [], _ :: _ => rfl
    | [_], [] => rfl
    | [_], _ :: _ => rfl
    | _ :: _ :: _, _ => rfl
  | _ => rfl

end Regrouped

end Reading

/-! ## Properties -/

/-- Whether an integer has a property, where `d` is the divisor. -/
def NumberProperty.Holds (n d : Int) : NumberProperty → Prop
  | .even => 2 ∣ n
  | .odd => ¬2 ∣ n
  | .prime => n.toNat.Prime
  | .whole => True
  | .positive => 0 < n
  | .negative => n < 0
  | .divisibleBy => d ∣ n

/-- The tree of an integer has its value, and calls nothing. -/
theorem PhraseBook.integer?_numberTree {book : PhraseBook} (hminus : book.minus = "-") {n : Int}
    (hn : n.natAbs < 2 ^ 53) (language : Language) (allowed : String → Bool) :
    (book.numberTree (Double.ofInt n)).integer? language = some n ∧
      (book.numberTree (Double.ofInt n)).calls allowed = true := by
  have hdigits : (Expr.number (String.ofList (Decimal.digitsOf n.natAbs))).integer? language =
      some (n.natAbs : Int) := by
    have hne : String.ofList (Decimal.digitsOf n.natAbs) ≠ "" := by
      intro hempty
      have := congrArg String.toList hempty
      rw [String.toList_ofList] at this
      exact Nat.toDigits_ne_nil this
    have hall : (Decimal.digitsOf n.natAbs).all Char.isDigit = true :=
      List.all_eq_true.mpr fun c hc => isDigit_of_mem_digitsOf hc
    rw [Expr.integer?, if_pos ⟨hne, by rw [String.toList_ofList]; exact hall⟩,
      String.toList_ofList, naturalOf_digitsOf]
  unfold PhraseBook.numberTree
  rw [Double.literalOf?_ofInt hn]
  dsimp only
  rw [toString_eq_ofList, String.toList_ofList]
  by_cases hneg : n < 0
  · rw [if_pos hneg]
    show (Expr.unary book.minus (.number (String.ofList (Decimal.digitsOf n.natAbs)))).integer?
      language = some n ∧ _
    rw [Expr.integer?, hminus, if_pos rfl, hdigits, Option.map_some]
    exact ⟨congrArg some (show -(n.natAbs : Int) = n by omega), rfl⟩
  · rw [if_neg hneg]
    have hminus : ∀ cs, Decimal.digitsOf n.natAbs ≠ '-' :: cs := by
      intro cs heq
      have hdigit : '-'.isDigit = true :=
        isDigit_of_mem_digitsOf (n := n.natAbs) (heq ▸ List.mem_cons_self)
      cases hdigit
    split
    · next heq => exact absurd heq (hminus _)
    · rw [hdigits]
      exact ⟨congrArg some (by omega), rfl⟩

/-- The tree of an integer other than zero is not the number zero. -/
theorem isZero_eq_false {language : Language} {tree : Expr} {d : Int}
    (h : tree.integer? language = some d) (hd : d ≠ 0) : tree.isZero = false := by
  cases tree with
  | number digits =>
    refine decide_eq_false ?_
    rintro rfl
    exact hd (Option.some.inj h).symm
  | _ => rfl

section

variable {language : Language} {number divisor : Expr} {n d : Int} {property : NumberProperty}

/-- A comparison of a remainder. -/
theorem truth?_remainder {digits : String} {k : Int} (hnumber : number.integer? language = some n)
    (hdivisor : divisor.integer? language = some d) (hd : d ≠ 0)
    (hk : (Expr.number digits).integer? language = some k) :
    (Expr.binary "==" (.binary "%" number divisor) (.number digits)).truth? language =
      some (decide (language.remainder n d = k)) := by
  rw [Expr.truth?, hk, Expr.integer?, hnumber, hdivisor, if_pos rfl]
  simp [hd]

/-- What the test of a number without a divisor gives. -/
theorem truth?_test (hnumber : number.integer? language = some n)
    (hcalls : number.calls language.isFunctionName = true) (hprime : property ≠ .prime)
    (hdivisible : property ≠ .divisibleBy) :
    ((language.phrases.test property).filled [number]).calls language.isFunctionName = true ∧
      ∃ b, ((language.phrases.test property).filled [number]).truth? language = some b ∧
        (b = true ↔ property.Holds n d ∧ ¬(language = .php ∧ property = .odd ∧ n < 0)) := by
  have hzero : (Expr.number "0").integer? language = some 0 := rfl
  have hone : (Expr.number "1").integer? language = some 1 := rfl
  have htwo : (Expr.number "2").integer? language = some 2 := rfl
  cases property with
  | prime => exact absurd rfl hprime
  | divisibleBy => exact absurd rfl hdivisible
  | even =>
    have hshape : (language.phrases.test .even).filled [number] =
        .binary "==" (.binary "%" number (.number "2")) (.number "0") := by cases language <;> rfl
    rw [hshape, truth?_remainder hnumber htwo (by decide) hzero]
    refine ⟨by simp [Expr.calls, hcalls], _, rfl, ?_⟩
    simp [NumberProperty.Holds, language.remainder_eq_zero_iff]
  | odd =>
    have hshape : (language.phrases.test .odd).filled [number] =
        .binary "==" (.binary "%" number (.number "2")) (.number "1") := by cases language <;> rfl
    rw [hshape, truth?_remainder hnumber htwo (by decide) hone]
    refine ⟨by simp [Expr.calls, hcalls], _, rfl, ?_⟩
    rw [decide_eq_true_iff, language.remainder_two_eq_one_iff]
    simp [NumberProperty.Holds]
  | whole =>
    have htruth : ((language.phrases.test .whole).filled [number]).calls language.isFunctionName =
          true ∧
        ((language.phrases.test .whole).filled [number]).truth? language = some true := by
      cases language with
      | python | lua =>
        show (Expr.binary "==" (.binary "%" number (.number "1")) (.number "0")).calls _ = true ∧
          (Expr.binary "==" (.binary "%" number (.number "1")) (.number "0")).truth? _ = some true
        rw [truth?_remainder hnumber hone (by decide) hzero,
          decide_eq_true ((Language.remainder_eq_zero_iff _ n 1).mpr (one_dvd n))]
        exact ⟨by simp [Expr.calls, hcalls], rfl⟩
      | php =>
        show (Expr.call (.name "is_int") [number]).calls Php.isFunctionName = true ∧
          (Expr.call (.name "is_int") [number]).truth? .php = some true
        have hallowed : Php.isFunctionName "is_int" = true := by decide
        rw [Expr.truth?, if_pos ⟨rfl, rfl⟩, hnumber]
        exact ⟨by simp [Expr.calls, Expr.callsList, hallowed]; exact hcalls, rfl⟩
    exact ⟨htruth.1, true, htruth.2, by simp [NumberProperty.Holds]⟩
  | positive =>
    have hshape : (language.phrases.test .positive).filled [number] =
        .binary ">" number (.number "0") := by cases language <;> rfl
    rw [hshape, Expr.truth?, hnumber, hzero]
    exact ⟨by simp [Expr.calls, hcalls], decide (n > 0), rfl, by simp [NumberProperty.Holds]⟩
  | negative =>
    have hshape : (language.phrases.test .negative).filled [number] =
        .binary "<" number (.number "0") := by cases language <;> rfl
    rw [hshape, Expr.truth?, hnumber, hzero]
    exact ⟨by simp [Expr.calls, hcalls], decide (n < 0), rfl, by simp [NumberProperty.Holds]⟩

/-- What the test with a divisor gives. -/
theorem truth?_divisible (hnumber : number.integer? language = some n)
    (hcalls : number.calls language.isFunctionName = true)
    (hdivisor : divisor.integer? language = some d)
    (hcalls' : divisor.calls language.isFunctionName = true) (hd : d ≠ 0) :
    (language.phrases.divisible.filled [number, divisor]).calls language.isFunctionName = true ∧
      (language.phrases.divisible.filled [number, divisor]).truth? language =
        some (decide (d ∣ n)) := by
  have hshape : language.phrases.divisible.filled [number, divisor] =
      .binary "==" (.binary "%" number divisor) (.number "0") := by cases language <;> rfl
  rw [hshape, truth?_remainder (k := 0) hnumber hdivisor hd rfl]
  simp only [language.remainder_eq_zero_iff]
  exact ⟨by simp [Expr.calls, hcalls, hcalls'], trivial⟩

end

/-- The tree of a test of an integer, where `d` is the divisor. -/
def Language.testTree (language : Language) (n d : Int) : NumberProperty → Expr
  | .divisibleBy => language.phrases.divisible.filled
      [language.phrases.numberTree (Double.ofInt n), language.phrases.numberTree (Double.ofInt d)]
  | property => (language.phrases.test property).filled
      [language.phrases.numberTree (Double.ofInt n)]

/-- What the test of an integer gives. -/
theorem Language.truth?_testTree (language : Language) {property : NumberProperty} {n d : Int}
    (hn : n.natAbs < 2 ^ 53) (hprime : property ≠ .prime)
    (hdivides : property = .divisibleBy → d ≠ 0 ∧ d.natAbs < 2 ^ 53) :
    (language.testTree n d property).calls language.isFunctionName = true ∧
      ∃ b, (language.testTree n d property).truth? language = some b ∧
        (b = true ↔ property.Holds n d ∧ ¬(language = .php ∧ property = .odd ∧ n < 0)) := by
  have htree := fun {n : Int} (hn : n.natAbs < 2 ^ 53) =>
    PhraseBook.integer?_numberTree language.faithful.minus hn language language.isFunctionName
  by_cases hdivisible : property = .divisibleBy
  · obtain ⟨hne, hd⟩ := hdivides hdivisible
    subst hdivisible
    obtain ⟨hcalls, htruth⟩ :=
      truth?_divisible (htree hn).1 (htree hn).2 (htree hd).1 (htree hd).2 hne
    exact ⟨hcalls, _, htruth, by simp [NumberProperty.Holds]⟩
  · have hshape : language.testTree n d property = (language.phrases.test property).filled
        [language.phrases.numberTree (Double.ofInt n)] := by
      cases property <;> first | rfl | exact absurd rfl hdivisible
    rw [hshape]
    exact truth?_test (htree hn).1 (htree hn).2 hprime hdivisible

/-! ## Tests in programs -/

namespace Scene

variable {scene : Scene} {ref : Ref} {block : Block Ref} {s t : PassState} {language : Language}
  {n d : Int} {socket : String} {property : NumberProperty}

/-- Whether a block with a number stands in a socket, for an integer below 2 ^ 53, given
    as an integer or in another way that reads as it. -/
def HoldsInteger (scene : Scene) (block : Block Ref) (socket : String) (n : Int) : Prop :=
  n.natAbs < 2 ^ 53 ∧ ∃ target other, block.valueInput socket = some target ∧
    scene.HasForm target other .number ∧ doubleOf (other.field "NUM") = .ok (Double.ofInt n)

theorem HasForm.find?_eq_some {form : BlockForm} (h : scene.HasForm ref block form) :
    ∃ rule, scene.rules.find? block.type = some rule ∧ rule.handler = .form form := by
  obtain ⟨-, -, rule, hlookup, hform⟩ := h
  refine ⟨rule, ?_, hform⟩
  unfold RuleTable.lookup at hlookup
  split at hlookup
  · next hfound => rw [hfound, Except.ok.inj hlookup]
  · cases hlookup

/-- The tree of a block by its form. -/
theorem HasForm.treeWithin_eq {form : BlockForm} (h : scene.HasForm ref block form)
    (book : PhraseBook) (state : PassState) (room : Nat) :
    scene.treeWithin book state (room + 1) ref =
      scene.formTree book state (scene.treeWithin book state room) block form := by
  obtain ⟨rule, hfind, hform⟩ := h.find?_eq_some
  simp [treeWithin, h.1, hfind, hform, h.2.1]

theorem HasForm.holdsValue_eq {form : BlockForm} (h : scene.HasForm ref block form)
    (hrules : scene.rules.Known) : scene.holdsValue ref = form.isValue := by
  obtain ⟨rule, hfind, hform⟩ := h.find?_eq_some
  obtain ⟨form', hform', hkind⟩ := hrules block.type rule (by rw [RuleTable.lookup, hfind])
  cases hform.symm.trans hform'
  simp [holdsValue, h.1, h.2.1, hfind, hkind]

/-- The tree of an integer in a socket. -/
theorem HoldsInteger.operandTree_eq (h : scene.HoldsInteger block socket n)
    (hrules : scene.rules.Known) (book : PhraseBook) (state : PassState) (room : Nat)
    (fallback : Expr) :
    scene.operandTree (scene.treeWithin book state (room + 1)) block socket fallback =
      some (book.numberTree (Double.ofInt n)) := by
  obtain ⟨hn, target, other, hinput, hform, hnumber⟩ := h
  have hvalue : scene.holdsValue target = true := hform.holdsValue_eq hrules
  rw [operandTree, plugged_eq hinput, if_pos hvalue]
  show scene.treeWithin book state (room + 1) target = _
  rw [hform.treeWithin_eq, formTree, hnumber]
  rfl

/-- The tree of a test of an integer. -/
theorem testTree_of_property (hrules : scene.rules.Known)
    (hform : scene.HasForm ref block .property)
    (hproperty : chosen NumberProperty (block.field "PROPERTY") = .ok property)
    (hprime : property ≠ .prime) (hnumber : scene.HoldsInteger block "NUMBER_TO_CHECK" n)
    (hdivides : property = .divisibleBy → d ≠ 0 ∧ scene.HoldsInteger block "DIVISOR" d) :
    scene.operatorTree language.phrases s ref = some (language.testTree n d property) := by
  -- the graph has room for the operands
  obtain ⟨room, hroom⟩ : ∃ room, scene.graph.size = room + 1 :=
    Nat.exists_eq_succ_of_ne_zero
      (Nat.ne_of_gt (Nat.zero_lt_of_lt (Graph.lt_size_of_block? hform.1)))
  rw [operatorTree, hform.treeWithin_eq, hroom, formTree, hproperty, hnumber.operandTree_eq hrules]
  by_cases hdivisible : property = .divisibleBy
  · obtain ⟨hd, hdivisor⟩ := hdivides hdivisible
    subst hdivisible
    have hinteger := (PhraseBook.integer?_numberTree language.faithful.minus hdivisor.1 language
      language.isFunctionName).1
    simp [Except.toOption, hdivisor.operandTree_eq hrules, isZero_eq_false hinteger hd,
      Language.testTree]
  · cases property <;>
      first
        | exact absurd rfl hprime
        | exact absurd rfl hdivisible
        | rfl

variable {config : Config} {workspace : Workspace} {code : String} {tier : Tier}

/-- The text of a test of an integer is read as the tree of the test. -/
theorem parse_property (hform : (ofLanguage language config workspace).HasForm ref block .property)
    (hproperty : chosen NumberProperty (block.field "PROPERTY") = .ok property)
    (hprime : property ≠ .prime)
    (hnumber : (ofLanguage language config workspace).HoldsInteger block "NUMBER_TO_CHECK" n)
    (hdivides : property = .divisibleBy → d ≠ 0 ∧
      (ofLanguage language config workspace).HoldsInteger block "DIVISOR" d)
    (hs : (ofLanguage language config workspace).Reached s)
    (hrun : (ofLanguage language config workspace).renderPlace (some ref) s =
      (.ok (.value code tier), t)) :
    ∃ tree, language.grammar.parse code = some tree ∧
      Regrouped (language.testTree n d property) tree := by
  have hrules : (ofLanguage language config workspace).rules.Known := RuleTable.known_ofLanguage _
  obtain ⟨e, htree, hparse, -⟩ := parse_of_renderPlace language.faithful hrules hs hrun
  rw [testTree_of_property hrules hform hproperty hprime hnumber hdivides] at htree
  cases htree
  obtain ⟨hcalls, -⟩ := language.truth?_testTree hnumber.1 hprime
    fun hdivisible => ⟨(hdivides hdivisible).1, (hdivides hdivisible).2.1⟩
  obtain ⟨tree, hread, hregrouped, -⟩ := hparse hcalls
  exact ⟨tree, hread, hregrouped⟩

/-- The test whether an integer has a property gives whether it has it, in every language:
    the text of the test is read as an expression, which evaluates to that. Only PHP takes
    a negative odd integer for one that is not odd. -/
theorem property_truth
    (hform : (ofLanguage language config workspace).HasForm ref block .property)
    (hproperty : chosen NumberProperty (block.field "PROPERTY") = .ok property)
    (hprime : property ≠ .prime)
    (hnumber : (ofLanguage language config workspace).HoldsInteger block "NUMBER_TO_CHECK" n)
    (hdivides : property = .divisibleBy → d ≠ 0 ∧
      (ofLanguage language config workspace).HoldsInteger block "DIVISOR" d)
    (hs : (ofLanguage language config workspace).Reached s)
    (hrun : (ofLanguage language config workspace).renderPlace (some ref) s =
      (.ok (.value code tier), t)) :
    ∃ tree b, language.grammar.parse code = some tree ∧ tree.truth? language = some b ∧
      (b = true ↔ property.Holds n d ∧ ¬(language = .php ∧ property = .odd ∧ n < 0)) := by
  obtain ⟨tree, hread, hregrouped⟩ :=
    parse_property hform hproperty hprime hnumber hdivides hs hrun
  obtain ⟨-, b, htruth, hiff⟩ := language.truth?_testTree hnumber.1 hprime
    fun hdivisible => ⟨(hdivides hdivisible).1, (hdivides hdivisible).2.1⟩
  exact ⟨tree, b, hread, hregrouped.truth?_eq ▸ htruth, hiff⟩

/-! ### Negative integers -/

/-- A block with an integer. -/
def integerBlock (n : Int) : Block Ref :=
  { Block.ofType "math_number" with fields := [("NUM", .int n)] }

theorem holdsInteger_integerBlock (target : Ref)
    (hblock : workspace.graph.block? target = some (integerBlock n)) (hn : n.natAbs < 2 ^ 53)
    (hinput : block.valueInput socket = some target) :
    (ofLanguage language config workspace).HoldsInteger block socket n := by
  refine ⟨hn, target, _, hinput, ⟨hblock, rfl, ?_⟩,
    Double.doubleOf_int_iff.mpr ⟨rfl, Double.isFinite_ofInt_of_lt hn⟩⟩
  cases language <;> exact ⟨_, rfl, rfl⟩

/-- The test whether an integer is odd. -/
def oddTest : Block Ref :=
  { Block.ofType "math_number_property" with
    fields := [("PROPERTY", .text "ODD")], values := [("NUMBER_TO_CHECK", some 2)] }

/-- The test whether an integer is a multiple of another one. -/
def multipleTest : Block Ref :=
  { Block.ofType "math_number_property" with
    fields := [("PROPERTY", .text "DIVISIBLE_BY")],
    values := [("NUMBER_TO_CHECK", some 3), ("DIVISOR", some 4)] }

/-- The tests whether -3 is odd and whether it is a multiple of -2. -/
def negativeTests : Workspace where
  tops := [0, 1]
  graph := ⟨#[oddTest, multipleTest, integerBlock (-3), integerBlock (-3), integerBlock (-2)]⟩

theorem property_truth_negativeTests :
    (∃ t, (ofLanguage .php {} negativeTests).renderPlace (some 1) {} =
      (.ok (.value "-3 % -2 == 0" Php.equality), t)) ∧
    ∃ tree, Php.grammar.parse "-3 % -2 == 0" = some tree ∧ tree.truth? .php = some false := by
  have hrun := Pass.eq_of_toOption
    (p := (ofLanguage .php {} negativeTests).renderPlace (some 1)) (s := {})
    (a := .value "-3 % -2 == 0" Php.equality) (by decide +kernel)
  have hform : (ofLanguage .php {} negativeTests).HasForm 1 multipleTest .property :=
    ⟨rfl, rfl, _, rfl, rfl⟩
  have hproperty : chosen NumberProperty (multipleTest.field "PROPERTY") = .ok .divisibleBy := rfl
  obtain ⟨tree, b, hparse, htruth, hiff⟩ := property_truth (n := -3) (d := -2)
    hform hproperty (by decide)
    (holdsInteger_integerBlock 3 rfl (by decide) rfl)
    (fun _ => ⟨by decide, holdsInteger_integerBlock 4 rfl (by decide) rfl⟩)
    .start hrun
  have hfalse : b = false := by
    rw [← Bool.not_eq_true, hiff]
    exact fun h => absurd h.1 (by show ¬(-2 : Int) ∣ -3; decide)
  exact ⟨⟨_, hrun⟩, tree, hparse, hfalse ▸ htruth⟩

/-- PHP takes -3 for an integer that is not odd. -/
theorem negative_odd_not_odd :
    (∃ t, (ofLanguage .php {} negativeTests).renderPlace (some 0) {} =
      (.ok (.value "-3 % 2 == 1" Php.equality), t)) ∧
    (∃ tree, Php.grammar.parse "-3 % 2 == 1" = some tree ∧ tree.truth? .php = some false) ∧
    NumberProperty.odd.Holds (-3) 0 := by
  have hrun := Pass.eq_of_toOption
    (p := (ofLanguage .php {} negativeTests).renderPlace (some 0)) (s := {})
    (a := .value "-3 % 2 == 1" Php.equality) (by decide +kernel)
  have hform : (ofLanguage .php {} negativeTests).HasForm 0 oddTest .property :=
    ⟨rfl, rfl, _, rfl, rfl⟩
  obtain ⟨tree, hread, hregrouped⟩ := parse_property (n := -3) (d := 0) hform rfl (by decide)
    (holdsInteger_integerBlock 2 rfl (by decide) rfl)
    (fun hdivisible => absurd hdivisible (by decide)) .start hrun
  have htruth : (Language.php.testTree (-3) 0 .odd).truth? .php = some false := by decide +kernel
  exact ⟨⟨_, hrun⟩, ⟨tree, hread, hregrouped.truth?_eq ▸ htruth⟩,
    by show ¬(2 : Int) ∣ -3; decide⟩

end Scene

end BlockScript
