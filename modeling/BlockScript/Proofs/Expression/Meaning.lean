import BlockScript.Pass.Render
import BlockScript.Proofs.Reading.Phrase

/-!
# The tree that blocks denote

What an expression block means, without regard to text: every rule has a phrase
whose operands are what is plugged into the sockets of the block, or else the
rule's fallback. A phrase book has the phrases of a language. The identifiers
are those that a pass has given out.

A socket is empty if nothing is plugged in, or nothing that is enabled and has a
value.
-/

namespace BlockScript

open BlockScript.Number BlockScript.Reading

/-! ## Phrase books -/

/-- A function that a phrase book calls: one that the language has, or a helper
    of a program. -/
inductive PhraseFunction where
  | path (word : String) (fields : List String)
  | helper (key : String)

/-- The phrases of a language. The holes are numbered in the order of the
    operands of a rule. -/
structure PhraseBook where
  truth : Bool → Phrase
  null : Phrase
  compare : CompareOp → Phrase
  logic : LogicOp → Phrase
  logicNot : Phrase
  /-- The condition, the value if it holds, and the value if not. -/
  ternary : Phrase
  arithmetic : ArithmeticOp → Phrase
  modulo : Phrase
  /-- The sign of a negation. -/
  minus : String
  single : SingleOp → Phrase
  constant : MathConstant → Phrase
  infinity : Phrase
  minusInfinity : Phrase
  notANumber : Phrase
  /-- The tests of one number that need no helper. -/
  test : NumberProperty → Phrase
  prime : PhraseFunction
  divisible : Phrase
  /-- The number, the least and the greatest value. -/
  constrain : Phrase
  low : Phrase
  high : Phrase
  onList : ListOp → PhraseFunction
  randomInteger : PhraseFunction
  randomFraction : Phrase
  /-- The two coordinates, `Y` first. -/
  arcTangent : Phrase

namespace PhraseBook

variable (book : PhraseBook)

/-- The tree of a number. A negative one is a negation. -/
def numberTree (d : Double) : Expr :=
  match literalOf? d with
  | some code =>
    match code.toList with
    | '-' :: digits => .unary book.minus (.number (String.ofList digits))
    | _ => .number code
  | none =>
    if d = .nan then book.notANumber.filled []
    else if d.isPositive then book.infinity.filled []
    else book.minusInfinity.filled []

end PhraseBook

/-! ## Names and sockets -/

namespace PassState

variable (state : PassState)

/-- The identifier of a name. -/
def identifier? (policy : NamePolicy) (kind : NameKind) (name : String) : Option String :=
  (state.names.assigned.lookup (kind, Text.lower name)).map (policy.sign kind ++ ·)

/-- The function name of a helper. -/
def helperName? (key : String) : Option String :=
  Json.find? state.definitions.helpers key

/-- A function as the callee of a call. -/
def callee? : PhraseFunction → Option Expr
  | .path word fields => some (pathTree word fields)
  | .helper key => (state.helperName? key).map .name

end PassState

namespace Scene

variable (scene : Scene)

/-- Whether a block is an enabled one whose rule gives a value. -/
def holdsValue (ref : Ref) : Bool :=
  (scene.graph.block? ref).any fun block =>
    block.enabled && (scene.rules.find? block.type).any Rule.isValue

/-- The value that is plugged into a socket. -/
def plugged (block : Block Ref) (socket : String) : Option Ref :=
  (block.valueInput socket).filter scene.holdsValue

/-- The tree of an operand: that of what is plugged in, or a fallback. -/
def operandTree (one : Ref → Option Expr) (block : Block Ref) (socket : String)
    (fallback : Expr) : Option Expr :=
  match scene.plugged block socket with
  | none => some fallback
  | some target => one target

/-! ## Blocks -/

variable (book : PhraseBook) (state : PassState)

/-- The tree that a side of a conjunction or disjunction falls back to: what does
    not matter if the other side is there, or else false. -/
def missingSide (op : LogicOp) (block : Block Ref) : Expr :=
  let empty := (scene.plugged block "A").isNone && (scene.plugged block "B").isNone
  (book.truth (!empty && op = .and)).filled []

/-- The trees of the arguments of a call, one for every parameter it declares. -/
def argTrees (one : Ref → Option Expr) (block : Block Ref) : List Nat → Option (List Expr)
  | [] => some []
  | i :: rest => do
    let arg ← scene.operandTree one block ("ARG" ++ toString i) (book.null.filled [])
    let args ← argTrees one block rest
    return arg :: args

/-- The text in a block for texts. -/
def textContent (block : Block Ref) : String :=
  match block.field? "TEXT" with
  | some scalar => if scalar.isGiven then scalar.toText else ""
  | none => ""

/-- The tree of a block whose rule has a certain form, where `one` gives the trees
    of what is plugged in. No number is divisible by a literal zero. -/
def formTree (one : Ref → Option Expr) (block : Block Ref) : BlockForm → Option Expr
  | .compare => do
    let op ← (chosen CompareOp (block.field "OP")).toOption
    let a ← scene.operandTree one block "A" .zero
    let b ← scene.operandTree one block "B" .zero
    return (book.compare op).filled [a, b]
  | .logic => do
    let op ← (chosen LogicOp (block.field "OP")).toOption
    let a ← scene.operandTree one block "A" (scene.missingSide book op block)
    let b ← scene.operandTree one block "B" (scene.missingSide book op block)
    return (book.logic op).filled [a, b]
  | .logicNot => do
    let condition ← scene.operandTree one block "BOOL" ((book.truth true).filled [])
    return book.logicNot.filled [condition]
  | .truthValue => some ((book.truth (block.textField? "BOOL" = some "TRUE")).filled [])
  | .nullValue => some (book.null.filled [])
  | .ternary => do
    let condition ← scene.operandTree one block "IF" ((book.truth false).filled [])
    let consequent ← scene.operandTree one block "THEN" (book.null.filled [])
    let alternative ← scene.operandTree one block "ELSE" (book.null.filled [])
    return book.ternary.filled [condition, consequent, alternative]
  | .number => do
    let d ← (doubleOf (block.field "NUM")).toOption
    return book.numberTree d
  | .arithmetic => do
    let op ← (chosen ArithmeticOp (block.field "OP")).toOption
    let a ← scene.operandTree one block "A" .zero
    let b ← scene.operandTree one block "B" .zero
    return (book.arithmetic op).filled [a, b]
  | .modulo => do
    let a ← scene.operandTree one block "DIVIDEND" .zero
    let b ← scene.operandTree one block "DIVISOR" .zero
    return book.modulo.filled [a, b]
  | .single => do
    let op ← (chosen SingleOp (block.field "OP")).toOption
    let number ← scene.operandTree one block "NUM" .zero
    return (book.single op).filled [number]
  | .constant => do
    let name ← (chosen MathConstant (block.field "CONSTANT")).toOption
    return (book.constant name).filled []
  | .property => do
    let property ← (chosen NumberProperty (block.field "PROPERTY")).toOption
    let number ← scene.operandTree one block "NUMBER_TO_CHECK" .zero
    match property with
    | .prime => return .call (← state.callee? book.prime) [number]
    | .divisibleBy => do
      let divisor ← scene.operandTree one block "DIVISOR" .zero
      return if divisor.isZero then (book.truth false).filled []
        else book.divisible.filled [number, divisor]
    | other => return (book.test other).filled [number]
  | .onList => do
    let op ← (chosen ListOp (block.field "OP")).toOption
    let items ← scene.operandTree one block "LIST" .emptyList
    return .call (← state.callee? (book.onList op)) [items]
  | .constrain => do
    let number ← scene.operandTree one block "VALUE" .zero
    let low ← scene.operandTree one block "LOW" (book.low.filled [])
    let high ← scene.operandTree one block "HIGH" (book.high.filled [])
    return book.constrain.filled [number, low, high]
  | .randomInteger => do
    let low ← scene.operandTree one block "FROM" .zero
    let high ← scene.operandTree one block "TO" .zero
    return .call (← state.callee? book.randomInteger) [low, high]
  | .randomFraction => some (book.randomFraction.filled [])
  | .arcTangent => do
    let x ← scene.operandTree one block "X" .zero
    let y ← scene.operandTree one block "Y" .zero
    return book.arcTangent.filled [y, x]
  | .text => some (.text (scene.dialect.quote (textContent block)))
  | .variableValue =>
    match block.field Workspace.variableField with
    | .str name => (state.identifier? scene.dialect.policy .variable name).map .name
    | _ => none
  | .procedureCall =>
    match block.field "NAME" with
    | .str name => do
      let word ← state.identifier? scene.dialect.policy .procedure name
      let params ← block.params.toOption
      let args ← scene.argTrees book one block (List.range params.length)
      return .call (.name word) args
    | _ => none
  | _ => none

/-- The tree of a block, with room for so many levels of nesting. -/
def treeWithin : Nat → Ref → Option Expr
  | 0, _ => none
  | room + 1, ref => do
    let block ← scene.graph.block? ref
    let rule ← scene.rules.find? block.type
    match rule.handler with
    | .form form =>
      if block.enabled then scene.formTree book state (treeWithin room) block form else none
    | .always _ => none

/-- The tree that a block denotes. -/
def operatorTree (ref : Ref) : Option Expr :=
  scene.treeWithin book state (scene.graph.size + 1) ref

end Scene

end BlockScript
