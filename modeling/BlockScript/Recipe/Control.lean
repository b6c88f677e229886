import BlockScript.Recipe.Arithmetic

/-!
# Conditionals, loops and jumps

The recipes for statements that hold other statements, and for the jumps out of
a loop body.
-/

namespace BlockScript.Recipe

open BlockScript.Number BlockScript.Text

variable (scene : Scene) (ref : Ref) (block : Block Ref)

/-! ## Conditionals -/

/-- The socket for the condition of an arm. -/
def conditionSocket (arm : Nat) : String :=
  "IF" ++ toString arm

/-- The socket for the body of an arm. -/
def bodySocket (arm : Nat) : String :=
  "DO" ++ toString arm

/-- The arms of a conditional: the first always, the others as long as their
    condition sockets are there. -/
def arms : List Nat :=
  let sockets := block.values.length + block.statements.length
  0 :: (List.range' 1 sockets).takeWhile fun arm => block.hasInput (conditionSocket arm)

/-- One round of the loop in `_controls_if`: an arm of a conditional. -/
def arm (number : Nat) : Recipe String := do
  let condition ← valueOr (conditionSocket number) .none false scene.dialect.falseLiteral
  let statements ← body (bodySocket number)
  let header := if number = 0 then scene.dialect.ifHeader else scene.dialect.elseIfHeader
  let suffix := scene.injectIndented scene.config.statementEnd block
  return header condition ++ scene.filled (suffix ++ statements)

/-- The arm for the case that no condition holds. It is there if the block has
    the socket, or to hold the hook for the end of the statement. -/
def otherwise : Recipe String := do
  if block.hasInput "ELSE" || scene.config.statementEnd ≠ "" then
    let statements ← body "ELSE"
    let suffix := scene.injectIndented scene.config.statementEnd block
    return scene.dialect.elseHeader ++ scene.filled (suffix ++ statements)
  else return ""

/-- `_controls_if`: a conditional. The hook for its end stands at the start of every
    arm. -/
def conditional : Recipe Product := do
  let arms ← forEach (arm scene block) (arms block)
  let last ← otherwise scene block
  return .text (scene.startHook block ++ concat arms ++ last ++ scene.dialect.blockEnd)

/-! ## Loops -/

/-- `_loop_body` and `_finish_loop_body`: the body of a loop. Where the language has
    no statement to go on with the next round, a label closes the body if a jump
    needs it. -/
def loopStatements : Recipe String := do
  let statements ← loopBody "DO"
  let statements ← ofExcept (scene.addLoopTrap statements block)
  match scene.dialect.continueLabel with
  | none => return scene.filled statements
  | some label =>
    let continued ← loopContinued ref
    return scene.filled
      (if continued then statements ++ scene.indent ++ label ++ "\n" else statements)

/-- How the condition of a loop is meant. A mode that counts as not given is
    `WHILE`. -/
def loopMode : Except Failure LoopMode :=
  match block.field? "MODE" with
  | some mode => if mode.isGiven then chosen LoopMode mode.toJson else .ok .while
  | none => .ok .while

/-- `_controls_while_until`: a loop with a condition. -/
def whileLoop : Recipe Product := do
  let dialect := scene.dialect
  let mode ← ofExcept (loopMode block)
  let condition ←
    match mode with
    | .until => do
      let condition ← valueOr "BOOL" dialect.logicNot.tier false dialect.falseLiteral
      pure (dialect.logicNot.text ++ condition)
    | .while => valueOr "BOOL" .none false dialect.falseLiteral
  let statements ← loopStatements scene ref block
  return .text (dialect.whileHeader condition ++ statements ++ dialect.blockEnd)

/-- `_repeat_times`: how often a loop repeats: the number in the field, or else the
    value in the socket. A number without a literal counts as zero. -/
def repeatCount : Recipe String :=
  match block.field? "TIMES" with
  | some times => do
    let code ← ofExcept (literal? times.toJson)
    return code.getD "0"
  | none => valueOr "TIMES" .none false "0"

/-- `DEFAULT_LOOP_VARIABLE`: the base of the identifiers of loop counters. -/
def counterBase : String := "count"

/-- The base of the identifiers of variables that hold a loop's bound. -/
def boundBase : String := "repeat_end"

/-- A count that is fixed when it is read: a number is truncated, anything else
    is put between `before` and `after`. -/
def truncatedCount (before after count : String) : String :=
  match finiteNumber? count with
  | some d => toString d.truncate
  | none => before ++ count ++ after

/-- `_controls_repeat_ext`: a loop with a count. -/
def repeatLoop : Recipe Product := do
  let dialect := scene.dialect
  let count ← repeatCount block
  let statements ← loopStatements scene ref block
  let counter ← freshName .variable counterBase
  match dialect.repeatCount with
  | .truncated before after =>
    let header := dialect.repeatHeader counter (truncatedCount before after count)
    return .text (header ++ statements ++ dialect.blockEnd)
  | .stored =>
    if isSingleWord count || isNumber count then
      return .text (dialect.repeatHeader counter count ++ statements ++ dialect.blockEnd)
    else
      let bound ← freshName .variable boundBase
      let assignment := dialect.statement (bound ++ " = " ++ count)
      return .text
        (assignment ++ dialect.repeatHeader counter bound ++ statements ++ dialect.blockEnd)

/-! ## Jumps -/

/-- The hook that opens the statement of a loop again ahead of a jump in its
    body. -/
def reopened (loop : Ref) : Except Failure String :=
  if scene.config.statementStart = "" then .ok ""
  else
    match scene.graph.block? loop with
    | none => .ok ""
    | some loopBlock => do
      let rule ← scene.rules.lookup loopBlock.type
      return if rule.suppressHooks then ""
        else scene.injectStatement scene.config.statementStart loopBlock

/-- `_controls_flow_statements`: a jump. The hook for its end would never be reached
    behind it and stands ahead of it. -/
def flow : Recipe Product := do
  let dialect := scene.dialect
  let jump ← ofExcept (chosen FlowStatement (block.field "FLOW"))
  if jump = .continue && dialect.continueLabel.isSome then markContinue
  let loop ← enclosingLoop
  let hook ←
    match loop with
    | none => do
      warn ⟨Choice.text jump, block.idText⟩
      pure ""
    | some loop => ofExcept (reopened scene loop)
  let code :=
    match jump with
    | .break => "break"
    | .continue => dialect.continueStatement
  return .text (scene.startHook block ++ scene.endHook block ++ hook ++ dialect.statement code)

end BlockScript.Recipe
