import BlockScript.Proofs.Code.Outline
import BlockScript.Proofs.Expression.Meaning
import BlockScript.Proofs.Names.Pass
import BlockScript.Recipe.Form

/-!
# The parts of a program

What the lines of a program are there for. Every line belongs to a block and has a
role, and the blocks that are plugged into each other give the lines that stand
inside each other. `partsWithin` tells which parts a block stands for, without
regard to text; `Spells` tells what the text of a part can be.

A block inside a loop needs to know the loop, as a jump out of it opens the
statement of the loop again.
-/

namespace BlockScript

open BlockScript.Text

/-- What lines are there for. -/
inductive Role where
  /-- The comments above a statement. -/
  | comment
  /-- The snippet ahead of a statement. -/
  | opening
  /-- The snippet after a statement. -/
  | closing
  /-- The snippet at the start of a body. -/
  | trap
  /-- A statement with none inside it. -/
  | statement
  /-- A value on its own. -/
  | value
  | jump (flow : FlowStatement)
  /-- A return. -/
  | giveBack
  /-- An arm of a conditional, by its number, with the socket of its condition. -/
  | branch (arm : Nat) (socket : String)
  /-- The arm for the case that no condition holds. -/
  | otherwise
  | loop
  /-- The assignment of a loop's bound. -/
  | bound
  /-- The label at the end of a loop body. -/
  | label
  | procedure
  /-- The declaration of outer variables. -/
  | outer
  /-- The statement in an otherwise empty body. -/
  | filler
  /-- What closes a conditional, a loop or a procedure. -/
  | closer
  deriving DecidableEq, Repr

/-- Lines with their roles and the blocks that they belong to. -/
abbrev Layout := Outline (Role × Ref)

/-- Whether there is a jump to the next round of the loop around the lines. -/
def Layout.continues : Layout → Bool
  | .nil => false
  | .line (.jump .continue, _) _ _ => true
  | .line (.loop, _) _ rest => continues rest
  | .line _ inside rest => continues inside || continues rest

/-- Whether a word is that of a variable or a procedure. -/
def NamePolicy.IsName (policy : NamePolicy) (text : String) : Prop :=
  ∃ kind word, text = policy.sign kind ++ word ∧ policy.Fits kind word

/-- Whether blocks of a form are statements with none inside them. -/
def BlockForm.isSimple : BlockForm → Bool
  | .variableAssignment | .change | .procedureCallStatement => true
  | _ => false

namespace Scene

variable (scene : Scene)

/-! ## Texts of parts -/

/-- Whether a recipe for a block can have a result during a pass. -/
def Yields {α : Type} (ref : Ref) (block : Block Ref) (recipe : Recipe α) (result : α) : Prop :=
  ∃ room s t, s.Named scene.dialect.policy ∧
    scene.follow (scene.renderWithin room) ref block recipe s = (.ok result, t)

/-- Whether a text is the condition of a loop. -/
def IsCondition (ref : Ref) (block : Block Ref) (condition : String) : Prop :=
  ∃ mode code, Recipe.loopMode block = .ok mode ∧
    match mode with
    | .while => condition = code ∧
      scene.Yields ref block (Recipe.valueOr "BOOL" .none false scene.dialect.falseLiteral) code
    | .until => condition = scene.dialect.logicNot.text ++ code ∧
      scene.Yields ref block
        (Recipe.valueOr "BOOL" scene.dialect.logicNot.tier false scene.dialect.falseLiteral) code

/-- Whether a text is the bound of a loop with a count, as it stands in the
    header. -/
def IsBound (count bound : String) : Prop :=
  match scene.dialect.repeatCount with
  | .truncated before after => bound = Recipe.truncatedCount before after count
  | .stored => bound = count ∨ ∃ word, bound = scene.dialect.policy.sign .variable ++ word ∧
      scene.dialect.policy.Fits .variable word

/-- Whether a text is the header of a loop. -/
def IsLoopHeader (ref : Ref) (block : Block Ref) (text : String) : Prop :=
  (∃ condition, scene.IsCondition ref block condition ∧
      text = scene.dialect.whileHeader condition) ∨
    ∃ counter count bound, scene.dialect.policy.IsName counter ∧
      scene.Yields ref block (Recipe.repeatCount block) count ∧ scene.IsBound count bound ∧
      text = scene.dialect.repeatHeader counter bound

/-- Whether a text is what a return gives back. -/
def IsReturned (ref : Ref) (block : Block Ref) (value : String) : Prop :=
  scene.Yields ref block (Recipe.value "RETURN" .none false) value ∧ value ≠ "" ∨
    scene.Yields ref block (Recipe.valueOr "VALUE" .none false scene.dialect.nullLiteral) value

/-- Whether a text spells a part of a block. -/
def SpellsOf (ref : Ref) (block : Block Ref) (text : String) : Role → Prop
  | .comment => text = scene.commentLines ref
  | .opening => text = scene.startHook block
  | .closing => text = scene.endHook block
  | .trap => text = scene.injectStatement scene.config.loopTrap block
  | .statement => ∃ rule form, scene.rules.lookup block.type = .ok rule ∧
      rule.handler = .form form ∧ form.isSimple = true ∧
      scene.Yields ref block (form.recipe scene ref block) (.text text)
  | .value => ∃ room code tier s t, s.Named scene.dialect.policy ∧
      scene.renderWithin room ref s = (.ok (.value code tier), t) ∧
      text = scene.dialect.nakedValue code
  | .jump .break => text = scene.dialect.statement "break"
  | .jump .continue => text = scene.dialect.statement scene.dialect.continueStatement
  | .giveBack => text = scene.dialect.statement "return" ∨
      ∃ value, scene.IsReturned ref block value ∧
        text = scene.dialect.statement ("return " ++ value)
  | .branch arm socket => ∃ condition,
      scene.Yields ref block (Recipe.valueOr socket .none false scene.dialect.falseLiteral)
        condition ∧
      text = (if arm = 0 then scene.dialect.ifHeader else scene.dialect.elseIfHeader) condition
  | .otherwise => text = scene.dialect.elseHeader
  | .loop => scene.IsLoopHeader ref block text
  | .bound => ∃ name count, scene.dialect.policy.IsName name ∧
      scene.Yields ref block (Recipe.repeatCount block) count ∧
      text = scene.dialect.statement (name ++ " = " ++ count)
  | .label => ∃ label, scene.dialect.continueLabel = some label ∧ text = label ++ "\n"
  | .procedure => ∃ name args, scene.dialect.policy.IsName name ∧
      (∀ arg ∈ args, scene.dialect.policy.IsName arg) ∧
      text = scene.dialect.procedureHeader name (joinWith ", " args)
  | .outer => ∃ declaration names, scene.dialect.globalDeclaration = some declaration ∧
      names ≠ [] ∧ (∀ name ∈ names, scene.dialect.policy.IsName name) ∧
      text = declaration (joinWith ", " names)
  | .filler => ∃ filler, scene.dialect.emptyBody = some filler ∧
      text = scene.dialect.statement filler
  | .closer => text = scene.dialect.blockEnd ∨ text = scene.dialect.procedureEnd

/-- Whether a text spells a part. -/
def Spells (part : Role × Ref) (text : String) : Prop :=
  text ≠ "" ∧ ∃ block, scene.graph.block? part.2 = some block ∧
    scene.SpellsOf part.2 block text part.1

/-- Whether lines are the text of some parts. -/
def IsCode (text : String) (parts : Layout) : Prop :=
  ∃ code : Outline ((Role × Ref) × String), code.map Prod.fst = parts ∧
    code.All (fun line => scene.Spells line.1 line.2) ∧
    (code.map Prod.snd).text scene.indent = text

/-! ## Pieces that the configuration decides on -/

/-- A part on its own, if there is a text for it. -/
def piece (role : Role) (ref : Ref) (text : String) : Layout :=
  if text = "" then .nil else .single (role, ref)

/-- The comments above a block. -/
def comments (ref : Ref) : Layout :=
  piece .comment ref (scene.commentLines ref)

/-- The snippet ahead of the statement of a block. -/
def opening (ref : Ref) (block : Block Ref) : Layout :=
  piece .opening ref (scene.startHook block)

/-- The snippet after the statement of a block. -/
def closing (ref : Ref) (block : Block Ref) : Layout :=
  piece .closing ref (scene.endHook block)

/-- The snippet at the start of the body of a block. -/
def trapping (ref : Ref) (block : Block Ref) : Layout :=
  piece .trap ref (scene.injectStatement scene.config.loopTrap block)

/-- What closes a conditional or a loop. -/
def closer (ref : Ref) : Layout :=
  piece .closer ref scene.dialect.blockEnd

/-- A body, where a statement stands in for none if the language needs one. -/
def fill (ref : Ref) : Layout → Layout
  | .nil =>
    match scene.dialect.emptyBody with
    | none => .nil
    | some _ => .single (.filler, ref)
  | .line part inside rest => .line part inside rest

/-- The snippet ahead of the statement of the loop around a jump. -/
def reopening : Option Ref → Layout
  | none => .nil
  | some loop =>
    match scene.graph.block? loop with
    | none => .nil
    | some block =>
      match scene.rules.find? block.type with
      | none => .nil
      | some rule => if rule.suppressHooks then .nil else scene.opening loop block

/-! ## The parts of blocks

Below, `one` tells which parts a single block stands for inside a loop. -/

section Blocks

variable (one : Option Ref → Ref → Layout → Prop)

/-- The parts of the blocks of a chain. -/
def ChainParts (loop : Option Ref) : List Ref → Layout → Prop
  | [], parts => parts = .nil
  | ref :: refs, parts => ∃ first rest, one loop ref first ∧ ChainParts loop refs rest ∧
      parts = first ++ rest

/-- The parts of the chain in a statement socket. -/
def BodyParts (loop : Option Ref) (block : Block Ref) (socket : String) (parts : Layout) : Prop :=
  ChainParts one loop (scene.graph.chainFrom [] (block.statementInput socket)).1 parts

/-- An arm of a conditional. -/
def ArmParts (loop : Option Ref) (ref : Ref) (block : Block Ref) (arm : Nat) (parts : Layout) :
    Prop :=
  ∃ body, scene.BodyParts one loop block (Recipe.bodySocket arm) body ∧
    parts = .block (.branch arm (Recipe.conditionSocket arm), ref)
      (scene.fill ref (scene.closing ref block ++ body))

/-- The arm for the case that no condition holds, if there is one. -/
def OtherwiseParts (loop : Option Ref) (ref : Ref) (block : Block Ref) (parts : Layout) : Prop :=
  if block.hasInput "ELSE" || scene.config.statementEnd ≠ "" then
    ∃ body, scene.BodyParts one loop block "ELSE" body ∧
      parts = .block (.otherwise, ref) (scene.fill ref (scene.closing ref block ++ body))
  else parts = .nil

/-- The inside of a loop: each round closes the statement of the loop and opens it
    again. A label is at the end if a jump needs it. -/
def LoopParts (ref : Ref) (block : Block Ref) (parts : Layout) : Prop :=
  ∃ body labelled, scene.BodyParts one (some ref) block "DO" body ∧
    (labelled = true → scene.dialect.continueLabel.isSome = true) ∧
    (body.continues = true → scene.dialect.continueLabel.isSome = true → labelled = true) ∧
    parts = scene.fill ref (scene.closing ref block ++ scene.trapping ref block ++ body ++
      scene.opening ref block ++ if labelled then .single (.label, ref) else .nil)

/-- The parts that the rule for a form of statements makes of a block. -/
inductive RuleParts (loop : Option Ref) (ref : Ref) (block : Block Ref) : BlockForm → Layout → Prop
  | conditional {arms : List Layout} {last : Layout}
    (harms : List.Forall₂ (scene.ArmParts one loop ref block) (Recipe.arms block) arms)
    (hlast : scene.OtherwiseParts one loop ref block last) :
    RuleParts loop ref block .conditional
      (scene.opening ref block ++ .concat arms ++ last ++ scene.closer ref)
  | whileLoop {inside : Layout} (hinside : scene.LoopParts one ref block inside) :
    RuleParts loop ref block .whileLoop (.block (.loop, ref) inside ++ scene.closer ref)
  | repeatLoop {inside : Layout} {stored : Bool}
    (hstored : stored = true → scene.dialect.repeatCount = .stored)
    (hinside : scene.LoopParts one ref block inside) :
    RuleParts loop ref block .repeatLoop
      ((if stored then .single (.bound, ref) else .nil) ++ .block (.loop, ref) inside ++
        scene.closer ref)
  | flow {jump : FlowStatement} (hjump : chosen FlowStatement (block.field "FLOW") = .ok jump) :
    RuleParts loop ref block .flow
      (scene.opening ref block ++ scene.closing ref block ++ scene.reopening loop ++
        .single (.jump jump, ref))
  | conditionalReturn :
    RuleParts loop ref block .conditionalReturn
      (.block (.branch 0 "CONDITION", ref) (scene.closing ref block ++ .single (.giveBack, ref)) ++
        scene.closer ref)
  | simple {form : BlockForm} (hform : form.isSimple = true) :
    RuleParts loop ref block form (.single (.statement, ref))

/-- The parts that a block stands for. A definition stands for none here. -/
inductive BlockParts (loop : Option Ref) (ref : Ref) : Layout → Prop
  | absent (hblock : scene.graph.block? ref = none) : BlockParts loop ref .nil
  | disabled {block : Block Ref} (hblock : scene.graph.block? ref = some block)
    (hdisabled : block.enabled = false) : BlockParts loop ref .nil
  | definition {block : Block Ref} {rule : Rule} (hblock : scene.graph.block? ref = some block)
    (henabled : block.enabled = true) (hrule : scene.rules.lookup block.type = .ok rule)
    (hform : rule.handler = .form .procedureDefinition) : BlockParts loop ref .nil
  | statement {block : Block Ref} {rule : Rule} {form : BlockForm} {parts : Layout}
    (hblock : scene.graph.block? ref = some block) (henabled : block.enabled = true)
    (hrule : scene.rules.lookup block.type = .ok rule) (hform : rule.handler = .form form)
    (hparts : scene.RuleParts one loop ref block form parts) :
    BlockParts loop ref (scene.comments ref ++
      if rule.suppressHooks then parts
      else scene.opening ref block ++ parts ++ scene.closing ref block)

/-- After the body of a procedure that ran, the snippets of the definition stand once
    more ahead of the return. -/
def revisited (ref : Ref) (block : Block Ref) (body : Layout) : Layout :=
  if body ≠ .nil ∧ (scene.plugged block "RETURN").isSome then
    scene.opening ref block ++ scene.closing ref block
  else .nil

/-- The return at the end of a procedure, if a value is plugged in for it. -/
def givenBack (ref : Ref) (block : Block Ref) : Layout :=
  if (scene.plugged block "RETURN").isSome then .single (.giveBack, ref) else .nil

/-- The inside of a procedure. -/
def procedureInside (ref : Ref) (block : Block Ref) (body outer : Layout) : Layout :=
  scene.fill ref (outer ++ (scene.opening ref block ++ scene.closing ref block) ++
    scene.trapping ref block ++ body ++ (scene.revisited ref block body ++
      scene.givenBack ref block))

/-- The inside of the procedure that a definition stands for. -/
def ProcedureBody (loop : Option Ref) (ref : Ref) (inside : Layout) : Prop :=
  ∃ block rule body, ∃ declared : Bool, scene.graph.block? ref = some block ∧
    block.enabled = true ∧ scene.rules.lookup block.type = .ok rule ∧
    rule.handler = .form .procedureDefinition ∧ scene.BodyParts one loop block "STACK" body ∧
    inside = scene.procedureInside ref block body
      (if declared then .single (.outer, ref) else .nil)

end Blocks

/-- A whole procedure, from what is inside it. -/
def procedureParts (ref : Ref) (inside : Layout) : Layout :=
  scene.comments ref ++ .block (.procedure, ref) inside ++
    piece .closer ref scene.dialect.procedureEnd

/-- The parts that a block stands for inside a loop, with so many levels of nesting
    inside it. -/
def partsWithin : Nat → Option Ref → Ref → Layout → Prop
  | 0 => fun _ _ _ => False
  | room + 1 => scene.BlockParts (partsWithin room)

/-- The parts of what starts at the top: a value on its own, or a chain. -/
def TopParts (room : Nat) (ref : Ref) (parts : Layout) : Prop :=
  if scene.holdsValue ref then
    ∃ block, scene.graph.block? ref = some block ∧
      parts = scene.comments ref ++ scene.opening ref block ++ .single (.value, ref) ++
        scene.closing ref block
  else ChainParts (scene.partsWithin room) none (scene.graph.chainFrom [] (some ref)).1 parts

end Scene

end BlockScript
