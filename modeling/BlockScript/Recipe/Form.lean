import BlockScript.Recipe.Procedure

/-!
# The recipe of every rule

Which recipe a rule follows: that of its form, or one that always gives the
same.
-/

namespace BlockScript

/-- The rule method for a block of a known form, as `_register_common_rules` and the
    languages bind them to block types. -/
def BlockForm.recipe (scene : Scene) (ref : Ref) (block : Block Ref) :
    BlockForm → Recipe Product
  | .conditional => .conditional scene block
  | .whileLoop => .whileLoop scene ref block
  | .repeatLoop => .repeatLoop scene ref block
  | .flow => .flow scene block
  | .compare => .compare scene.dialect block
  | .logic => .logic scene.dialect block
  | .logicNot => .logicNot scene.dialect
  | .truthValue => .truthValue scene.dialect block
  | .nullValue => .nullValue scene.dialect
  | .ternary => .ternary scene.dialect
  | .number => .number scene.dialect block
  | .arithmetic => .arithmetic scene.dialect block
  | .modulo => .modulo scene.dialect
  | .single => .single scene.dialect block
  | .constant => .constant scene.dialect block
  | .property => .property scene.dialect block
  | .change => .change scene.dialect block
  | .onList => .onList scene.dialect block
  | .constrain => .constrain scene.dialect
  | .randomInteger => .randomInteger scene.dialect
  | .randomFraction => .randomFraction scene.dialect
  | .arcTangent => .arcTangent scene.dialect
  | .text => .text scene.dialect block
  | .variableValue => .variableValue block
  | .variableAssignment => .variableAssignment scene.dialect block
  | .procedureDefinition => .procedureDefinition scene ref block
  | .procedureCall => .procedureCall scene block
  | .procedureCallStatement => .procedureCallStatement scene block
  | .conditionalReturn => .conditionalReturn scene block

/-- The recipe that a handler follows for a block. -/
def Handler.recipe (scene : Scene) (ref : Ref) (block : Block Ref) : Handler → Recipe Product
  | .form known => known.recipe scene ref block
  | .always product => .done product

end BlockScript
