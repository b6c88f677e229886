/-!
# Precedence tiers

Every piece of expression text has a tier that tells how tightly its outermost
operator binds: the lower, the tighter. A position in a template asks for a
tier, and a looser operand is put between parentheses.
-/

namespace BlockScript

/-- A precedence tier. -/
abbrev Tier := Int

namespace Tier

/-- The tier of text that nothing can tear apart. -/
def atomic : Tier := 0

/-- The tier of a position that takes any expression as it is. -/
def none : Tier := 99

/-- `needs_parens`: whether an operand of tier `inner` needs parentheses where
    `outer` is asked for. A strict position does not take an operand of its own tier
    either. -/
def needsParens (inner outer : Tier) (strict : Bool) : Bool :=
  if inner = atomic then false
  else if none ≤ outer then false
  else if strict then outer ≤ inner
  else outer < inner

end Tier

/-- `Associativity`: on which sides a binary operator takes an operand of its own
    tier. -/
inductive Associativity where
  | left | right | both | neither
  deriving DecidableEq, Repr

namespace Associativity

/-- The name of an associativity. -/
def name : Associativity → String
  | .left => "left"
  | .right => "right"
  | .both => "both"
  | .neither => "neither"

/-- The associativity with a name. -/
def ofName? (name : String) : Option Associativity :=
  [left, right, both, neither].find? fun associativity => associativity.name = name

/-- `Associativity.strict_left`: whether the left operand has to bind tighter than
    the operator. -/
def strictLeft : Associativity → Bool
  | .right | .neither => true
  | .left | .both => false

/-- `Associativity.strict_right`: whether the right operand has to bind tighter than
    the operator. -/
def strictRight : Associativity → Bool
  | .left | .neither => true
  | .right | .both => false

end Associativity

end BlockScript
