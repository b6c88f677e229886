/-!
# Sets of characters as ranges of code points

A character class of the Unicode standard is written as an ascending list of
closed ranges. `inRanges` searches such a list and stops at the first range
that starts above the character.
-/

namespace BlockScript.Text

/-- Whether `c` lies in one of the ranges of an ascending list. -/
def inRanges : List (Nat × Nat) → Char → Bool
  | [], _ => false
  | (low, high) :: rest, c =>
    if c.toNat < low then false else c.toNat ≤ high || inRanges rest c

end BlockScript.Text
