import BlockScript.Failure
import BlockScript.Text.Lines

/-!
# Indentation

The unit of indentation that the command line asks for, given by its width. A
width can be too large in two ways: it may be no size of a text at all, or there
may be no memory for a text of that size.
-/

namespace BlockScript.CommandLine

open BlockScript.Text

/-- The indentation asked for: that of the language, or so many spaces. The width
    can be left out. -/
inductive Indentation where
  | ofLanguage
  | width (n : Int)
  | leftOut
  deriving DecidableEq, Repr

/-- The largest size that a text can have. Sizes are numbers with a sign, so the
    least one is `-maxSize - 1`. -/
def maxSize : Int := 0x7fffffffffffffff

/-- The most characters for which there is memory. -/
def maxMemory : Int := 0xfffffffff

/-- One unit of an indentation, unless it is that of the language. A negative
    width counts as zero. -/
def Indentation.unit : Indentation → Except Failure (Option String)
  | .ofLanguage => .ok none
  | .leftOut => .error .widthLeftOut
  | .width n =>
    if n < -maxSize - 1 || maxSize < n then .error .widthBeyondSizes
    else if maxMemory < n then .error .widthBeyondMemory
    else .ok (some (spaces n.toNat))

end BlockScript.CommandLine
