/-!
# Finding and replacing

Whether a text starts with another or holds it, and replacing every occurrence
of a pattern. Occurrences are found from left to right and do not overlap.
-/

namespace BlockScript.Text

/-! ## Finding -/

/-- Whether `text` starts with `start`. -/
def startsWith (start text : String) : Bool :=
  start.toList.isPrefixOf text.toList

/-- Whether `pattern` occurs somewhere in a list of characters. -/
def occursIn (pattern : List Char) : List Char → Bool
  | [] => pattern.isEmpty
  | c :: rest => pattern.isPrefixOf (c :: rest) || occursIn pattern rest

/-! ## Replacing -/

/-- Replaces every occurrence of `pattern` from left to right, where the next
    `skip` characters belong to an occurrence that was replaced already. -/
def replaceFrom (pattern new : List Char) : Nat → List Char → List Char
  | _, [] => []
  | skip + 1, _ :: rest => replaceFrom pattern new skip rest
  | 0, c :: rest =>
    if pattern.isPrefixOf (c :: rest) then
      new ++ replaceFrom pattern new (pattern.length - 1) rest
    else c :: replaceFrom pattern new 0 rest

/-- Replaces every occurrence of a non-empty pattern. -/
def replaceAll (text pattern new : String) : String :=
  String.ofList (replaceFrom pattern.toList new.toList 0 text.toList)

end BlockScript.Text
