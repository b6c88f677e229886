import BlockScript.Text.Lower

/-!
# Identifiers

Logical names, as users write them, are given identifiers of the target
language. One name keeps one identifier, in any case it is written; no two
names share an identifier, and none is a reserved word.

An identifier is the first free one among `base`, `base2`, `base3`, …, where the
base is the name with its unsafe characters replaced. One more candidate than
there are words to avoid always holds a free one, so the search is bounded.
-/

namespace BlockScript

open BlockScript.Text

/-- `NameType`: the kinds of logical names. -/
inductive NameKind where
  | variable
  | procedure
  | developerVariable
  deriving DecidableEq, Repr

namespace NameKind

/-- The name of a kind. -/
def name : NameKind → String
  | .variable => "VARIABLE"
  | .procedure => "PROCEDURE"
  | .developerVariable => "DEVELOPER_VARIABLE"

/-- The kind with a name. -/
def ofName? (name : String) : Option NameKind :=
  [.variable, .procedure, .developerVariable].find? fun kind => kind.name = name

end NameKind

/-! ## Bases -/

/-- An ASCII letter or digit or the underscore. -/
def isSafeChar (c : Char) : Bool :=
  c.isAlphanum || c = '_'

/-- `safe_name`: a name as an identifier: unsafe characters become underscores, and a
    name must not start with a digit. -/
def safeName (name : String) : String :=
  match name.toList.map fun c => if isSafeChar c then c else '_' with
  | [] => "unnamed"
  | c :: rest =>
    if c.isDigit then String.ofList ("my_".toList ++ c :: rest) else String.ofList (c :: rest)

/-- The candidate number `count + 1`: the base, then the base with a number from
    two on. -/
def candidate (base : String) (count : Nat) : String :=
  if count = 0 then base else base ++ toString (count + 1)

/-! ## The table -/

/-- How a target language treats identifiers: the words it reserves, what it
    writes before a variable, and the kinds of names whose case it ignores. -/
structure NamePolicy where
  reserved : List String := []
  variableSign : String := ""
  caseInsensitive : List NameKind := []

/-- `NameDatabase._prefix`: what stands before the identifiers of a kind. -/
def NamePolicy.sign (policy : NamePolicy) : NameKind → String
  | .procedure => ""
  | .variable | .developerVariable => policy.variableSign

/-- `NameDatabase`: the identifiers given out: those that belong to a logical name,
    keyed by the kind and the lower-case name, and all of them. -/
structure NameTable where
  assigned : List ((NameKind × String) × String) := []
  taken : List String := []

namespace NameTable

/-- The words that a new identifier has to avoid. -/
def avoided (policy : NamePolicy) (table : NameTable) : List String :=
  table.taken ++ policy.reserved

/-- `NameDatabase._clashes`: whether a candidate must not be given out: it is taken
    or reserved, or differs from such a word only in case where case does not count. -/
def clashes (policy : NamePolicy) (table : NameTable) (kind : NameKind) (text : String) : Bool :=
  (table.avoided policy).contains text ||
    (policy.caseInsensitive.contains kind &&
      (table.avoided policy).any fun word => lower word = lower text)

/-- The loop of `_allocate`: the first free candidate from number `count + 1` on,
    looking at no more than `fuel` of them before the last. -/
def firstFree (policy : NamePolicy) (table : NameTable) (kind : NameKind) (base : String) :
    Nat → Nat → String
  | 0, count => candidate base count
  | fuel + 1, count =>
    if table.clashes policy kind (candidate base count) then
      firstFree policy table kind base fuel (count + 1)
    else candidate base count

/-- `NameDatabase._allocate`: gives out a free identifier for a name. -/
def allocate (policy : NamePolicy) (table : NameTable) (name : String) (kind : NameKind) :
    String × NameTable :=
  let text := table.firstFree policy kind (safeName name) (table.avoided policy).length 0
  (text, { table with taken := text :: table.taken })

/-- `NameDatabase.get_name`: the identifier of a logical name, given out at the first
    request. -/
def get (policy : NamePolicy) (table : NameTable) (name : String) (kind : NameKind) :
    String × NameTable :=
  let key := (kind, lower name)
  match table.assigned.lookup key with
  | some text => (policy.sign kind ++ text, table)
  | none =>
    let (text, table) := table.allocate policy name kind
    (policy.sign kind ++ text, { table with assigned := (key, text) :: table.assigned })

/-- `NameDatabase.get_distinct_name`: an identifier that belongs to no logical name. -/
def distinct (policy : NamePolicy) (table : NameTable) (name : String) (kind : NameKind) :
    String × NameTable :=
  let (text, table) := table.allocate policy name kind
  (policy.sign kind ++ text, table)

/-- `NameDatabase.populate`: requests the identifiers of several names. -/
def populate (policy : NamePolicy) (table : NameTable) (kind : NameKind) :
    List String → NameTable
  | [] => table
  | name :: names => populate policy (table.get policy name kind).2 kind names

end NameTable

end BlockScript
