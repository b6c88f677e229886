import BlockScript.Number.Decimal
import BlockScript.Text.Quoted

/-!
# JSON values

Values keep what a reader can see in the text: integers of any size are told
from doubles, and the members of an object stay in their order.
-/

namespace BlockScript

open BlockScript.Number

/-- A JSON value. -/
inductive Json where
  | null
  | bool (value : Bool)
  | int (value : Int)
  | float (value : Double)
  | str (value : String)
  | arr (items : List Json)
  | obj (members : List (String × Json))
  deriving Repr

namespace Json

/-- The value stored under a key. -/
def find? {α : Type} (members : List (String × α)) (key : String) : Option α :=
  (members.find? fun member => member.1 = key).map Prod.snd

/-- Stores a value under a key: in place of an earlier value, else at the end. -/
def insert {α : Type} (members : List (String × α)) (key : String) (value : α) :
    List (String × α) :=
  match members with
  | [] => [(key, value)]
  | member :: rest =>
    if member.1 = key then (key, value) :: rest else member :: insert rest key value

/-- The value of a member of an object. -/
def member? (json : Json) (key : String) : Option Json :=
  match json with
  | .obj members => find? members key
  | _ => none

/-- The word for the kind of a value in messages. -/
def kindName : Json → String
  | .null => "NoneType"
  | .bool _ => "bool"
  | .int _ => "int"
  | .float _ => "float"
  | .str _ => "str"
  | .arr _ => "list"
  | .obj _ => "dict"

/-- The word for a truth value in messages and texts. -/
def truthName (b : Bool) : String :=
  if b then "True" else "False"

mutual

/-- A value as messages show it. -/
def shown : Json → String
  | .null => "None"
  | .bool b => truthName b
  | .int n => toString n
  | .float d => d.toText
  | .str s => Text.shown s
  | .arr items => "[" ++ shownItems items ++ "]"
  | .obj members => "\x7b" ++ shownMembers members ++ "\x7d"

/-- The items of a list, separated by commas. -/
def shownItems : List Json → String
  | [] => ""
  | [item] => shown item
  | item :: items => shown item ++ ", " ++ shownItems items

/-- The members of an object, separated by commas. -/
def shownMembers : List (String × Json) → String
  | [] => ""
  | [(key, value)] => Text.shown key ++ ": " ++ shown value
  | (key, value) :: members =>
    Text.shown key ++ ": " ++ shown value ++ ", " ++ shownMembers members

end

end Json

end BlockScript
