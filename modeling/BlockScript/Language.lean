import BlockScript.Dialect.Lua
import BlockScript.Dialect.Php
import BlockScript.Dialect.Python

/-!
# Target languages

The languages that programs can be rendered in.
-/

namespace BlockScript

/-- A target language. -/
inductive Language where
  | python
  | lua
  | php
  deriving DecidableEq, Repr

namespace Language

/-- `SUPPORTED_LANGUAGES`: the languages in the order in which they are offered. -/
def all : List Language :=
  [python, lua, php]

/-- The dialect of a language. -/
def dialect : Language → Dialect
  | .python => Python.dialect
  | .lua => Lua.dialect
  | .php => Php.dialect

/-- The name of a language. -/
def name (language : Language) : String :=
  language.dialect.name

/-- `get_generator`: the language with a name. -/
def ofName? (name : String) : Option Language :=
  all.find? fun language => language.name = name

end Language

end BlockScript
