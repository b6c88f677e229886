import BlockScript.Dialect.Lua
import BlockScript.Dialect.Php
import BlockScript.Dialect.Python
import BlockScript.Proofs.Reading.Parsing

/-!
# The grammars of the target languages

The tokens and the expressions of Python 3, Lua 5.3 and PHP 8, as far as
expressions need them. A level carries the tier that the dialect has for its
operators.

Results:

* `Python.grammar_proper`, `Lua.grammar_proper`, `Php.grammar_proper`: every
  sign tells its level.
-/

open BlockScript.Reading

/-! ## Python -/

namespace BlockScript.Python

/-- The keywords that stand between or ahead of operands, or in no expression;
    the others are names of values. -/
def signKeywords : List String :=
  ["and", "as", "assert", "async", "await", "break", "class", "continue", "def", "del", "elif",
    "else", "except", "finally", "for", "from", "global", "if", "import", "in", "is", "lambda",
    "nonlocal", "not", "or", "pass", "raise", "return", "try", "while", "with", "yield"]

/-- The tokens of Python. -/
def lexis : Lexis where
  signs := [['+'], ['-'], ['*'], ['*', '*'], ['/'], ['/', '/'], ['%'], ['@'], ['<', '<'],
    ['>', '>'], ['&'], ['|'], ['^'], ['~'], [':', '='], ['<'], ['>'], ['<', '='], ['>', '='],
    ['=', '='], ['!', '='], ['('], [')'], ['['], [']'], ['\x7b'], ['\x7d'], [','], [':'], ['.'],
    [';'], ['='], ['-', '>'], ['+', '='], ['-', '='], ['*', '='], ['/', '='], ['/', '/', '='],
    ['%', '='], ['@', '='], ['&', '='], ['|', '='], ['^', '='], ['>', '>', '='],
    ['<', '<', '='], ['*', '*', '='], ['.', '.', '.'], ['#']]
  refused := [['#']]
  keywords := signKeywords
  foldsKeywords := false
  sigil := none
  quotes := ['\'', '"']
  escapes := ['\\', '\'', '"', 'n', 'r', 't', 'x']
  barred := []

/-- The expressions of Python. -/
def grammar : Grammar where
  lexis := lexis
  levels := [⟨conditional, .conditional⟩, ⟨logicalOr, .leftward ["or"]⟩,
    ⟨logicalAnd, .leftward ["and"]⟩, ⟨logicalNot, .ahead ["not"] false⟩,
    ⟨relational, .chained ["==", "!=", "<", "<=", ">", ">="]⟩, ⟨additive, .leftward ["+", "-"]⟩,
    ⟨multiplicative, .leftward ["*", "/", "%"]⟩, ⟨unarySign, .ahead ["-"] false⟩,
    ⟨exponentiation, .power "**" unarySign⟩]
  members := true
  emptyList := [.mark "[", .mark "]"]
  casts := []

theorem grammar_proper : grammar.Proper where
  levels := by decide
  closers := by decide
  emptyList := ⟨"[", _, rfl, by decide⟩

end BlockScript.Python

/-! ## Lua -/

namespace BlockScript.Lua

/-- The keywords that stand between or ahead of operands, or in no expression;
    the others are names of values. -/
def signKeywords : List String :=
  ["and", "break", "do", "else", "elseif", "end", "for", "function", "goto", "if", "in", "local",
    "not", "or", "repeat", "return", "then", "until", "while"]

/-- The tokens of Lua. -/
def lexis : Lexis where
  signs := [['+'], ['-'], ['*'], ['/'], ['%'], ['^'], ['#'], ['&'], ['~'], ['|'], ['<', '<'],
    ['>', '>'], ['/', '/'], ['=', '='], ['~', '='], ['<', '='], ['>', '='], ['<'], ['>'], ['='],
    ['('], [')'], ['\x7b'], ['\x7d'], ['['], [']'], [':', ':'], [';'], [':'], [','], ['.'],
    ['.', '.'], ['.', '.', '.'], ['-', '-'], ['[', '['], ['[', '=']]
  refused := [['-', '-'], ['[', '['], ['[', '=']]
  keywords := signKeywords
  foldsKeywords := false
  sigil := none
  quotes := ['\'', '"']
  escapes := ['\\', '\'', '"', 'n', 'r', 't', '0', '1', '2', '3', '4', '5', '6', '7', '8', '9']
  barred := []

/-- The expressions of Lua. -/
def grammar : Grammar where
  lexis := lexis
  levels := [⟨logicalOr, .leftward ["or"]⟩, ⟨logicalAnd, .leftward ["and"]⟩,
    ⟨relational, .leftward ["==", "~=", "<", "<=", ">", ">="]⟩,
    ⟨additive, .leftward ["+", "-"]⟩, ⟨multiplicative, .leftward ["*", "/", "%"]⟩,
    ⟨unary, .ahead ["not", "-"] false⟩, ⟨exponentiation, .power "^" unary⟩]
  members := true
  emptyList := [.mark "\x7b", .mark "\x7d"]
  casts := []

theorem grammar_proper : grammar.Proper where
  levels := by decide
  closers := by decide
  emptyList := ⟨"\x7b", _, rfl, by decide⟩

end BlockScript.Lua

/-! ## PHP -/

namespace BlockScript.Php

/-- The constants that the compiler replaces. They are keywords, whatever their
    case. -/
def compilerConstants : List String :=
  ["__class__", "__dir__", "__file__", "__function__", "__line__", "__method__", "__namespace__",
    "__trait__"]

/-- The other keywords. -/
def languageKeywords : List String :=
  ["__halt_compiler", "abstract", "and", "array", "as", "break", "callable", "case", "catch",
    "class", "clone", "const", "continue", "declare", "default", "die", "do", "echo", "else",
    "elseif", "empty", "enddeclare", "endfor", "endforeach", "endif", "endswitch", "endwhile",
    "eval", "exit", "extends", "final", "finally", "fn", "for", "foreach", "function", "global",
    "goto", "if", "implements", "include", "include_once", "instanceof", "insteadof",
    "interface", "isset", "list", "match", "namespace", "new", "or", "print", "private",
    "protected", "public", "readonly", "require", "require_once", "return", "static", "switch",
    "throw", "trait", "try", "unset", "use", "var", "while", "xor", "yield"]

/-- The tokens of PHP. -/
def lexis : Lexis where
  signs := [['+'], ['+', '+'], ['+', '='], ['-'], ['-', '-'], ['-', '='], ['-', '>'], ['*'],
    ['*', '*'], ['*', '='], ['*', '*', '='], ['/'], ['/', '='], ['/', '/'], ['/', '*'], ['%'],
    ['%', '='], ['='], ['=', '='], ['=', '=', '='], ['=', '>'], ['!'], ['!', '='],
    ['!', '=', '='], ['<'], ['<', '='], ['<', '=', '>'], ['<', '>'], ['<', '<'],
    ['<', '<', '='], ['<', '<', '<'], ['>'], ['>', '='], ['>', '>'], ['>', '>', '='], ['&'],
    ['&', '&'], ['&', '='], ['|'], ['|', '|'], ['|', '='], ['^'], ['^', '='], ['~'], ['.'],
    ['.', '='], ['.', '.', '.'], ['?'], ['?', '?'], ['?', '?', '='], ['?', '-', '>'],
    ['?', '>'], [':'], [':', ':'], [';'], [','], ['('], [')'], ['['], [']'], ['\x7b'],
    ['\x7d'], ['@'], ['#'], ['\\']]
  refused := [['+', '+'], ['-', '-'], ['/', '/'], ['/', '*'], ['?', '>'], ['<', '<', '<'], ['#']]
  keywords := languageKeywords ++ compilerConstants
  foldsKeywords := true
  sigil := some '$'
  quotes := ['\'', '"']
  escapes := ['\\', '\'', '"', '$', 'n', 'r', 't', 'x']
  barred := [('"', '$')]

/-- The expressions of PHP. -/
def grammar : Grammar where
  lexis := lexis
  levels := [⟨conditional, .choice⟩, ⟨logicalOr, .leftward ["||"]⟩,
    ⟨logicalAnd, .leftward ["&&"]⟩, ⟨equality, .single ["==", "!="]⟩,
    ⟨relational, .single ["<", "<=", ">", ">="]⟩, ⟨additive, .leftward ["+", "-"]⟩,
    ⟨multiplicative, .leftward ["*", "/", "%"]⟩, ⟨logicalNot, .ahead ["!"] false⟩,
    ⟨unary, .ahead ["-"] true⟩, ⟨power, .power "**" unary⟩]
  members := false
  emptyList := [.mark "array", .mark "(", .mark ")"]
  casts := ["array", "binary", "bool", "boolean", "double", "float", "int", "integer", "object",
    "real", "string", "unset"]

theorem grammar_proper : grammar.Proper where
  levels := by decide
  closers := by decide
  emptyList := ⟨"array", _, rfl, by decide⟩

end BlockScript.Php
