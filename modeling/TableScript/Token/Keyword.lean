import TableScript.Token.Builtin
import TableScript.Token.Operator

/-!
Keywords: the words of a program that are no names of its own. The words of the built-in functions
are keywords too.
-/

namespace TableScript

inductive Keyword where
  | int | bool | char | string | none
  | typeAlias | union | list | dict | tuple | schema | table
  | true | false
  | let | if | else | for | in | match | case
  | and | or | not
  | builtin (b : Builtin)
  deriving DecidableEq, Inhabited, Repr

namespace Keyword

def all : List Keyword :=
  [int, bool, char, string, none, typeAlias, union, list, dict, tuple, schema, table, .true, .false,
   .let, .if, .else, .for, .in, .match, case, and, or, not] ++ Builtin.all.map builtin

def text : Keyword → String
  | int => "int"
  | bool => "bool"
  | char => "char"
  | string => "string"
  | none => "none"
  | typeAlias => "alias"
  | union => "union"
  | list => "list"
  | dict => "dict"
  | tuple => "tuple"
  | schema => "schema"
  | table => "table"
  | .true => "true"
  | .false => "false"
  | .let => "let"
  | .if => "if"
  | .else => "else"
  | .for => "for"
  | .in => "in"
  | .match => "match"
  | case => "case"
  | and => "and"
  | or => "or"
  | not => "not"
  | builtin b => b.word

def label (k : Keyword) : String :=
  "Keyword." ++ k.text.toUpper

def ofText? (s : String) : Option Keyword :=
  all.find? fun k => k.text == s

def operator? : Keyword → Option Operator
  | not => some .not
  | and => some .and
  | or => some .or
  | _ => Option.none

def isBuiltin : Keyword → Bool
  | builtin _ => Bool.true
  | _ => Bool.false

end Keyword

end TableScript
