import TableScript.Token.Operator

/-!
Delimiters: the punctuation of programs. A delimiter has one or two characters, each of them a
*mark*; every pair of marks that stand together is read as one delimiter if it is one.
-/

namespace TableScript

inductive Delimiter where
  | denote | arrow | assign | slash | semicolon | range
  | plus | minus | times | divide | modulo
  | greater | less | greaterEq | lessEq | equal | notEqual
  | concat | pipe
  | parenLeft | parenRight | bracketLeft | bracketRight | braceLeft | braceRight
  | comma | caseArrow | bird | schema
  deriving DecidableEq, Inhabited, Repr

namespace Delimiter

def all : List Delimiter :=
  [denote, arrow, assign, slash, semicolon, range, plus, minus, times, divide, modulo, greater,
   less, greaterEq, lessEq, equal, notEqual, concat, pipe, parenLeft, parenRight, bracketLeft,
   bracketRight, braceLeft, braceRight, comma, caseArrow, bird, schema]

def text : Delimiter → String
  | denote => ":"
  | arrow => "->"
  | assign => "="
  | slash => "\\"
  | semicolon => ";"
  | range => "~"
  | plus => "+"
  | minus => "-"
  | times => "*"
  | divide => "/"
  | modulo => "%"
  | greater => ">"
  | less => "<"
  | greaterEq => ">="
  | lessEq => "<="
  | equal => "=="
  | notEqual => "!="
  | concat => "++"
  | pipe => "|"
  | parenLeft => "("
  | parenRight => ")"
  | bracketLeft => "["
  | bracketRight => "]"
  | braceLeft => "\x7b"
  | braceRight => "\x7d"
  | comma => ","
  | caseArrow => "=>"
  | bird => "|>"
  | schema => "$"

/-- The name by which messages call the delimiter. -/
def label : Delimiter → String
  | denote => "Delimiter.DENOTE"
  | arrow => "Delimiter.RETURN"
  | assign => "Delimiter.ASSIGN"
  | slash => "Delimiter.NEWLINE_SLASH"
  | semicolon => "Delimiter.STMT_END"
  | range => "Delimiter.RANGE"
  | plus => "Delimiter.PLUS"
  | minus => "Delimiter.MINUS"
  | times => "Delimiter.MULTIPLY"
  | divide => "Delimiter.DIVIDE"
  | modulo => "Delimiter.MODULUS"
  | greater => "Delimiter.GREATER_THAN"
  | less => "Delimiter.LESS_THAN"
  | greaterEq => "Delimiter.GREATER_THAN_EQ"
  | lessEq => "Delimiter.LESS_THAN_EQ"
  | equal => "Delimiter.EQUAL"
  | notEqual => "Delimiter.NOT_EQUAL"
  | concat => "Delimiter.COLLECTION_CONCAT"
  | pipe => "Delimiter.PIPE"
  | parenLeft => "Delimiter.PAREN_LEFT"
  | parenRight => "Delimiter.PAREN_RIGHT"
  | bracketLeft => "Delimiter.BRACKET_LEFT"
  | bracketRight => "Delimiter.BRACKET_RIGHT"
  | braceLeft => "Delimiter.BRACE_LEFT"
  | braceRight => "Delimiter.BRACE_RIGHT"
  | comma => "Delimiter.COMMA"
  | caseArrow => "Delimiter.CASE_EXP"
  | bird => "Delimiter.BIRD"
  | schema => "Delimiter.SCHEMA"

def ofText? (s : String) : Option Delimiter :=
  all.find? fun d => d.text == s

def operator? : Delimiter → Option Operator
  | plus => some .plus
  | minus => some .minus
  | times => some .times
  | divide => some .divide
  | modulo => some .modulo
  | greater => some .greater
  | less => some .less
  | greaterEq => some .greaterEq
  | lessEq => some .lessEq
  | equal => some .equal
  | notEqual => some .notEqual
  | concat => some .concat
  | _ => none

end Delimiter

/-- The marks: the characters that delimiters are made of. The exclamation mark alone is no
delimiter. -/
def marks : List Char :=
  [':', '=', '\\', ';', '+', '-', '*', '/', '%', '>', '<', '|', '(', ')', '[', ']',
   Char.ofNat 123, Char.ofNat 125, ',', '$', '!', '~']

def isMark (c : Char) : Bool :=
  marks.contains c

end TableScript
