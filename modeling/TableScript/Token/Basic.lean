import TableScript.Position
import TableScript.Token.Delimiter
import TableScript.Token.Keyword

/-!
Tokens of programs: delimiters, keywords, values and names, each with its place in the program.
-/

namespace TableScript

inductive Lexeme where
  | delimiter (d : Delimiter)
  | keyword (k : Keyword)
  | value (text : String)
  | ident (name : String)
  deriving DecidableEq, Inhabited, Repr

namespace Lexeme

def text : Lexeme → String
  | delimiter d => d.text
  | keyword k => k.text
  | value s => s
  | ident s => s

def label : Lexeme → String
  | delimiter d => d.label
  | keyword k => k.label
  | value s => s
  | ident s => s

def kind : Lexeme → String
  | delimiter _ => "DELIMITER"
  | keyword _ => "KEYWORD"
  | value _ => "VALUE"
  | ident _ => "IDENT"

def operator? : Lexeme → Option Operator
  | delimiter d => d.operator?
  | keyword k => k.operator?
  | _ => none

end Lexeme

structure Token where
  lexeme : Lexeme
  position : Position
  deriving DecidableEq, Inhabited, Repr

def Token.text (t : Token) : String :=
  "TokenType." ++ t.lexeme.kind ++ ": " ++ t.lexeme.text ++ "\n" ++ t.position.text

end TableScript
