import TableScript.Token.Basic
import TableScript.Type.Store

/-!
Expressions of programs. Every expression carries a note: its type as far as it is known before
evaluation, and the place in the program that messages about it show.
-/

namespace TableScript

inductive Literal where
  | int (n : Int)
  | bool (b : Bool)
  | char (s : String)
  | string (s : String)
  | none
  deriving DecidableEq, Inhabited, Repr

def Literal.type : Literal → TypeRef
  | .int _ => .int
  | .bool _ => .bool
  | .char _ => .char
  | .string _ => .string
  | .none => .none

/-- What is known of an expression before it is evaluated. -/
structure Note where
  type : TypeRef := .unknown
  /-- The place that messages show. An expression that starts at the end of the program has none. -/
  position : Option Position := some {}
  deriving Inhabited, Repr

inductive Name where
  | ident (s : String)
  | builtin (b : Builtin)
  deriving DecidableEq, Inhabited, Repr

def Name.word : Name → String
  | .ident s => s
  | .builtin b => b.word

def Name.label : Name → String
  | .ident s => s
  | .builtin b => (Keyword.builtin b).label

/-- A parameter of a function. The name is missing if none is written. -/
structure Parameter where
  name : Option String
  type : TypeRef
  position : Option Position
  deriving Inhabited, Repr

/-- A pattern of a case; `ε` are expressions. -/
inductive Pattern (ε : Type) where
  /-- Values of a type, on which a guard may hold. -/
  | type (name : String) (type : TypeRef) (guard : Option ε)
  | literal (value : Option Literal)
  | literals (values : List (Option Literal))
  | range (note : Note) (start stop : Option Literal)
  | any
  /-- No pattern is written where one is due. -/
  | missing
  deriving Inhabited, Repr

inductive Expr where
  /-- A `let` without a name stands where an expression is due. -/
  | missing
  /-- No expression stands where one is due. -/
  | unknown (note : Note)
  | literal (note : Note) (value : Literal)
  /-- Binds names, and goes on with the rest if there is one. -/
  | bind (note : Note) (names : List String) (type : TypeRef) (bound : Expr) (rest : Option Expr)
  | typeAlias (note : Note) (name : Option String) (type : TypeRef) (rest : Expr)
  | lambda (note : Note) (parameters : List Parameter) (result : TypeRef) (body : Expr)
  | apply (note : Note) (function : Expr) (arguments : List Expr)
  | cases (note : Note) (subject : Expr) (alternatives : List (Pattern Expr × Expr))
  | prim (note : Note) (op : Operator) (left right : Expr)
  | ref (note : Note) (name : Name)
  | branch (note : Note) (condition yes : Expr) (no : Option Expr)
  | loop (note : Note) (name : Option String) (iterable body : Expr) (rest : Option Expr)
  | list (note : Note) (elements : List Expr)
  | range (note : Note) (start stop : Option Literal)
  | tuple (note : Note) (elements : List Expr)
  | dict (note : Note) (entries : List (Expr × Expr))
  | schema (note : Note) (columns : List (Option String × TypeRef))
  deriving Inhabited, Repr

namespace Expr

/-- The note of an expression; where an expression is missing there is none. -/
def note? : Expr → Option Note
  | missing => none
  | unknown n | literal n _ | bind n _ _ _ _ | typeAlias n _ _ _ | lambda n _ _ _ | apply n _ _
  | cases n _ _ | prim n _ _ _ | ref n _ | branch n _ _ _ | loop n _ _ _ _ | list n _
  | range n _ _ | tuple n _ | dict n _ | schema n _ => some n

def withType (t : TypeRef) : Expr → Expr
  | missing => missing
  | unknown n => unknown { n with type := t }
  | literal n v => literal { n with type := t } v
  | bind n names type bound rest => bind { n with type := t } names type bound rest
  | typeAlias n name type rest => typeAlias { n with type := t } name type rest
  | lambda n parameters result body => lambda { n with type := t } parameters result body
  | apply n function arguments => apply { n with type := t } function arguments
  | cases n subject alternatives => cases { n with type := t } subject alternatives
  | prim n op left right => prim { n with type := t } op left right
  | ref n name => ref { n with type := t } name
  | branch n condition yes no => branch { n with type := t } condition yes no
  | loop n name iterable body rest => loop { n with type := t } name iterable body rest
  | list n elements => list { n with type := t } elements
  | range n start stop => range { n with type := t } start stop
  | tuple n elements => tuple { n with type := t } elements
  | dict n entries => dict { n with type := t } entries
  | schema n columns => schema { n with type := t } columns

end Expr

end TableScript
