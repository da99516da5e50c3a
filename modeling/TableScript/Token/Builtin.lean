/-!
The built-in functions, by the words that call them.
-/

namespace TableScript

inductive Builtin where
  | readln | print | println
  | map | filter | foldl | foldr
  | zip | len | isEmpty
  | insert | remove | replace | front | back | head | tail | slice | contains | find | fill
  | reverse | set | intersect
  | substr | toStr | joinStr | toUpper | toLower | startsWith | endsWith
  | toInt | sum | product | max | min | sort
  | createTable | column | readCsv | writeCsv | join | with | select | drop | getColumns
  | getColumn | collect | count | append
  | type | rand
  deriving DecidableEq, Inhabited, Repr

namespace Builtin

def all : List Builtin :=
  [readln, print, println, map, filter, foldl, foldr, zip, len, isEmpty, insert, remove, replace,
   front, back, head, tail, slice, contains, find, fill, reverse, set, intersect, substr, toStr,
   joinStr, toUpper, toLower, startsWith, endsWith, toInt, sum, product, max, min, sort,
   createTable, column, readCsv, writeCsv, join, .with, select, drop, getColumns, getColumn,
   collect, count, append, type, rand]

def word : Builtin → String
  | readln => "readln"
  | print => "print"
  | println => "println"
  | map => "map"
  | filter => "filter"
  | foldl => "foldl"
  | foldr => "foldr"
  | zip => "zip"
  | len => "len"
  | isEmpty => "isEmpty"
  | insert => "insert"
  | remove => "remove"
  | replace => "replace"
  | front => "front"
  | back => "back"
  | head => "head"
  | tail => "tail"
  | slice => "slice"
  | contains => "contains"
  | find => "find"
  | fill => "fill"
  | reverse => "reverse"
  | set => "set"
  | intersect => "intersect"
  | substr => "substr"
  | toStr => "toStr"
  | joinStr => "joinStr"
  | toUpper => "toUpper"
  | toLower => "toLower"
  | startsWith => "startsWith"
  | endsWith => "endsWith"
  | toInt => "toInt"
  | sum => "sum"
  | product => "product"
  | max => "max"
  | min => "min"
  | sort => "sort"
  | createTable => "createTable"
  | column => "column"
  | readCsv => "readCsv"
  | writeCsv => "writeCsv"
  | join => "join"
  | .with => "with"
  | select => "select"
  | drop => "drop"
  | getColumns => "getColumns"
  | getColumn => "getColumn"
  | collect => "collect"
  | count => "count"
  | append => "append"
  | type => "type"
  | rand => "rand"

/-- The name under which the function is bound in a scope. The test for emptiness is bound under
the name of the length, so its own word names nothing. -/
def name : Builtin → String
  | isEmpty => "len"
  | b => b.word

end Builtin

end TableScript
