/-!
Small edits of text.
-/

namespace TableScript.Text

def without (c : Char) (s : String) : String :=
  String.ofList (s.toList.filter (· != c))

/-- Drops `skip` characters, which end an occurrence of `word`, and every occurrence after them. -/
def eraseFrom (word : List Char) (skip : Nat) : List Char → List Char
  | [] => []
  | c :: rest =>
    match skip with
    | n + 1 => eraseFrom word n rest
    | 0 =>
      if word.isPrefixOf (c :: rest) then eraseFrom word (word.length - 1) rest
      else c :: eraseFrom word 0 rest

/-- The text without the occurrences of `word`, found from left to right. -/
def erase (word s : String) : String :=
  String.ofList (eraseFrom word.toList 0 s.toList)

/-- Does the text both start and end with the character `c`? -/
def isBetween (c : Char) (s : String) : Bool :=
  s.toList.head? == some c && s.toList.getLast? == some c

/-- The text filled up with blanks on the right to `width` characters. -/
def padRight (width : Nat) (s : String) : String :=
  s ++ String.ofList (List.replicate (width - s.length) ' ')

/-- The lines of a text: what stands between its newlines. -/
def linesFrom (current : List Char) : List Char → List String
  | [] => [String.ofList current.reverse]
  | c :: rest =>
    if c == '\n' then String.ofList current.reverse :: linesFrom [] rest
    else linesFrom (c :: current) rest

def lines (s : String) : List String :=
  linesFrom [] s.toList

/-- Writes every end of a line as one newline: a carriage return, with or without a newline after
it, ends a line too. -/
def unifyNewlinesFrom : List Char → List Char
  | [] => []
  | '\r' :: '\n' :: rest => '\n' :: unifyNewlinesFrom rest
  | c :: rest => (if c == '\r' then '\n' else c) :: unifyNewlinesFrom rest

def unifyNewlines (s : String) : String :=
  String.ofList (unifyNewlinesFrom s.toList)

end TableScript.Text
