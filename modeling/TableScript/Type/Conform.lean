import TableScript.Type.Shape

/-!
Conformance: the type that a value of one type has where another type is expected.

* `Shape.conform` fills in the parts that only one of the two types knows; where they disagree the
  result is `unknown`;
* `Shape.conform?` is the result if no part of it is unknown.

A union conforms with its members. Lists of members are compared in pairs, up to the end of the
shorter one. A bare `iterable` conforms with every kind of collection, and an empty tuple or schema
type with every other tuple or schema type.
-/

namespace TableScript.Shape

variable {ι : Type} [Inhabited ι]

mutual

/-- The type of a value of type `a` where `b` is expected. -/
def conform : Shape ι → Shape ι → Shape ι
  | unknown, b => fresh b
  | a, unknown => fresh a
  | any, b => fresh b
  | a, any => fresh a
  | union _ as, union _ bs => union default (conformAll as bs)
  | union _ as, b => if as.any (same b) then fresh b else unknown
  | a, union _ bs => if bs.any (same a) then fresh a else unknown
  | string, string => string
  | string, iterable => string
  | iterable, string => string
  | list a, list b => list (conform a b)
  | list a, iterable => list a
  | iterable, list b => list b
  | tuple m as, tuple n bs =>
    match as.isEmpty, bs.isEmpty with
    | false, false => tuple default (conformAll as bs)
    | false, true => tuple m as
    | true, false => tuple n bs
    | true, true => unknown
  | tuple m as, iterable => tuple m as
  | iterable, tuple n bs => tuple n bs
  | dict a b, dict c d => dict (conform a c) (conform b d)
  | dict a b, iterable => dict a b
  | iterable, dict c d => dict c d
  | table m as, table _ _ => table m as
  | table m as, iterable => table m as
  | iterable, table n bs => table n bs
  | schema m as, schema n bs =>
    match as.isEmpty, bs.isEmpty with
    | false, true => schema m as
    | true, false => schema n bs
    | _, _ => schema default (conformAll as bs)
  | func as a, func bs b => func (conformAll as bs) (conform a b)
  | literal, literal => literal
  | int, int => int
  | bool, bool => bool
  | char, char => char
  | none, none => none
  | absent, absent => absent
  | .dangling, .dangling => .dangling
  | _, _ => unknown

def conformAll : List (Shape ι) → List (Shape ι) → List (Shape ι)
  | a :: as, b :: bs => conform a b :: conformAll as bs
  | _, _ => []

end

/-- The type of a value of type `a` where `b` is expected, if the two go together. -/
def conform? (a b : Shape ι) : Option (Shape ι) :=
  let c := conform a b
  if c.isKnown then some c else Option.none

end TableScript.Shape
