/-!
Types of values.

`Shape ι` is a type whose member lists carry marks of type `ι`: a mark says which list in a store
the members were read from, so that a type that is passed on unchanged keeps its place. `Ty` are
the plain types.

* `Shape.same`: equality, whatever the marks;
* `Shape.fresh`: the type with new marks throughout;
* `Shape.isKnown`: nothing in the type is `unknown`.
-/

namespace TableScript

/-- Types with marks on their member lists. -/
inductive Shape (ι : Type) where
  /-- Conforms with every type. -/
  | any
  /-- Not known. -/
  | unknown
  | literal
  | iterable
  | int
  | bool
  | char
  | none
  | string
  | list (element : Shape ι)
  | dict (key value : Shape ι)
  | union (mark : ι) (members : List (Shape ι))
  | tuple (mark : ι) (members : List (Shape ι))
  | schema (mark : ι) (columns : List (Shape ι))
  | table (mark : ι) (columns : List (Shape ι))
  | func (parameters : List (Shape ι)) (result : Shape ι)
  /-- No type is written where one is due. -/
  | absent
  /-- The type of a `let` that nothing follows. -/
  | dangling
  deriving Inhabited, Repr

/-- Plain types. -/
abbrev Ty := Shape Unit

namespace Shape

variable {ι κ : Type}

mutual

/-- Are two types equal, whatever their marks? -/
def same : Shape ι → Shape ι → Bool
  | any, any => true
  | unknown, unknown => true
  | literal, literal => true
  | iterable, iterable => true
  | int, int => true
  | bool, bool => true
  | char, char => true
  | none, none => true
  | string, string => true
  | list a, list b => same a b
  | dict a b, dict c d => same a c && same b d
  | union _ as, union _ bs => sameAll as bs
  | tuple _ as, tuple _ bs => sameAll as bs
  | schema _ as, schema _ bs => sameAll as bs
  | table _ as, table _ bs => sameAll as bs
  | func as a, func bs b => sameAll as bs && same a b
  | absent, absent => true
  | .dangling, .dangling => true
  | _, _ => false

def sameAll : List (Shape ι) → List (Shape ι) → Bool
  | [], [] => true
  | a :: as, b :: bs => same a b && sameAll as bs
  | _, _ => false

end

mutual

def mapMarks (f : ι → κ) : Shape ι → Shape κ
  | any => any
  | unknown => unknown
  | literal => literal
  | iterable => iterable
  | int => int
  | bool => bool
  | char => char
  | none => none
  | string => string
  | list a => list (mapMarks f a)
  | dict a b => dict (mapMarks f a) (mapMarks f b)
  | union m as => union (f m) (mapMarksAll f as)
  | tuple m as => tuple (f m) (mapMarksAll f as)
  | schema m as => schema (f m) (mapMarksAll f as)
  | table m as => table (f m) (mapMarksAll f as)
  | func as a => func (mapMarksAll f as) (mapMarks f a)
  | absent => absent
  | .dangling => .dangling

def mapMarksAll (f : ι → κ) : List (Shape ι) → List (Shape κ)
  | [] => []
  | a :: as => mapMarks f a :: mapMarksAll f as

end

/-- The type with new marks. -/
def fresh [Inhabited ι] (a : Shape ι) : Shape ι :=
  a.mapMarks fun _ => default

def plain (a : Shape ι) : Ty :=
  a.mapMarks fun _ => ()

mutual

/-- Is no part of the type unknown? -/
def isKnown : Shape ι → Bool
  | unknown => false
  | list a => isKnown a
  | dict a b => isKnown a && isKnown b
  | union _ as => allKnown as
  | tuple _ as => allKnown as
  | schema _ as => allKnown as
  | table _ as => allKnown as
  | func as a => allKnown as && isKnown a
  | _ => true

def allKnown : List (Shape ι) → Bool
  | [] => true
  | a :: as => isKnown a && allKnown as

end

end Shape

end TableScript
