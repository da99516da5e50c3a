import Std.Data.HashMap
import TableScript.Store.Basic

/-!
Copies: an object together with everything that can be reached from it, so that a change of the
copy is not seen through the object. What is shared in the object is shared in the copy.

* `Cell`: the places of a store;
* `Store.reach`: the cells that can be reached, each with a new place after the old ones;
* `Store.copy`: the store with a copy of these cells.
-/

namespace TableScript

/-- A place in a store. -/
inductive Cell where
  | object (i : Nat)
  | sequence (i : Nat)
  | columns (i : Nat)
  /-- A list of member types. -/
  | members (i : Nat)
  /-- The cell of a tuple type. -/
  | tuple (i : Nat)
  deriving DecidableEq, Inhabited, Hashable, Repr

/-! ## Types in expressions -/

mutual

/-- The lists and cells that a type handle names. -/
def TypeRef.cells : TypeRef → List Cell
  | .list a => a.cells
  | .dict a b => a.cells ++ b.cells
  | .union i => [.members i]
  | .tuple i => [.tuple i]
  | .schema i => [.members i]
  | .table i => [.members i]
  | .func as a => TypeRef.allCells as ++ a.cells
  | _ => []

def TypeRef.allCells : List TypeRef → List Cell
  | [] => []
  | a :: as => a.cells ++ TypeRef.allCells as

end

mutual

/-- Changes the places of lists by `members` and of cells by `tuples`. -/
def TypeRef.rename (members tuples : Nat → Nat) : TypeRef → TypeRef
  | .list a => .list (a.rename members tuples)
  | .dict a b => .dict (a.rename members tuples) (b.rename members tuples)
  | .union i => .union (members i)
  | .tuple i => .tuple (tuples i)
  | .schema i => .schema (members i)
  | .table i => .table (members i)
  | .func as a => .func (TypeRef.renameAll members tuples as) (a.rename members tuples)
  | t => t

def TypeRef.renameAll (members tuples : Nat → Nat) : List TypeRef → List TypeRef
  | [] => []
  | a :: as => a.rename members tuples :: TypeRef.renameAll members tuples as

end

def Note.mapType (f : TypeRef → TypeRef) (n : Note) : Note :=
  { n with type := f n.type }

namespace Expr

mutual

def mapTypes (f : TypeRef → TypeRef) : Expr → Expr
  | missing => missing
  | unknown n => unknown (n.mapType f)
  | literal n v => literal (n.mapType f) v
  | bind n names t bound rest =>
    bind (n.mapType f) names (f t) (mapTypes f bound) (mapTypesOption f rest)
  | typeAlias n name t rest => typeAlias (n.mapType f) name (f t) (mapTypes f rest)
  | lambda n parameters result body =>
    lambda (n.mapType f) (parameters.map fun p => { p with type := f p.type }) (f result)
      (mapTypes f body)
  | apply n function arguments =>
    apply (n.mapType f) (mapTypes f function) (mapTypesAll f arguments)
  | cases n subject alternatives =>
    cases (n.mapType f) (mapTypes f subject) (mapTypesCases f alternatives)
  | prim n op left right => prim (n.mapType f) op (mapTypes f left) (mapTypes f right)
  | ref n name => ref (n.mapType f) name
  | branch n condition yes no =>
    branch (n.mapType f) (mapTypes f condition) (mapTypes f yes) (mapTypesOption f no)
  | loop n name iterable body rest =>
    loop (n.mapType f) name (mapTypes f iterable) (mapTypes f body) (mapTypesOption f rest)
  | list n elements => list (n.mapType f) (mapTypesAll f elements)
  | range n start stop => range (n.mapType f) start stop
  | tuple n elements => tuple (n.mapType f) (mapTypesAll f elements)
  | dict n entries => dict (n.mapType f) (mapTypesEntries f entries)
  | schema n columns => schema (n.mapType f) (columns.map fun c => (c.1, f c.2))

def mapTypesOption (f : TypeRef → TypeRef) : Option Expr → Option Expr
  | none => none
  | some e => some (mapTypes f e)

def mapTypesAll (f : TypeRef → TypeRef) : List Expr → List Expr
  | [] => []
  | e :: es => mapTypes f e :: mapTypesAll f es

def mapTypesEntries (f : TypeRef → TypeRef) : List (Expr × Expr) → List (Expr × Expr)
  | [] => []
  | (k, v) :: es => (mapTypes f k, mapTypes f v) :: mapTypesEntries f es

def mapTypesPattern (f : TypeRef → TypeRef) : Pattern Expr → Pattern Expr
  | .type name t guard => .type name (f t) (mapTypesOption f guard)
  | .literal v => .literal v
  | .literals vs => .literals vs
  | .range n start stop => .range (n.mapType f) start stop
  | .any => .any
  | .missing => .missing

def mapTypesCases (f : TypeRef → TypeRef) : List (Pattern Expr × Expr) →
    List (Pattern Expr × Expr)
  | [] => []
  | (p, e) :: rest => (mapTypesPattern f p, mapTypes f e) :: mapTypesCases f rest

end

mutual

/-- The cells that the types in an expression name. -/
def cells : Expr → List Cell
  | missing => []
  | unknown n => n.type.cells
  | literal n _ => n.type.cells
  | bind n _ t bound rest => n.type.cells ++ t.cells ++ cells bound ++ cellsOption rest
  | typeAlias n _ t rest => n.type.cells ++ t.cells ++ cells rest
  | lambda n parameters result body =>
    n.type.cells ++ parameters.flatMap (fun p => p.type.cells) ++ result.cells ++ cells body
  | apply n function arguments => n.type.cells ++ cells function ++ cellsAll arguments
  | cases n subject alternatives => n.type.cells ++ cells subject ++ cellsCases alternatives
  | prim n _ left right => n.type.cells ++ cells left ++ cells right
  | ref n _ => n.type.cells
  | branch n condition yes no =>
    n.type.cells ++ cells condition ++ cells yes ++ cellsOption no
  | loop n _ iterable body rest =>
    n.type.cells ++ cells iterable ++ cells body ++ cellsOption rest
  | list n elements => n.type.cells ++ cellsAll elements
  | range n _ _ => n.type.cells
  | tuple n elements => n.type.cells ++ cellsAll elements
  | dict n entries => n.type.cells ++ cellsEntries entries
  | schema n columns => n.type.cells ++ columns.flatMap fun c => c.2.cells

def cellsOption : Option Expr → List Cell
  | none => []
  | some e => cells e

def cellsAll : List Expr → List Cell
  | [] => []
  | e :: es => cells e ++ cellsAll es

def cellsEntries : List (Expr × Expr) → List Cell
  | [] => []
  | (k, v) :: es => cells k ++ cells v ++ cellsEntries es

def cellsPattern : Pattern Expr → List Cell
  | .type _ t guard => t.cells ++ cellsOption guard
  | .range n _ _ => n.type.cells
  | _ => []

def cellsCases : List (Pattern Expr × Expr) → List Cell
  | [] => []
  | (p, e) :: rest => cellsPattern p ++ cells e ++ cellsCases rest

end

end Expr

/-! ## Cells in cells -/

def Ref.cell (r : Ref) : Cell := .object r.index

def Scope.cells (s : Scope Ref TypeRef) : List Cell :=
  s.names.map (fun n => n.2.cell) ++ s.aliases.flatMap fun a => a.2.cells

def Closure.cells (c : Closure) : List Cell :=
  c.parameters.flatMap (fun p => p.2.cells) ++ c.body.cells ++ c.scope.cells

/-- The cells that an object names, apart from those of its type. -/
def Content.cells : Content → List Cell
  | .list i => [.sequence i]
  | .tuple i => [.sequence i]
  | .dict entries => entries.flatMap fun e => [e.1.cell, e.2.cell]
  | .schema i => [.columns i]
  | .table r i => [r.cell, .sequence i]
  | .func c => c.cells
  | .entry k v => [k.cell, v.cell]
  | _ => []

def Store.cellsOf (s : Store) : Cell → List Cell
  | .object i =>
    let o := s.object ⟨i⟩
    o.type.cells ++ o.content.cells
  | .sequence i => (s.sequence i).map Ref.cell
  | .columns i => (s.columnList i).flatMap fun c => c.2.cells
  | .members i => TypeRef.allCells (s.types.list i)
  | .tuple i => [.members (s.types.cell i)]

/-! ## Reaching -/

/-- Cells that were reached, each kind in the order in which they were found, and the new place of
each. -/
structure Region where
  objects : Array Nat := #[]
  sequences : Array Nat := #[]
  columns : Array Nat := #[]
  members : Array Nat := #[]
  tuples : Array Nat := #[]
  places : Std.HashMap Cell Nat := {}

namespace Region

/-- Adds a cell, whose copy goes after the cells of the store `s` and the copies before it. -/
def insert (g : Region) (s : Store) (c : Cell) : Region :=
  match c with
  | .object i =>
    { g with objects := g.objects.push i,
             places := g.places.insert c (s.objects.size + g.objects.size) }
  | .sequence i =>
    { g with sequences := g.sequences.push i,
             places := g.places.insert c (s.sequences.size + g.sequences.size) }
  | .columns i =>
    { g with columns := g.columns.push i,
             places := g.places.insert c (s.columns.size + g.columns.size) }
  | .members i =>
    { g with members := g.members.push i,
             places := g.places.insert c (s.types.lists.size + g.members.size) }
  | .tuple i =>
    { g with tuples := g.tuples.push i,
             places := g.places.insert c (s.types.cells.size + g.tuples.size) }

/-- The new place of a cell that is now at `i`. -/
def place (g : Region) (kind : Nat → Cell) (i : Nat) : Nat :=
  g.places.getD (kind i) i

def ref (g : Region) (r : Ref) : Ref :=
  ⟨g.place .object r.index⟩

def type (g : Region) (t : TypeRef) : TypeRef :=
  t.rename (g.place .members) (g.place .tuple)

def scope (g : Region) (s : Scope Ref TypeRef) : Scope Ref TypeRef :=
  { names := s.names.map fun n => (n.1, g.ref n.2)
    aliases := s.aliases.map fun a => (a.1, g.type a.2) }

def content (g : Region) : Content → Content
  | .list i => .list (g.place .sequence i)
  | .tuple i => .tuple (g.place .sequence i)
  | .dict entries => .dict (entries.map fun e => (g.ref e.1, g.ref e.2))
  | .schema i => .schema (g.place .columns i)
  | .table r i => .table (g.ref r) (g.place .sequence i)
  | .func c =>
    .func { c with
      parameters := c.parameters.map fun p => (p.1, g.type p.2)
      body := c.body.mapTypes g.type
      scope := g.scope c.scope }
  | .entry k v => .entry (g.ref k) (g.ref v)
  | c => c

end Region

namespace Store

/-- Visits a cell and what can be reached from it, to a depth of cells within cells. -/
def visit (s : Store) : Nat → Region → Cell → Region
  | 0, g, _ => g
  | depth + 1, g, c =>
    if g.places.contains c then g
    else (s.cellsOf c).foldl (s.visit depth) (g.insert s c)

def size (s : Store) : Nat :=
  s.objects.size + s.sequences.size + s.columns.size + s.types.lists.size + s.types.cells.size

/-- The cells that can be reached from `roots`. -/
def reach (s : Store) (roots : List Cell) : Region :=
  roots.foldl (s.visit (s.size + 1)) {}

def addRegion (s : Store) (g : Region) : Store :=
  { objects := s.objects ++ g.objects.map fun i =>
      let o := s.object ⟨i⟩
      ⟨g.type o.type, g.content o.content⟩
    sequences := s.sequences ++ g.sequences.map fun i => (s.sequences.getD i #[]).map g.ref
    columns := s.columns ++ g.columns.map fun i =>
      (s.columnList i).map fun c => (c.1, g.type c.2)
    types :=
      { lists := s.types.lists ++ g.members.map fun i => (s.types.list i).map g.type
        cells := s.types.cells ++ g.tuples.map fun i => g.place .members (s.types.cell i) } }

/-- Copies of objects, sharing what the objects share. -/
def copyAll (s : Store) (refs : List Ref) : List Ref × Store :=
  let g := s.reach (refs.map Ref.cell)
  (refs.map g.ref, s.addRegion g)

def copy (s : Store) (r : Ref) : Ref × Store :=
  let g := s.reach [r.cell]
  (g.ref r, s.addRegion g)

def copyScope (s : Store) (scope : Scope Ref TypeRef) : Scope Ref TypeRef × Store :=
  let g := s.reach scope.cells
  (g.scope scope, s.addRegion g)

/-- A copy of an expression, whose types are its own. -/
def copyExpr (s : Store) (e : Expr) : Expr × Store :=
  let g := s.reach e.cells
  (e.mapTypes g.type, s.addRegion g)

def copyTypes (s : Store) (ts : List TypeRef) : List TypeRef × Store :=
  let g := s.reach (TypeRef.allCells ts)
  (ts.map g.type, s.addRegion g)

end Store

end TableScript
