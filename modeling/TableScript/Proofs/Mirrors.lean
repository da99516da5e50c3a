import TableScript.Proofs.Extension

/-!
# Stores that show the same

A program sees a value: types, contents, elements, columns and rows, to every depth, but no places
(`Store.valueTo`). `Store.Mirrors` says that one store shows some cells of another one at new
places; then the values are the same (`Store.Mirrors.valueTo_eq`).
-/

namespace TableScript

/-! ## New places -/

mutual

theorem TypeRef.rename_id (t : TypeRef) : t.rename (fun i => i) (fun i => i) = t := by
  cases t with
  | list a => exact congrArg list (rename_id a)
  | dict a b => exact congrArg₂ dict (rename_id a) (rename_id b)
  | func as a => exact congrArg₂ func (renameAll_id as) (rename_id a)
  | _ => rfl

theorem TypeRef.renameAll_id : ∀ ts : List TypeRef, renameAll (fun i => i) (fun i => i) ts = ts
  | [] => rfl
  | t :: ts => congrArg₂ List.cons (rename_id t) (renameAll_id ts)

end

namespace Region

theorem place_empty (kind : Nat → Cell) : ({} : Region).place kind = fun i => i := by
  funext i
  simp [place]

theorem type_empty : ({} : Region).type = fun t => t := by
  funext t
  rw [type, place_empty, place_empty, TypeRef.rename_id]

theorem ref_empty : ({} : Region).ref = fun r => r := by
  funext r
  rw [ref, place_empty]

theorem map_type (g : Region) (ts : List TypeRef) :
    ts.map g.type = TypeRef.renameAll (g.place .members) (g.place .tuple) ts := by
  induction ts with
  | nil => rfl
  | cons t ts ih => exact congrArg (_ :: ·) ih

end Region

/-! ## Types -/

namespace TypeStore

/-- Are the members of the list that a cell stands for the same in both stores, but for their
places? -/
def PlainMembers (s s' : TypeStore) (members members' : Nat → List PlacedType) (g : Region) :
    Cell → Prop
  | .members i => Shape.mapMarksAll (fun _ => ()) (members' (g.place .members i)) =
    Shape.mapMarksAll (fun _ => ()) (members i)
  | .tuple i => Shape.mapMarksAll (fun _ => ()) (members' (s'.cell (g.place .tuple i))) =
    Shape.mapMarksAll (fun _ => ()) (members (s.cell i))
  | _ => True

section

variable {s s' : TypeStore} {members members' : Nat → List PlacedType} {g : Region}

mutual

theorem plain_readWith (t : TypeRef)
    (h : ∀ c ∈ t.cells, PlainMembers s s' members members' g c) :
    (s'.readWith members' (g.type t)).plain = (s.readWith members t).plain := by
  cases t with
  | list a => exact congrArg Shape.list (plain_readWith a h)
  | dict a b =>
    obtain ⟨ha, hb⟩ := List.forall_mem_append.mp h
    exact congrArg₂ Shape.dict (plain_readWith a ha) (plain_readWith b hb)
  | func as a =>
    obtain ⟨has, ha⟩ := List.forall_mem_append.mp h
    exact congrArg₂ Shape.func (plain_readAllWith as has) (plain_readWith a ha)
  | union => exact congrArg (Shape.union ()) (h _ (List.mem_singleton_self _))
  | schema => exact congrArg (Shape.schema ()) (h _ (List.mem_singleton_self _))
  | table => exact congrArg (Shape.table ()) (h _ (List.mem_singleton_self _))
  | tuple => exact congrArg (Shape.tuple ()) (h _ (List.mem_singleton_self _))
  | _ => rfl

theorem plain_readAllWith : ∀ ts : List TypeRef,
    (∀ c ∈ TypeRef.allCells ts, PlainMembers s s' members members' g c) →
    Shape.mapMarksAll (fun _ => ()) (s'.readAllWith members'
        (TypeRef.renameAll (g.place .members) (g.place .tuple) ts)) =
      Shape.mapMarksAll (fun _ => ()) (s.readAllWith members ts)
  | [], _ => rfl
  | a :: as, h => by
    obtain ⟨ha, has⟩ := List.forall_mem_append.mp h
    exact congrArg₂ List.cons (plain_readWith a ha) (plain_readAllWith as has)

end

end

end TypeStore

/-! ## Values -/

/-- What a program sees of a content: of a function, its parameters. -/
def Content.seen : Content → Content
  | .func c => .func { c with body := .missing, scope := {} }
  | c => c

namespace Store

variable {s s' : Store}

/-- The cells in `P` name no others, and a store shows them at the places that `g` gives them. -/
structure Mirrors (P : Cell → Prop) (g : Region) (s s' : Store) : Prop where
  closed : ∀ c, P c → ∀ d ∈ s.cellsOf c, P d
  object : ∀ r, P r.cell → (s'.object (g.ref r)).type = g.type (s.object r).type ∧
    (s'.content (g.ref r)).seen = (g.content (s.content r)).seen
  sequence : ∀ i, P (.sequence i) → s'.sequence (g.place .sequence i) = (s.sequence i).map g.ref
  columns : ∀ i, P (.columns i) → s'.columnList (g.place .columns i) =
    (s.columnList i).map fun c => (c.1, g.type c.2)
  members : ∀ i, P (.members i) →
    s'.types.list (g.place .members i) = (s.types.list i).map g.type
  tuple : ∀ i, P (.tuple i) → s'.types.cell (g.place .tuple i) = g.place .members
    (s.types.cell i)

theorem valueWith_seen (s : Store) (type : TypeRef → Ty) (value : Ref → Value) (o : Object) :
    s.valueWith type value o = s.valueWith type value ⟨o.type, o.content.seen⟩ := by
  obtain ⟨t, c⟩ := o
  cases c <;> rfl

theorem columnsOf_seen (s : Store) (r : Ref) : s.columnsOf r = match (s.content r).seen with
    | .schema place => s.columnList place
    | _ => [] := by
  rw [columnsOf]
  cases s.content r <;> rfl

section

variable {P : Cell → Prop} {g : Region} (h : Mirrors P g s s')
include h

theorem Mirrors.plainMembers (k : Nat) {c : Cell} (hc : P c) :
    TypeStore.PlainMembers s.types s'.types (s.types.membersTo k) (s'.types.membersTo k) g c := by
  -- the cell of a tuple stands for a list, which is as deep
  have hmembers {i : Nat} (hi : P (.members i)) :
      Shape.mapMarksAll (fun _ => ()) (s'.types.membersTo k (g.place .members i)) =
        Shape.mapMarksAll (fun _ => ()) (s.types.membersTo k i) := by
    cases k with
    | zero => rfl
    | succ k =>
      rw [TypeStore.membersTo, TypeStore.membersTo, h.members i hi, g.map_type]
      exact TypeStore.plain_readAllWith _ fun d hd => plainMembers k (h.closed _ hi d hd)
  cases c with
  | members i => exact hmembers hc
  | tuple i =>
    rw [TypeStore.PlainMembers, h.tuple i hc]
    exact hmembers (h.closed _ hc _ (List.mem_singleton_self _))
  | _ => trivial

theorem Mirrors.type (k : Nat) (t : TypeRef) (ht : ∀ c ∈ t.cells, P c) :
    s'.plainTypeTo k (g.type t) = s.plainTypeTo k t :=
  TypeStore.plain_readWith t fun c hc => h.plainMembers k (ht c hc)

theorem Mirrors.typed_eq (k : Nat) {columns : List (String × TypeRef)}
    (hall : ∀ c ∈ columns, ∀ d ∈ c.2.cells, P d) :
    (columns.map fun c => (c.1, g.type c.2)).map (fun c => (c.1, s'.plainTypeTo k c.2)) =
      columns.map fun c => (c.1, s.plainTypeTo k c.2) := by
  rw [List.map_map]
  refine List.map_congr_left fun c hc => ?_
  rw [Function.comp_apply, h.type k c.2 (hall c hc)]

theorem Mirrors.columnList_eq (k : Nat) {place : Nat} (hplace : P (.columns place)) :
    (s'.columnList (g.place .columns place)).map (fun c => (c.1, s'.plainTypeTo k c.2)) =
      (s.columnList place).map fun c => (c.1, s.plainTypeTo k c.2) := by
  rw [h.columns place hplace]
  exact h.typed_eq k fun c hc d hd => h.closed _ hplace d (List.mem_flatMap.mpr ⟨c, hc, hd⟩)

theorem Mirrors.columnsOf_eq (k : Nat) {schema : Ref} (hschema : P schema.cell) :
    (s'.columnsOf (g.ref schema)).map (fun c => (c.1, s'.plainTypeTo k c.2)) =
      (s.columnsOf schema).map fun c => (c.1, s.plainTypeTo k c.2) := by
  have hcells : ∀ c ∈ (s.content schema).cells, P c :=
    (List.forall_mem_append.mp (h.closed _ hschema)).2
  rw [columnsOf_seen, columnsOf_seen, (h.object schema hschema).2]
  cases hc : s.content schema with
  | schema place => exact h.columnList_eq k (hcells _ (by simp [hc, Content.cells]))
  | _ => rfl

theorem Mirrors.valueWith_eq (k : Nat) {value value' : Ref → Value}
    (hvalue : ∀ e, P e.cell → value' (g.ref e) = value e) {r : Ref} (hr : P r.cell) :
    s'.valueWith (s'.plainTypeTo k) value' (s'.object (g.ref r)) =
      s.valueWith (s.plainTypeTo k) value (s.object r) := by
  obtain ⟨htype, hseen⟩ := h.object r hr
  obtain ⟨hcells, hcontent⟩ := List.forall_mem_append.mp (h.closed _ hr)
  have hvalues {i : Nat} (hi : P (.sequence i)) :
      (s'.sequence (g.place .sequence i)).map value' = (s.sequence i).map value := by
    rw [h.sequence i hi, List.map_map]
    exact List.map_congr_left fun e he => hvalue e (h.closed _ hi _ (List.mem_map_of_mem he))
  change ∀ d ∈ (s.content r).cells, P d at hcontent
  rw [valueWith_seen, ← content, hseen, htype, ← valueWith_seen s' _ _ ⟨_, g.content _⟩]
  unfold valueWith
  rw [← content, h.type k (s.object r).type hcells]
  cases hc : s.content r <;> simp only [Region.content] <;> rw [hc] at hcontent
  case list | tuple => rw [hvalues (hcontent _ (List.mem_singleton_self _))]
  case schema => rw [h.columnList_eq k (hcontent _ (List.mem_singleton_self _))]
  case dict entries =>
    rw [List.map_map]
    refine congrArg _ (List.map_congr_left fun e he => ?_)
    have hmem {c : Cell} (hcell : c ∈ [e.1.cell, e.2.cell]) : P c :=
      hcontent c (List.mem_flatMap.mpr ⟨e, he, hcell⟩)
    exact congrArg₂ Prod.mk (hvalue e.1 (hmem (by simp))) (hvalue e.2 (hmem (by simp)))
  case entry key e => simp_all [Content.cells]
  case func c =>
    rw [h.typed_eq k fun p hp d hd => hcontent d (List.mem_append_left _ (List.mem_append_left _
      (List.mem_flatMap.mpr ⟨p, hp, hd⟩)))]
  case table schema rows =>
    obtain ⟨hschema, hrows, -⟩ : P schema.cell ∧ P (.sequence rows) ∧ _ :=
      List.forall_mem_cons.mp hcontent |>.imp_right List.forall_mem_cons.mp
    rw [hvalues hrows, h.columnsOf_eq k hschema, (h.object schema hschema).1,
      h.type k (s.object schema).type (List.forall_mem_append.mp (h.closed _ hschema)).1]

/-- A value is seen at its new place as at the old one. -/
theorem Mirrors.valueTo_eq (k d : Nat) {r : Ref} (hr : P r.cell) :
    s'.valueTo k d (g.ref r) = s.valueTo k d r := by
  induction d generalizing r with
  | zero => rfl
  | succ d ih => exact h.valueWith_eq k (fun e he => ih he) hr

end

end Store

end TableScript
