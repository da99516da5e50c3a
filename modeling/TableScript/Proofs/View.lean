import TableScript.Proofs.Mirrors

/-!
# What a program sees

`Store.SameView` says that two stores show the same value at a reference: the same type, content,
elements, columns and rows, to every depth. A machine is `Closed` if everything that can be reached
from its names is in its store, and then additions are not seen (`Store.Extends.sameView`).
-/

namespace TableScript

/-- Is the cell in the store? -/
def Store.Has (s : Store) : Cell → Prop
  | .object i => i < s.objects.size
  | .sequence i => i < s.sequences.size
  | .columns i => i < s.columns.size
  | .members i => i < s.types.lists.size
  | .tuple i => i < s.types.cells.size

/-- The cells that the cells of a store name are in the store. -/
def Store.Closed (s : Store) : Prop :=
  ∀ c, s.Has c → ∀ d ∈ s.cellsOf c, s.Has d

/-- The cells that the values and types of a scope name are in the store. -/
def Store.Holds (s : Store) (scope : Scope Ref TypeRef) : Prop :=
  ∀ c ∈ scope.cells, s.Has c

/-- The cells that names and their types name are in the store, and so is what these name. -/
structure Machine.Closed (m : Machine) : Prop where
  scope : m.store.Holds m.scope
  store : m.store.Closed

namespace Store

variable {s s' : Store}

/-! ## Deciding -/

instance (s : Store) : (c : Cell) → Decidable (s.Has c)
  | .object i => inferInstanceAs (Decidable (i < s.objects.size))
  | .sequence i => inferInstanceAs (Decidable (i < s.sequences.size))
  | .columns i => inferInstanceAs (Decidable (i < s.columns.size))
  | .members i => inferInstanceAs (Decidable (i < s.types.lists.size))
  | .tuple i => inferInstanceAs (Decidable (i < s.types.cells.size))

instance (s : Store) (scope : Scope Ref TypeRef) : Decidable (s.Holds scope) :=
  inferInstanceAs (Decidable (∀ c ∈ scope.cells, s.Has c))

theorem closed_iff (s : Store) : s.Closed ↔
    (∀ i < s.objects.size, ∀ d ∈ s.cellsOf (.object i), s.Has d) ∧
    (∀ i < s.sequences.size, ∀ d ∈ s.cellsOf (.sequence i), s.Has d) ∧
    (∀ i < s.columns.size, ∀ d ∈ s.cellsOf (.columns i), s.Has d) ∧
    (∀ i < s.types.lists.size, ∀ d ∈ s.cellsOf (.members i), s.Has d) ∧
    (∀ i < s.types.cells.size, ∀ d ∈ s.cellsOf (.tuple i), s.Has d) := by
  constructor
  · intro h
    exact ⟨fun i => h (.object i), fun i => h (.sequence i), fun i => h (.columns i),
      fun i => h (.members i), fun i => h (.tuple i)⟩
  · rintro ⟨hobjects, hsequences, hcolumns, hmembers, htuples⟩ c hc
    cases c with
    | object i => exact hobjects i hc
    | sequence i => exact hsequences i hc
    | columns i => exact hcolumns i hc
    | members i => exact hmembers i hc
    | tuple i => exact htuples i hc

instance (s : Store) : Decidable s.Closed :=
  decidable_of_iff _ s.closed_iff.symm

instance (m : Machine) : Decidable m.Closed :=
  decidable_of_iff (m.store.Holds m.scope ∧ m.store.Closed)
    ⟨fun h => ⟨h.1, h.2⟩, fun h => ⟨h.scope, h.store⟩⟩

theorem Holds.has {scope : Scope Ref TypeRef} (h : s.Holds scope) {n : String × Ref}
    (hn : n ∈ scope.names) : s.Has n.2.cell :=
  h _ (List.mem_append_left _ (List.mem_map_of_mem hn))

/-! ## Types -/

variable {i place : Nat}

section

variable (h : s.Extends s') (hs : s.Closed)
include h hs

theorem Extends.cellEnds_of {ends ends' : Nat → Bool} {c : Cell} (hc : s.Has c)
    (hends : ∀ {i}, s.Has (.members i) → ends' i = true → ends i = true)
    (hend : s'.types.CellEnds ends' c) : s.types.CellEnds ends c := by
  cases c with
  | members i => exact hends hc hend
  | tuple i =>
    obtain ⟨-, hend⟩ := hend
    rw [h.types.cell_eq hc] at hend
    exact ⟨hc, hends (hs _ hc _ (List.mem_singleton_self _)) hend⟩
  | _ => trivial

theorem Extends.membersEnd_of {k : Nat} (hi : s.Has (.members i))
    (hend : s'.types.membersEnd k i = true) : s.types.membersEnd k i = true := by
  induction k generalizing i with
  | zero => cases hend
  | succ k ih =>
    rw [TypeStore.membersEnd, Bool.and_eq_true, h.types.list_eq hi,
      TypeStore.allEndWith_iff] at hend
    rw [TypeStore.membersEnd, Bool.and_eq_true, TypeStore.allEndWith_iff]
    exact ⟨decide_eq_true hi, fun c hc =>
      h.cellEnds_of hs (hs _ hi c hc) (fun hhas => ih hhas) (hend.2 c hc)⟩

theorem Extends.ends_iff {t : TypeRef} (ht : ∀ c ∈ t.cells, s.Has c) :
    s'.types.ends t = true ↔ s.types.ends t = true := by
  refine ⟨fun hend => ?_, h.types.ends⟩
  rw [TypeStore.ends, TypeStore.endsBy, TypeStore.endsWith_iff] at hend
  refine TypeStore.ends_iff.mpr ⟨s'.types.lists.size + 1, TypeStore.endsWith_iff t |>.mpr ?_⟩
  exact fun c hc => h.cellEnds_of hs (ht c hc) (fun hi => h.membersEnd_of hs hi) (hend c hc)

end

/-! ## Values -/

variable {r schema : Ref} {c : Cell}

theorem Closed.type (hs : s.Closed) (hr : s.Has r.cell) :
    ∀ c ∈ (s.object r).type.cells, s.Has c :=
  (List.forall_mem_append.mp (hs _ hr)).1

theorem Closed.content (hs : s.Closed) (hr : s.Has r.cell) :
    ∀ c ∈ (s.content r).cells, s.Has c :=
  (List.forall_mem_append.mp (hs _ hr)).2

theorem Closed.columns (hs : s.Closed) (hschema : s.Has schema.cell)
    (h : s.content schema = .schema place) : s.Has (.columns place) :=
  hs.content hschema _ (by simp [h, Content.cells])

theorem Extends.object_eq_of_has (h : s.Extends s') (hr : s.Has r.cell) :
    s'.object r = s.object r := by
  have hget := Array.getElem?_eq_getElem hr
  rw [object_of_getElem? (h.objects hget), object_of_getElem? hget]

theorem Extends.sequence_eq (h : s.Extends s') (hi : s.Has (.sequence i)) :
    s'.sequence i = s.sequence i := by
  have hget := Array.getElem?_eq_getElem hi
  rw [sequence_of_getElem? (h.sequences hget), sequence_of_getElem? hget]

theorem Extends.columnList_eq (h : s.Extends s') (hi : s.Has (.columns i)) :
    s'.columnList i = s.columnList i := by
  have hget := Array.getElem?_eq_getElem hi
  rw [columnList_of_getElem? (h.columns hget), columnList_of_getElem? hget]

theorem Closed.columnsOf_eq (hs : s.Closed) (hschema : s.Has schema.cell)
    (hobjects : ∀ {i : Nat} {o}, s.objects[i]? = some o → s'.objects[i]? = some o)
    (hcolumns : ∀ {i : Nat} {l}, s.columns[i]? = some l → s'.columns[i]? = some l) :
    s'.columnsOf schema = s.columnsOf schema := by
  have hget := Array.getElem?_eq_getElem hschema
  have hcontent : s'.content schema = s.content schema := by
    rw [content_of_getElem? (hobjects hget), content_of_getElem? hget]
  rw [columnsOf, columnsOf, hcontent]
  split
  · next place hplace =>
    have hget := Array.getElem?_eq_getElem (hs.columns hschema hplace)
    rw [columnList_of_getElem? (hcolumns hget), columnList_of_getElem? hget]
  · rfl

theorem Extends.columnsOf_eq (h : s.Extends s') (hs : s.Closed) (hschema : s.Has schema.cell) :
    s'.columnsOf schema = s.columnsOf schema :=
  hs.columnsOf_eq hschema h.objects h.columns

theorem Closed.mem_columnList (hs : s.Closed) (hplace : s.Has (.columns place)) :
    ∀ column ∈ s.columnList place, ∀ c ∈ column.2.cells, s.Has c :=
  fun column hcolumn c hc => hs _ hplace c (List.mem_flatMap.mpr ⟨column, hcolumn, hc⟩)

theorem Closed.mem_columnsOf (hs : s.Closed) (hschema : s.Has schema.cell) :
    ∀ column ∈ s.columnsOf schema, ∀ c ∈ column.2.cells, s.Has c := by
  unfold columnsOf
  split
  · next place hplace => exact hs.mem_columnList (hs.columns hschema hplace)
  · simp

/-- Two stores show the same value at a reference. -/
def SameView (s s' : Store) (r : Ref) : Prop :=
  ∀ typeDepth depth, s'.valueTo typeDepth depth r = s.valueTo typeDepth depth r

/-! ## Closed parts -/

theorem Extends.has (h : s.Extends s') (hc : s.Has c) : s'.Has c := by
  have hmono {α : Type} {xs ys : Array α} (h : ∀ {i : Nat} {a}, xs[i]? = some a →
      ys[i]? = some a) {i : Nat} (hi : i < xs.size) : i < ys.size :=
    (Array.getElem?_eq_some_iff.mp (h (Array.getElem?_eq_getElem hi))).1
  cases c with
  | object i => exact hmono h.objects hc
  | sequence i => exact hmono h.sequences hc
  | columns i => exact hmono h.columns hc
  | members i => exact hmono h.types.lists hc
  | tuple i => exact hmono h.types.cells hc

theorem Extends.cellsOf_eq (h : s.Extends s') (hc : s.Has c) :
    s'.cellsOf c = s.cellsOf c := by
  cases c with
  | object i => simp only [cellsOf, h.object_eq_of_has (r := ⟨i⟩) hc]
  | sequence i => rw [cellsOf, cellsOf, h.sequence_eq hc]
  | columns i => rw [cellsOf, cellsOf, h.columnList_eq hc]
  | members i => rw [cellsOf, cellsOf, h.types.list_eq hc]
  | tuple i => rw [cellsOf, cellsOf, h.types.cell_eq hc]

/-- The cells in `P` are in the store, and name cells in `P`. -/
def ClosedAt (s : Store) (P : Cell → Prop) : Prop :=
  ∀ c, P c → s.Has c ∧ ∀ d ∈ s.cellsOf c, P d

/-- Everything that can be reached from the cell is in the store. -/
def Sound (s : Store) (c : Cell) : Prop :=
  ∃ P, s.ClosedAt P ∧ P c

theorem closedAt_sound (s : Store) : s.ClosedAt s.Sound := by
  rintro c ⟨P, hP, hc⟩
  exact ⟨(hP c hc).1, fun d hd => ⟨P, hP, (hP c hc).2 d hd⟩⟩

theorem Closed.sound (hs : s.Closed) (hc : s.Has c) : s.Sound c :=
  ⟨s.Has, fun c hc => ⟨hc, hs c hc⟩, hc⟩

section

variable (h : s.Extends s')

include h

theorem Extends.sound (hc : s.Sound c) : s'.Sound c := by
  refine ⟨s.Sound, fun d hd => ?_, hc⟩
  obtain ⟨hhas, hcells⟩ := s.closedAt_sound d hd
  rw [h.cellsOf_eq hhas]
  exact ⟨h.has hhas, hcells⟩

theorem Extends.mirrors : Mirrors s.Sound {} s s' where
  closed c hc := (s.closedAt_sound c hc).2
  object r hr := by
    rw [Store.content, Store.content, Region.ref_empty, Region.type_empty,
      h.object_eq_of_has (s.closedAt_sound _ hr).1]
    refine ⟨rfl, ?_⟩
    cases (s.object r).content <;>
      simp [Content.seen, Region.content, Region.place_empty, Region.ref_empty, Region.type_empty]
  sequence i hi := by
    rw [Region.place_empty, Region.ref_empty, h.sequence_eq (s.closedAt_sound _ hi).1, List.map_id']
  columns i hi := by
    rw [Region.place_empty, Region.type_empty, h.columnList_eq (s.closedAt_sound _ hi).1,
      List.map_id']
  members i hi := by
    rw [Region.place_empty, Region.type_empty, h.types.list_eq (s.closedAt_sound _ hi).1,
      List.map_id']
  tuple i hi := by
    rw [Region.place_empty, Region.place_empty, h.types.cell_eq (s.closedAt_sound _ hi).1]

theorem Extends.sameView_of_sound (hr : s.Sound r.cell) : s.SameView s' r := by
  intro k d
  have hvalue := h.mirrors.valueTo_eq k d hr
  rwa [Region.ref_empty] at hvalue

/-- Additions are not seen. -/
theorem Extends.sameView (hs : s.Closed) (hr : s.Has r.cell) : s.SameView s' r :=
  h.sameView_of_sound (hs.sound hr)

theorem Extends.plainTypeTo_eq (hs : s.Closed) (k : Nat) {t : TypeRef}
    (ht : ∀ c ∈ t.cells, s.Has c) : s'.plainTypeTo k t = s.plainTypeTo k t := by
  have htype := h.mirrors.type k t fun c hc => hs.sound (ht c hc)
  rwa [Region.type_empty] at htype

end

end Store

end TableScript
