import TableScript.Proofs.Exec
import TableScript.Proofs.Reading

/-!
# Steps that only add

`Store.Extends` is what happens to a store when a program adds to it and changes nothing: every
object, sequence and column list stays what it is, and so do the lists of types. Steps that look
things up change nothing at all, and the steps that make values only add (`EvalM.Moves` along
`Store.Extends`).
-/

namespace TableScript

namespace Store

/-- Everything in one store is in the other one. -/
structure Extends (s s' : Store) : Prop where
  objects : ∀ {i : Nat} {o}, s.objects[i]? = some o → s'.objects[i]? = some o
  sequences : ∀ {i : Nat} {a}, s.sequences[i]? = some a → s'.sequences[i]? = some a
  columns : ∀ {i : Nat} {l}, s.columns[i]? = some l → s'.columns[i]? = some l
  types : s.types.Extends s'.types

instance : Std.Refl Extends :=
  ⟨fun s => ⟨id, id, id, .refl s.types⟩⟩

instance : Trans Extends Extends Extends :=
  ⟨fun h h' => ⟨fun hi => h'.objects (h.objects hi), fun hi => h'.sequences (h.sequences hi),
    fun hi => h'.columns (h.columns hi), h.types.trans h'.types⟩⟩

theorem Extends.refl (s : Store) : s.Extends s :=
  Std.Refl.refl s

variable {s s' : Store} {r : Ref} {i : Nat}

theorem Extends.trans {s'' : Store} (h : s.Extends s') (h' : s'.Extends s'') : s.Extends s'' :=
  Trans.trans h h'

/-! ## Looking things up -/

theorem object_of_getElem? {o : Object} (h : s.objects[r.index]? = some o) :
    s.object r = o := by
  simp [object, Array.getD_eq_getD_getElem?, h]

theorem content_of_getElem? {o : Object} (h : s.objects[r.index]? = some o) :
    s.content r = o.content := by
  rw [content, object_of_getElem? h]

theorem sequence_of_getElem? {a : Array Ref} (h : s.sequences[i]? = some a) :
    s.sequence i = a.toList := by
  simp [sequence, Array.getD_eq_getD_getElem?, h]

theorem columnList_of_getElem? {l : List (String × TypeRef)} (h : s.columns[i]? = some l) :
    s.columnList i = l := by
  simp [columnList, Array.getD_eq_getD_getElem?, h]

theorem getElem?_of_content (h : s.content r ≠ .none) :
    s.objects[r.index]? = some (s.object r) := by
  cases hget : s.objects[r.index]? with
  | none => exact absurd (by simp [content, object, Array.getD_eq_getD_getElem?, hget]) h
  | some o => rw [object_of_getElem? hget]

theorem Extends.object_eq (h : s.Extends s') (hr : s.content r ≠ .none) :
    s'.object r = s.object r :=
  object_of_getElem? (h.objects (getElem?_of_content hr))

theorem Extends.content_eq (h : s.Extends s') (hr : s.content r ≠ .none) :
    s'.content r = s.content r := by
  rw [content, content, h.object_eq hr]

/-! ## Adding -/

theorem getElem?_push_of_some {α : Type} {xs : Array α} {a : α} (x : α) (h : xs[i]? = some a) :
    (xs.push x)[i]? = some a := by
  have hi := (Array.getElem?_eq_some_iff.mp h).1
  rw [Array.getElem?_push, if_neg (Nat.ne_of_lt hi), h]

theorem getElem?_append_of_some {α : Type} {xs : Array α} {a : α} (ys : Array α)
    (h : xs[i]? = some a) : (xs ++ ys)[i]? = some a := by
  have hi := (Array.getElem?_eq_some_iff.mp h).1
  rw [Array.getElem?_append, if_pos hi, h]

theorem extends_add (s : Store) (o : Object) : s.Extends (s.add o).2 :=
  ⟨getElem?_push_of_some _, id, id, .refl _⟩

theorem object_add (s : Store) (o : Object) : (s.add o).2.object (s.add o).1 = o :=
  object_of_getElem? Array.getElem?_push_size

theorem extends_addSequence (s : Store) (refs : List Ref) : s.Extends (s.addSequence refs).2 :=
  ⟨id, getElem?_push_of_some _, id, .refl _⟩

theorem sequence_addSequence (s : Store) (refs : List Ref) :
    (s.addSequence refs).2.sequence (s.addSequence refs).1 = refs :=
  sequence_of_getElem? (a := refs.toArray) Array.getElem?_push_size

theorem extends_addColumns (s : Store) (columns : List (String × TypeRef)) :
    s.Extends (s.addColumns columns).2 :=
  ⟨id, id, getElem?_push_of_some _, .refl _⟩

theorem extends_addRegion (s : Store) (g : Region) : s.Extends (s.addRegion g) :=
  ⟨getElem?_append_of_some _, getElem?_append_of_some _, getElem?_append_of_some _,
    getElem?_append_of_some _, getElem?_append_of_some _⟩

theorem extends_of_types {types : TypeStore} (h : s.types.Extends types) :
    s.Extends { s with types } :=
  ⟨id, id, id, h⟩

end Store

namespace TypeStore

theorem extends_addList (s : TypeStore) (members : List TypeRef) :
    s.Extends (s.addList members).2 :=
  ⟨Store.getElem?_push_of_some _, id⟩

theorem extends_addCell (s : TypeStore) (place : Nat) : s.Extends (s.addCell place).2 :=
  ⟨id, Store.getElem?_push_of_some _⟩

theorem extends_addTuple (s : TypeStore) (members : List TypeRef) :
    s.Extends (s.addTuple members).2 :=
  (s.extends_addList members).trans (extends_addCell _ _)

end TypeStore

/-! ## Steps -/

namespace EvalM

namespace Moves

variable {R : Store → Store → Prop} [Std.Refl R] [Trans R R R]

theorem typeOf (r : Ref) : (typeOf r).Moves R := by
  refine bind (object r) fun o => ?_
  split
  · exact fault _
  · exact pure _

theorem readType (t : TypeRef) : (readType t).Moves R := by
  refine bind store fun s => ?_
  dsimp only
  split
  · exact pure _
  · exact fault _

theorem checkWith {mismatch : String → EvalM Unit} (h : ∀ text, (mismatch text).Moves R)
    (found expected : PlacedType) : (checkWith mismatch found expected).Moves R := by
  unfold EvalM.checkWith
  split
  · exact pure _
  · exact pure _
  · exact bind (ofExcept _) fun text => bind (h text) fun _ => pure _

theorem conforms (position : Option Position) (found expected : TypeRef) :
    (conforms position found expected).Moves R := by
  refine bind (bind (readType found) fun a => bind (readType expected) fun b => ?_) fun _ => pure _
  exact checkWith (fun text => report text position) a b

theorem lookup (word label : String) (position : Option Position) :
    (lookup word label position).Moves R := by
  refine bind get fun m => ?_
  split
  · exact pure _
  · exact report _ _

end Moves

theorem moves_make {α : Type} {R : Store → Store → Prop} {f : Store → α × Store}
    (h : ∀ s, R s (f s).2) : (make f).Moves R :=
  fun m => h m.store

theorem moves_new (type : TypeRef) (content : Content) : (new type content).Moves Store.Extends :=
  moves_make fun s => s.extends_add _

theorem moves_makeType {α : Type} {f : TypeStore → α × TypeStore}
    (h : ∀ s, TypeStore.Extends s (f s).2) : (makeType f).Moves Store.Extends :=
  fun m => Store.extends_of_types (h m.store.types)

theorem moves_newList (type : TypeRef) (elements : List Ref) :
    (newList type elements).Moves Store.Extends :=
  .bind (moves_make fun s => s.extends_addSequence elements) fun _ => moves_new _ _

theorem moves_newTuple (type : TypeRef) (elements : List Ref) :
    (newTuple type elements).Moves Store.Extends :=
  .bind (moves_make fun s => s.extends_addSequence elements) fun _ => moves_new _ _

end EvalM

end TableScript
