import TableScript.Proofs.TableAppend

/-!
# Appending keeps machines closed

`append` edits the table that it is called on, but puts nothing into it that is not in the store:
each edit leaves the cells where they are, and what a cell names after it was named before or is in
the store (`Store.Edited`). So a store that is closed is closed after each call, however many rows
are taken (`Primitive.closed_append`).
-/

namespace TableScript

namespace Store

/-- An edit that leaves the cells where they are. What a cell names after it was named before or is
in the store. -/
structure Edited (s s' : Store) : Prop where
  has : ∀ c, s'.Has c ↔ s.Has c
  names : ∀ c, ∀ d ∈ s'.cellsOf c, d ∈ s.cellsOf c ∨ s.Has d

variable {s s' : Store} {place : Nat}

theorem Edited.refl (s : Store) : s.Edited s :=
  ⟨fun _ => .rfl, fun _ _ => .inl⟩

theorem Edited.trans {s'' : Store} (h : s.Edited s') (h' : s'.Edited s'') : s.Edited s'' where
  has c := (h'.has c).trans (h.has c)
  names c d hd := (h'.names c d hd).elim (h.names c d) fun hhas => .inr ((h.has d).mp hhas)

/-- The store after a step is closed, and has the cells of the store before it. -/
structure StaysClosed (s s' : Store) : Prop where
  closed : s'.Closed
  has : ∀ c, s.Has c → s'.Has c

theorem Edited.staysClosed (h : s.Edited s') (hs : s.Closed) : s.StaysClosed s' where
  closed c hc d hd := (h.has d).mpr ((h.names c d hd).elim (hs c ((h.has c).mp hc) d) id)
  has c := (h.has c).mpr

theorem StaysClosed.trans {s'' : Store} (h : s.StaysClosed s') (h' : s'.StaysClosed s'') :
    s.StaysClosed s'' :=
  ⟨h'.closed, fun c hc => h'.has c (h.has c hc)⟩

theorem staysClosed_add (hs : s.Closed) {o : Object}
    (ho : ∀ d ∈ o.type.cells ++ o.content.cells, s.Has d) : s.StaysClosed (s.add o).2 := by
  have hextends := s.extends_add o
  refine ⟨fun c hc d hd => hextends.has ?_, fun c => hextends.has⟩
  by_cases hold : s.Has c
  · exact hs c hold d (hextends.cellsOf_eq hold ▸ hd)
  · cases c with
    | object i =>
      have hsize : i < s.objects.size + 1 := (Array.size_push o).symm ▸ hc
      obtain rfl : i = s.objects.size := Nat.le_antisymm (Nat.le_of_lt_succ hsize)
        (Nat.le_of_not_lt hold)
      exact ho d (s.object_add o ▸ hd)
    | _ => exact absurd hc hold

theorem cells_modify {α : Type} (cells : α → List Cell) {xs : Array α}
    {f : α → α} {i j : Nat}
    {a : α} {P : Cell → Prop} (h : ∀ x, ∀ d ∈ cells (f x), d ∈ cells x ∨ P d) :
    ∀ d ∈ cells ((xs.modify i f).getD j a), d ∈ cells (xs.getD j a) ∨ P d := by
  intro d hd
  rw [Array.getD_eq_getD_getElem?, Array.getElem?_modify] at hd
  rw [Array.getD_eq_getD_getElem?]
  split at hd
  · cases hj : xs[j]? with
    | none => exact .inl (by simpa [hj] using hd)
    | some x => exact h x d (by simpa [hj] using hd)
  · exact .inl hd

/-! ## Single edits -/

theorem edited_appendElement {r : Ref} (hr : s.Has r.cell) :
    s.Edited (s.appendElement place r) where
  has c := by cases c <;> simp [Has, appendElement]
  names c := by
    cases c with
    | sequence i =>
      refine cells_modify (fun a : Array Ref => a.toList.map Ref.cell) fun a d hd => ?_
      rw [Array.toList_push, List.map_append, List.mem_append] at hd
      refine hd.imp_right fun h => ?_
      rwa [List.mem_singleton.mp h]
    | _ => exact fun _ => .inl

theorem edited_retarget {members : Nat} (h : s.Has (.members members)) :
    s.Edited (s.mapTypes (·.retarget place members)) where
  has c := by cases c <;> simp [Has, mapTypes, TypeStore.retarget]
  names c := by
    cases c with
    | tuple i =>
      exact cells_modify (fun j => [Cell.members j]) fun _ =>
        List.forall_mem_singleton.mpr (.inr h)
    | _ => exact fun _ => .inl

end Store

namespace Primitive

open EvalM Store

variable {m : Machine} {r : Ref} {t : TableView} {source : Nat}

theorem edited_withRow {s : Store} {row : Ref} (hrow : s.Has row.cell)
    (ht : ∀ members, t.type = .table members → s.Has (.members members)) :
    s.Edited (withRow s t row) := by
  have hadopt : s.Edited (adopt s t row) := by
    unfold adopt
    split
    · next members _ htable => exact edited_retarget (ht members htable)
    · exact .refl s
  exact hadopt.trans (edited_appendElement ((hadopt.has _).mpr hrow))

theorem edited_appendRows (hs : m.store.Closed) (hsource : m.store.Has (.sequence source))
    (ht : ∀ members, t.type = .table members → m.store.Has (.members members))
    (position : Option Position) (turns index : Nat) :
    m.store.Edited ((appendRows position t source turns index).exec m).2.store := by
  -- A row that is taken stands in a sequence of the store, which each turn leaves closed.
  refine appendRows_induction position (P := fun s s' => s.Closed → s.Has (.sequence source) →
    (∀ members, t.type = .table members → s.Has (.members members)) → s.Edited s')
    (fun s _ _ _ => .refl s) (fun s s' row hrow ih hs hsource ht => ?_) turns index m hs hsource ht
  have hedit := edited_withRow (hs.cell hsource hrow) ht
  have hafter := hedit.staysClosed hs
  exact hedit.trans (ih hafter.closed (hafter.has _ hsource) fun i hi => hafter.has _ (ht i hi))

/-- Appending rows to a table keeps the store closed, and what is in it stays in it, also if a table
is given its own rows. -/
theorem closed_append (hm : m.Closed) (h : AppendCall m r t source) (position : Option Position) :
    m.store.StaysClosed ((runAppend position).exec m).2.store := by
  obtain ⟨rows, hrows, hcontent⟩ := h.rows
  have hsource : m.store.Has (.sequence source) :=
    hm.store.content (hm.scope.has (mem_names_of_get? hrows)) _ (by simp [hcontent, Content.cells])
  have hafter := (edited_appendRows hm.store hsource (fun i hi => hm.store.members h.view hi)
    position (2 * (m.store.sequence source).length + 1) 0).staysClosed hm.store
  rw [exec_runAppend h position]
  rcases hexec : (appendRows position t source _ 0).exec m with ⟨halt | appended, m'⟩ <;>
    rw [hexec] at hafter
  · rw [exec_bind_halt hexec]
    exact hafter
  · rw [exec_bind_of hexec]
    cases appended with
    | true => exact hafter
    | false => exact hafter.trans (staysClosed_add hafter.closed fun d hd => by cases hd)

end Primitive

end TableScript
