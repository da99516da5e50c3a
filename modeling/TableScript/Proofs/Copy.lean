import TableScript.Proofs.View

/-!
# Copies

A copy lies behind everything that was there before (`Region.Placed`). The region of what is copied
contains what its cells name: a visit goes as deep as there are cells, and each step down finds a
new one (`Store.Visited`). A change of a copy is no change of what is copied (`Store.copy_schema`).
-/

namespace TableScript

variable {copies : Array Nat} {p i : Nat} {c : Cell} {roots : List Cell} {r : Ref} {refs : List Ref}

namespace Region

/-- The copies of one kind of cells: the one at `p` in a store that had `size` of them is made from
the cell at `i`. -/
def IsAt (copies : Array Nat) (size p i : Nat) : Prop :=
  size ≤ p ∧ copies[p - size]? = some i

/-- The new place of a cell is behind the cells of the store, and its copy is made there. -/
def PlacedAt (g : Region) (s : Store) (p : Nat) : Cell → Prop
  | .object i => IsAt g.objects s.objects.size p i
  | .sequence i => IsAt g.sequences s.sequences.size p i
  | .columns i => IsAt g.columns s.columns.size p i
  | .members i => IsAt g.members s.types.lists.size p i
  | .tuple i => IsAt g.tuples s.types.cells.size p i

/-- Every cell of the region has its copy where the region says. -/
def Placed (g : Region) (s : Store) : Prop :=
  ∀ c p, g.places[c]? = some p → g.PlacedAt s p c

theorem IsAt.push {size : Nat} (h : IsAt copies size p i) (j : Nat) :
    IsAt (copies.push j) size p i :=
  ⟨h.1, Store.getElem?_push_of_some j h.2⟩

theorem isAt_push_self (copies : Array Nat) (size i : Nat) :
    IsAt (copies.push i) size (size + copies.size) i := by
  refine ⟨Nat.le_add_right _ _, ?_⟩
  rw [Nat.add_sub_cancel_left, Array.getElem?_push, if_pos rfl]

variable {g : Region}

theorem PlacedAt.insert {s : Store} (h : g.PlacedAt s p c) (d : Cell) :
    (g.insert s d).PlacedAt s p c := by
  cases c <;> cases d <;> first | exact h | exact IsAt.push h _

theorem places_insert (g : Region) (s : Store) (c : Cell) :
    ∃ p, (g.insert s c).places = g.places.insert c p ∧ (g.insert s c).PlacedAt s p c := by
  cases c <;> exact ⟨_, rfl, isAt_push_self _ _ _⟩

theorem Placed.insert {s : Store} (h : g.Placed s) (c : Cell) : (g.insert s c).Placed s := by
  intro d p hd
  obtain ⟨q, hplaces, hc⟩ := places_insert g s c
  rw [hplaces, Std.HashMap.getElem?_insert] at hd
  split at hd
  · next heq =>
    obtain rfl : c = d := eq_of_beq heq
    cases hd
    exact hc
  · exact (h d p hd).insert c

theorem contains_insert (g : Region) (s : Store) (c d : Cell) :
    (g.insert s c).places.contains d = (c == d || g.places.contains d) := by
  obtain ⟨p, hplaces, -⟩ := places_insert g s c
  rw [hplaces, Std.HashMap.contains_insert]

end Region

namespace Store

variable {s s' : Store} {g : Region}

/-! ## Visits -/

variable {depth : Nat} {P : Region → Prop}

theorem foldl_visit_induction (hvisit : ∀ g c, P g → P (s.visit depth g c)) (cs : List Cell)
    (hg : P g) : P (cs.foldl (s.visit depth) g) := by
  induction cs generalizing g with
  | nil => exact hg
  | cons c cs ih => exact ih (hvisit g c hg)

theorem visit_induction (hinsert : ∀ g c, P g → P (g.insert s c)) (depth : Nat) (hg : P g) :
    P (s.visit depth g c) := by
  induction depth generalizing g c with
  | zero => exact hg
  | succ depth ih =>
    rw [visit]
    split
    · exact hg
    · exact foldl_visit_induction (fun g c hg => ih hg) _ (hinsert g c hg)

theorem placed_visit (depth : Nat) (hg : g.Placed s) : (s.visit depth g c).Placed s :=
  visit_induction (P := (·.Placed s)) (fun _ c hg => hg.insert c) depth hg

theorem getElem?_append_map {α : Type} {xs : Array α} (h : Region.IsAt copies xs.size p i)
    (f : Nat → α) : (xs ++ copies.map f)[p]? = some (f i) := by
  rw [Array.getElem?_append, if_neg (Nat.not_lt.mpr h.1), Array.getElem?_map, h.2]
  rfl

theorem placed_reach (s : Store) (roots : List Cell) : (s.reach roots).Placed s := by
  refine foldl_visit_induction (P := (·.Placed s)) (fun _ _ hg => placed_visit _ hg) roots ?_
  intro c p hc
  rw [Std.HashMap.getElem?_empty] at hc
  cases hc

theorem placedAt_place (hg : g.Placed s) (kind : Nat → Cell)
    (hi : g.places.contains (kind i) = true) : g.PlacedAt s (g.place kind i) (kind i) := by
  rw [Std.HashMap.contains_eq_isSome_getElem?, Option.isSome_iff_exists] at hi
  obtain ⟨p, hp⟩ := hi
  refine hg (kind i) _ ?_
  rw [Region.place, Std.HashMap.getD_eq_getD_getElem?, hp]
  rfl

theorem extends_copy (s : Store) (r : Ref) : s.Extends (s.copy r).2 :=
  s.extends_addRegion _

/-! ## Regions are closed -/

/-- The cells of the store. -/
def allCells (s : Store) : List Cell :=
  (List.range s.objects.size).map .object ++ (List.range s.sequences.size).map .sequence ++
    (List.range s.columns.size).map .columns ++ (List.range s.types.lists.size).map .members ++
      (List.range s.types.cells.size).map .tuple

theorem size_places_le (h : ∀ c, g.places.contains c = true → s.Has c) :
    g.places.size ≤ s.size := by
  have hsubset : g.places.keys ⊆ s.allCells := by
    intro c hc
    have hhas := h c (Std.HashMap.contains_iff_mem.mpr (Std.HashMap.mem_keys.mp hc))
    cases c <;> simpa [allCells, Has] using hhas
  have hnodup : g.places.keys.Nodup := Std.HashMap.nodup_keys
  have hlength := (hnodup.subperm hsubset).length_le
  rw [Std.HashMap.length_keys] at hlength
  simpa [allCells, size, Nat.add_assoc] using hlength

/-- What visits of cells in `P` do. -/
structure Visited (s : Store) (P : Cell → Prop) (g g' : Region) : Prop where
  keeps : ∀ c, g.places.contains c = true → g'.places.contains c = true
  inside : ∀ c, g'.places.contains c = true → P c
  size : g.places.size ≤ g'.places.size
  covers : ∀ c, g'.places.contains c = true → g.places.contains c = true ∨
    ∀ d ∈ s.cellsOf c, g'.places.contains d = true

theorem Visited.trans {P : Cell → Prop} {g' g'' : Region} (h : s.Visited P g g')
    (h' : s.Visited P g' g'') : s.Visited P g g'' where
  keeps c hc := h'.keeps c (h.keeps c hc)
  inside := h'.inside
  size := Nat.le_trans h.size h'.size
  covers c hc := by
    rcases h'.covers c hc with hc | hall
    · exact (h.covers c hc).imp_right fun hall d hd => h'.keeps d (hall d hd)
    · exact .inr hall

section

variable {P : Cell → Prop} (hP : s.ClosedAt P)

theorem visited_foldl (hvisit : ∀ {g c}, (∀ d, g.places.contains d = true → P d) → P c →
      s.size < depth + g.places.size →
      s.Visited P g (s.visit depth g c) ∧ (s.visit depth g c).places.contains c = true)
    {cs : List Cell} (hcs : ∀ c ∈ cs, P c) (hg : ∀ d, g.places.contains d = true → P d)
    (hdepth : s.size < depth + g.places.size) :
    s.Visited P g (cs.foldl (s.visit depth) g) ∧
      ∀ c ∈ cs, (cs.foldl (s.visit depth) g).places.contains c = true := by
  induction cs generalizing g with
  | nil => exact ⟨⟨fun _ => id, hg, Nat.le_refl _, fun _ => .inl⟩, fun _ hc => by cases hc⟩
  | cons c cs ih =>
    obtain ⟨hc, hcs⟩ := List.forall_mem_cons.mp hcs
    obtain ⟨hfirst, hself⟩ := hvisit hg hc hdepth
    obtain ⟨hrest, hall⟩ := ih hcs hfirst.inside (Nat.lt_of_lt_of_le hdepth
      (Nat.add_le_add_left hfirst.size _))
    exact ⟨hfirst.trans hrest, List.forall_mem_cons.mpr ⟨hrest.keeps c hself, hall⟩⟩

include hP

theorem visited_visit (depth : Nat) (hg : ∀ d, g.places.contains d = true → P d) (hc : P c)
    (hdepth : s.size < depth + g.places.size) :
    s.Visited P g (s.visit depth g c) ∧ (s.visit depth g c).places.contains c = true := by
  induction depth generalizing g c with
  | zero =>
    have hsize := size_places_le fun d hd => (hP d (hg d hd)).1
    omega
  | succ depth ih =>
    rw [visit]
    split
    · next hfound => exact ⟨⟨fun _ => id, hg, Nat.le_refl _, fun _ => .inl⟩, hfound⟩
    · next hnew =>
      have hcontains (d : Cell) : (g.insert s c).places.contains d = true ↔
          c = d ∨ g.places.contains d = true := by
        rw [g.contains_insert, Bool.or_eq_true, beq_iff_eq]
      have hsize : (g.insert s c).places.size = g.places.size + 1 := by
        obtain ⟨p, hplaces, -⟩ := g.places_insert s c
        rw [hplaces, Std.HashMap.size_insert, if_neg (by simpa using hnew)]
      obtain ⟨hvisited, hall⟩ := visited_foldl (fun hg hc => ih hg hc) (hP c hc).2
        (fun d hd => ((hcontains d).mp hd).elim (fun heq => heq ▸ hc) (hg d)) (by omega)
      refine ⟨⟨fun d hd => hvisited.keeps d ((hcontains d).mpr (.inr hd)), hvisited.inside,
        by have := hvisited.size; omega, fun d hd => ?_⟩,
        hvisited.keeps c ((hcontains c).mpr (.inl rfl))⟩
      rcases hvisited.covers d hd with hd | hd
      · rcases (hcontains d).mp hd with rfl | hd
        · exact .inr hall
        · exact .inl hd
      · exact .inr hd

theorem covers_reach (hroots : ∀ c ∈ roots, P c) :
    (∀ c ∈ roots, (s.reach roots).places.contains c = true) ∧
      ∀ c, (s.reach roots).places.contains c = true →
        ∀ d ∈ s.cellsOf c, (s.reach roots).places.contains d = true := by
  obtain ⟨hvisited, hall⟩ := visited_foldl (g := {}) (fun hg hc => visited_visit hP _ hg hc)
    hroots (fun d hd => by simp at hd) (Nat.lt_add_right _ (Nat.lt_succ_self s.size))
  exact ⟨hall, fun c hc => (hvisited.covers c hc).resolve_left (by simp)⟩

end

end Store

/-! ## The cells of copies -/

namespace Region

/-- A store has copies of the cells of a region, and these name nothing else. -/
structure Copies (g : Region) (s s' : Store) : Prop where
  placed : g.Placed s
  covers : ∀ c, g.places.contains c = true → ∀ d ∈ s.cellsOf c, g.places.contains d = true
  adds : (s.addRegion g).Extends s'

namespace Copies

variable {g : Region} {s s' : Store} (h : g.Copies s s')
include h

theorem object (hr : g.places.contains r.cell = true) :
    s'.objects[(g.ref r).index]? =
      some ⟨g.type (s.object r).type, g.content (s.object r).content⟩ :=
  h.adds.objects (Store.getElem?_append_map (Store.placedAt_place h.placed .object hr) _)

theorem members (hi : g.places.contains (.members i) = true) :
    s'.types.lists[g.place .members i]? = some ((s.types.list i).map g.type) :=
  h.adds.types.lists (Store.getElem?_append_map (Store.placedAt_place h.placed .members hi) _)

end Copies

end Region

namespace Store

variable {s s' : Store} {place : Nat}

theorem copies_reach (hroots : ∀ c ∈ roots, s.Sound c)
    (h : (s.addRegion (s.reach roots)).Extends s') :
    (s.reach roots).Copies s s' ∧ ∀ c ∈ roots, (s.reach roots).places.contains c = true := by
  obtain ⟨hall, hcovers⟩ := covers_reach s.closedAt_sound hroots
  exact ⟨⟨placed_reach s roots, hcovers, h⟩, hall⟩

/-- A copy of a schema has a column list of its own, and its type has a list of its own. -/
theorem copy_schema (hs : s.Sound r.cell) (hr : s.content r = .schema place) :
    ∃ type place',
      (s.copy r).2.objects[(s.copy r).1.index]? = some ⟨type, .schema place'⟩ ∧
      s.columns.size ≤ place' ∧
      (∀ members, (s.object r).type = .schema members → ∃ members' types,
        type = .schema members' ∧ s.types.lists.size ≤ members' ∧
        (s.copy r).2.types.lists[members']? = some types ∧
        types.length = (s.types.list members).length) ∧
      ((∀ members, (s.object r).type ≠ .schema members) →
        ∀ members, type ≠ .schema members) := by
  obtain ⟨hcopies, hroots⟩ := copies_reach (List.forall_mem_singleton.mpr hs) (.refl _)
  have hself := hroots _ (List.mem_singleton_self _)
  have hcovers := List.forall_mem_append.mp (hcopies.covers _ hself)
  have hcolumns := placedAt_place hcopies.placed .columns
    (hcovers.2 (.columns place) (by rw [← content, hr]; simp [Content.cells]))
  refine ⟨(s.reach [r.cell]).type (s.object r).type, _, ?_, hcolumns.1, ?_, ?_⟩
  · refine (hcopies.object hself).trans ?_
    rw [← content, hr]
    rfl
  · intro members htype
    have hmembers := hcovers.1 (.members members) (by simp [htype, TypeRef.cells])
    refine ⟨_, _, ?_, (placedAt_place hcopies.placed .members hmembers).1,
      hcopies.members hmembers, List.length_map ..⟩
    rw [htype]
    rfl
  · intro htype members
    unfold Region.type
    cases hobject : (s.object r).type with
    | schema i => exact absurd hobject (htype i)
    | _ =>
      intro h
      cases h

end Store

end TableScript
