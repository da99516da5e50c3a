import Mathlib.Data.Finset.Card
import Mathlib.Data.Finset.Range
import TableScript.Store.View
import TableScript.Store.Copy

/-!
# What types depend on

A type is read from the lists and cells that its handle names, and from those that these name in
turn (`TypeStore.readWith_congr`). `TypeStore.Extends` is what happens to the lists and cells of a
program that changes none of them: they stay, and others come. A type that ends is then read as
before (`TypeStore.Extends.read_eq`).

Types are read to the depth of all lists. That is deep enough: no list lies deeper than there are
lists (`TypeStore.membersEnd_size`).
-/

namespace TableScript

namespace TypeStore

/-! ## The cells of a handle -/

/-- Are the members of the list that a cell stands for the same in both stores? -/
def SameMembers (s s' : TypeStore) (members members' : Nat → List PlacedType) : Cell → Prop
  | .members i => members' i = members i
  | .tuple i => members' (s'.cell i) = members (s.cell i)
  | _ => True

mutual

/-- A type is read as its cells are. -/
theorem readWith_congr {s s' : TypeStore} {members members' : Nat → List PlacedType} (t : TypeRef)
    (h : ∀ c ∈ t.cells, SameMembers s s' members members' c) :
    s'.readWith members' t = s.readWith members t := by
  cases t with
  | list a => rw [readWith, readWith, readWith_congr a h]
  | dict a b =>
    obtain ⟨ha, hb⟩ := List.forall_mem_append.mp h
    rw [readWith, readWith, readWith_congr a ha, readWith_congr b hb]
  | func as a =>
    obtain ⟨has, ha⟩ := List.forall_mem_append.mp h
    rw [readWith, readWith, readAllWith_congr as has, readWith_congr a ha]
  | union i | schema i | table i =>
    have hi : members' i = members i := h _ (List.mem_singleton_self _)
    rw [readWith, readWith, hi]
  | tuple i =>
    have hi : members' (s'.cell i) = members (s.cell i) := h _ (List.mem_singleton_self _)
    rw [readWith, readWith, hi]
  | _ => rfl

theorem readAllWith_congr {s s' : TypeStore} {members members' : Nat → List PlacedType} :
    ∀ ts : List TypeRef, (∀ c ∈ TypeRef.allCells ts, SameMembers s s' members members' c) →
      s'.readAllWith members' ts = s.readAllWith members ts
  | [], _ => rfl
  | a :: as, h => by
    obtain ⟨ha, has⟩ := List.forall_mem_append.mp h
    rw [readAllWith, readAllWith, readWith_congr a ha, readAllWith_congr as has]

end

/-- Does the list that a cell stands for end? -/
def CellEnds (s : TypeStore) (ends : Nat → Bool) : Cell → Prop
  | .members i => ends i = true
  | .tuple i => i < s.cells.size ∧ ends (s.cell i) = true
  | _ => True

mutual

theorem endsWith_iff {s : TypeStore} {ends : Nat → Bool} :
    ∀ t : TypeRef, s.endsWith ends t = true ↔ ∀ c ∈ t.cells, s.CellEnds ends c := by
  intro t
  cases t with
  | list a => rw [endsWith, endsWith_iff a, TypeRef.cells]
  | dict a b =>
    rw [endsWith, Bool.and_eq_true, endsWith_iff a, endsWith_iff b, TypeRef.cells,
      List.forall_mem_append]
  | func as a =>
    rw [endsWith, Bool.and_eq_true, allEndWith_iff as, endsWith_iff a, TypeRef.cells,
      List.forall_mem_append]
  | _ => simp [endsWith, TypeRef.cells, CellEnds]

theorem allEndWith_iff {s : TypeStore} {ends : Nat → Bool} :
    ∀ ts : List TypeRef,
      s.allEndWith ends ts = true ↔ ∀ c ∈ TypeRef.allCells ts, s.CellEnds ends c
  | [] => by simp [allEndWith, TypeRef.allCells]
  | a :: as => by
    rw [allEndWith, Bool.and_eq_true, endsWith_iff a, allEndWith_iff as, TypeRef.allCells,
      List.forall_mem_append]

end

/-! ## Lists and cells that come -/

variable {i place : Nat}

theorem list_of_getElem? {s : TypeStore} {l : List TypeRef} (h : s.lists[i]? = some l) :
    s.list i = l := by
  simp [list, Array.getD_eq_getD_getElem?, h]

theorem cell_of_getElem? {s : TypeStore} {c : Nat} (h : s.cells[i]? = some c) : s.cell i = c := by
  simp [cell, Array.getD_eq_getD_getElem?, h]

/-- All lists and cells of one store are in the other one. -/
structure Extends (s s' : TypeStore) : Prop where
  lists : ∀ {i : Nat} {l}, s.lists[i]? = some l → s'.lists[i]? = some l
  cells : ∀ {i : Nat} {c}, s.cells[i]? = some c → s'.cells[i]? = some c

namespace Extends

variable {s s' s'' : TypeStore}

theorem refl (s : TypeStore) : s.Extends s :=
  ⟨id, id⟩

section

variable (h : s.Extends s')

include h

theorem trans (h' : s'.Extends s'') : s.Extends s'' :=
  ⟨fun hi => h'.lists (h.lists hi), fun hi => h'.cells (h.cells hi)⟩

theorem list_eq (hi : i < s.lists.size) : s'.list i = s.list i := by
  have hget := Array.getElem?_eq_getElem hi
  rw [list_of_getElem? (h.lists hget), list_of_getElem? hget]

theorem cell_eq (hi : i < s.cells.size) : s'.cell i = s.cell i := by
  have hget := Array.getElem?_eq_getElem hi
  rw [cell_of_getElem? (h.cells hget), cell_of_getElem? hget]

theorem lt_lists (hi : i < s.lists.size) : i < s'.lists.size :=
  (Array.getElem?_eq_some_iff.mp (h.lists (Array.getElem?_eq_getElem hi))).1

theorem lt_cells (hi : i < s.cells.size) : i < s'.cells.size :=
  (Array.getElem?_eq_some_iff.mp (h.cells (Array.getElem?_eq_getElem hi))).1

theorem size_le : s.lists.size ≤ s'.lists.size := by
  refine Nat.le_of_not_lt fun hlt => ?_
  exact Nat.lt_irrefl _ (h.lt_lists hlt)

theorem cellEnds {ends ends' : Nat → Bool} (hends : ∀ i, ends i = true → ends' i = true)
    {c : Cell} (hc : s.CellEnds ends c) : s'.CellEnds ends' c := by
  cases c with
  | members i => exact hends i hc
  | tuple i =>
    obtain ⟨hi, hc⟩ := hc
    refine ⟨h.lt_cells hi, ?_⟩
    rw [h.cell_eq hi]
    exact hends _ hc
  | _ => trivial

theorem membersEnd {n n' : Nat} (hn : n ≤ n') (hend : s.membersEnd n place = true) :
    s'.membersEnd n' place = true := by
  induction n generalizing n' place with
  | zero => cases hend
  | succ n ih =>
    obtain ⟨k, rfl⟩ : ∃ k, n' = k + 1 := ⟨n' - 1, by omega⟩
    simp only [TypeStore.membersEnd, Bool.and_eq_true, decide_eq_true_eq] at hend ⊢
    obtain ⟨hplace, hall⟩ := hend
    refine ⟨h.lt_lists hplace, ?_⟩
    rw [h.list_eq hplace]
    rw [allEndWith_iff] at hall ⊢
    exact fun c hc => h.cellEnds (fun i hi => ih (Nat.le_of_succ_le_succ hn) hi) (hall c hc)

theorem membersTo_eq {n n' : Nat} (hn : n ≤ n') (hend : s.membersEnd n place = true) :
    s'.membersTo n' place = s.membersTo n place := by
  induction n generalizing n' place with
  | zero => cases hend
  | succ n ih =>
    obtain ⟨k, rfl⟩ : ∃ k, n' = k + 1 := ⟨n' - 1, by omega⟩
    simp only [TypeStore.membersEnd, Bool.and_eq_true, decide_eq_true_eq] at hend
    obtain ⟨hplace, hall⟩ := hend
    rw [allEndWith_iff] at hall
    rw [membersTo, membersTo, h.list_eq hplace]
    refine readAllWith_congr _ fun c hc => ?_
    cases c with
    | members i => exact ih (Nat.le_of_succ_le_succ hn) (hall _ hc)
    | tuple i =>
      obtain ⟨hi, hend⟩ := hall _ hc
      show s'.membersTo k (s'.cell i) = _
      rw [h.cell_eq hi]
      exact ih (Nat.le_of_succ_le_succ hn) hend
    | _ => trivial

theorem ends {t : TypeRef} (ht : s.ends t = true) : s'.ends t = true := by
  rw [TypeStore.ends, endsBy, endsWith_iff] at ht ⊢
  have hsize : s.lists.size + 1 ≤ s'.lists.size + 1 := Nat.succ_le_succ h.size_le
  exact fun c hc => h.cellEnds (fun i hi => h.membersEnd hsize hi) (ht c hc)

theorem read_eq {t : TypeRef} (ht : s.ends t = true) : s'.read t = s.read t := by
  rw [TypeStore.ends, endsBy, endsWith_iff] at ht
  have hsize : s.lists.size + 1 ≤ s'.lists.size + 1 := Nat.succ_le_succ h.size_le
  refine readWith_congr t fun c hc => ?_
  cases c with
  | members i => exact h.membersTo_eq hsize (ht _ hc)
  | tuple i =>
    obtain ⟨hi, hend⟩ := ht _ hc
    show s'.membersTo _ (s'.cell i) = _
    rw [h.cell_eq hi]
    exact h.membersTo_eq hsize hend
  | _ => trivial

end

end Extends

/-! ## How deep lists lie -/

section

variable {s : TypeStore} {k : Nat}

theorem membersEnd_mono {k' : Nat} (hk : k ≤ k') (h : s.membersEnd k place = true) :
    s.membersEnd k' place = true :=
  (Extends.refl s).membersEnd hk h

/-- The places of the lists that end within a depth. -/
def ending (s : TypeStore) (k : Nat) : Finset Nat :=
  (Finset.range s.lists.size).filter fun place => s.membersEnd k place = true

theorem mem_ending : place ∈ s.ending k ↔ s.membersEnd k place = true := by
  rw [ending, Finset.mem_filter, Finset.mem_range, and_iff_right_iff_imp]
  intro h
  cases k with
  | zero => cases h
  | succ k =>
    rw [membersEnd, Bool.and_eq_true, decide_eq_true_eq] at h
    exact h.1

theorem card_ending_lt (h : s.membersEnd (k + 1) ≠ s.membersEnd k) :
    (s.ending k).card < (s.ending (k + 1)).card := by
  refine Finset.card_lt_card (Finset.ssubset_iff_subset_ne.mpr ⟨fun place hplace => ?_,
    fun heq => ?_⟩)
  · exact mem_ending.mpr (membersEnd_mono (Nat.le_succ k) (mem_ending.mp hplace))
  · refine h (funext fun place => Bool.eq_iff_iff.mpr ?_)
    rw [← mem_ending, ← mem_ending, heq]

theorem lt_card_ending (s : TypeStore) (k : Nat) :
    s.membersEnd (k + 1) = s.membersEnd k ∨ k < (s.ending (k + 1)).card := by
  by_cases h : s.membersEnd (k + 1) = s.membersEnd k
  · exact .inl h
  · refine .inr ?_
    have hlt := card_ending_lt h
    induction k with
    | zero => omega
    | succ k ih =>
      have hne : s.membersEnd (k + 1) ≠ s.membersEnd k := by
        intro heq
        refine h (funext fun place => ?_)
        show (_ && s.allEndWith (s.membersEnd (k + 1)) _) = (_ && s.allEndWith (s.membersEnd k) _)
        rw [heq]
      have := ih hne (card_ending_lt hne)
      omega

/-- A list that ends does so within the number of lists. -/
theorem membersEnd_size (h : s.membersEnd k place = true) :
    s.membersEnd s.lists.size place = true := by
  have hstable : s.membersEnd (s.lists.size + 1) = s.membersEnd s.lists.size := by
    refine (s.lt_card_ending s.lists.size).resolve_right fun hlt => ?_
    have hle := Finset.card_filter_le (Finset.range s.lists.size)
      fun place => s.membersEnd (s.lists.size + 1) place = true
    rw [Finset.card_range] at hle
    exact Nat.not_lt_of_le hle hlt
  rcases Nat.le_total k s.lists.size with hk | hk
  · exact membersEnd_mono hk h
  · induction k, hk using Nat.le_induction generalizing place with
    | base => exact h
    | succ k hk ih =>
      have hsame : s.membersEnd k = s.membersEnd s.lists.size :=
        funext fun i => Bool.eq_iff_iff.mpr ⟨ih, membersEnd_mono hk⟩
      rw [membersEnd, hsame] at h
      rw [← hstable, membersEnd]
      exact h

theorem ends_iff {t : TypeRef} : s.ends t = true ↔ ∃ k, s.endsBy k t = true := by
  refine ⟨fun h => ⟨_, h⟩, fun ⟨k, h⟩ => ?_⟩
  rw [endsBy, endsWith_iff] at h
  rw [ends, endsBy, endsWith_iff]
  refine fun c hc => (Extends.refl s).cellEnds (fun i hi => ?_) (h c hc)
  exact membersEnd_mono (Nat.le_succ _) (membersEnd_size hi)

end

end TypeStore

end TableScript
