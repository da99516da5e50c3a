import TableScript.Proofs.Extension
import TableScript.Proofs.PlainTypes

/-!
# Handles that are made for types

A type that was read from a store, or made of such types, has marks that tell where its lists lie
(`TypeStore.Tells`). A handle that is made for it keeps the marked lists and adds the others, so the
type behind the new handle is the one that was meant, marks apart (`TypeStore.interns_intern`), and
the handles that were there before are not touched.
-/

namespace TableScript.TypeStore

variable {s s' : TypeStore}

/-! ## The lists of a handle -/

theorem readAllWith_eq_map (members : Nat → List PlacedType) (ts : List TypeRef) :
    s.readAllWith members ts = ts.map (s.readWith members) := by
  induction ts with
  | nil => simp only [readAllWith, List.map_nil]
  | cons t ts ih => rw [readAllWith, ih, List.map_cons]

theorem allEndWith_eq_all (ends : Nat → Bool) (ts : List TypeRef) :
    s.allEndWith ends ts = ts.all (s.endsWith ends) := by
  induction ts with
  | nil => simp only [allEndWith, List.all_nil]
  | cons t ts ih => rw [allEndWith, ih, List.all_cons]

theorem endsBy_size {t : TypeRef} : s.endsBy s.lists.size t = true ↔ s.ends t = true := by
  refine ⟨fun h => ends_iff.mpr ⟨_, h⟩, fun h => ?_⟩
  rw [ends, endsBy, endsWith_iff] at h
  rw [endsBy, endsWith_iff]
  exact fun c hc => (Extends.refl s).cellEnds (fun _ => membersEnd_size) (h c hc)

theorem readTo_size {t : TypeRef} (h : s.ends t = true) : s.readTo s.lists.size t = s.read t := by
  rw [← endsBy_size, endsBy, endsWith_iff] at h
  refine (readWith_congr t fun c hc => ?_).symm
  have hsize := Nat.le_succ s.lists.size
  cases c with
  | members i => exact (Extends.refl s).membersTo_eq hsize (h _ hc)
  | tuple i => exact (Extends.refl s).membersTo_eq hsize (h _ hc).2
  | _ => trivial

theorem membersEnd_iff {place : Nat} : s.membersEnd (s.lists.size + 1) place = true ↔
    place < s.lists.size ∧ ∀ t ∈ s.list place, s.ends t = true := by
  rw [membersEnd, Bool.and_eq_true, decide_eq_true_eq, allEndWith_eq_all, List.all_eq_true]
  exact and_congr_right fun _ => forall₂_congr fun t _ => endsBy_size

theorem membersTo_eq_map_read {place : Nat} (h : s.membersEnd (s.lists.size + 1) place = true) :
    s.membersTo (s.lists.size + 1) place = (s.list place).map s.read := by
  rw [membersTo, readAllWith_eq_map]
  exact List.map_congr_left fun t ht => readTo_size ((membersEnd_iff.mp h).2 t ht)

/-! ## Marks that tell the truth -/

/-- A mark, if it is there, names a list that holds what stands beside it. -/
def TellsMark (s : TypeStore) (handle : Nat → TypeRef) (mark : Option Nat) (type : Ty) : Prop :=
  ∀ i, mark = some i → s.ends (handle i) = true ∧ (s.read (handle i)).plain = type

mutual

/-- Every mark in the type tells the truth. -/
def Tells (s : TypeStore) : PlacedType → Prop
  | .list a => s.Tells a
  | .dict a b => s.Tells a ∧ s.Tells b
  | .union m as => s.TellsMark .union m (Shape.union m as).plain ∧ s.TellsAll as
  | .tuple m as => s.TellsMark .tuple m (Shape.tuple m as).plain ∧ s.TellsAll as
  | .schema m as => s.TellsMark .schema m (Shape.schema m as).plain ∧ s.TellsAll as
  | .table m as => s.TellsMark .table m (Shape.table m as).plain ∧ s.TellsAll as
  | .func as a => s.TellsAll as ∧ s.Tells a
  | _ => True

/-- Every mark in the types tells the truth. -/
def TellsAll (s : TypeStore) : List PlacedType → Prop
  | [] => True
  | a :: as => s.Tells a ∧ s.TellsAll as

end

theorem tellsMark_none (s : TypeStore) (handle : Nat → TypeRef) (type : Ty) :
    s.TellsMark handle none type :=
  fun _ h => by cases h

theorem Extends.tellsMark (h : s.Extends s') {handle : Nat → TypeRef} {mark : Option Nat}
    {type : Ty} (hm : s.TellsMark handle mark type) : s'.TellsMark handle mark type := by
  intro i hi
  obtain ⟨hends, hread⟩ := hm i hi
  exact ⟨h.ends hends, by rw [h.read_eq hends, hread]⟩

mutual

theorem Extends.tells (h : s.Extends s') (a : PlacedType) (ha : s.Tells a) : s'.Tells a := by
  cases a with
  | list a => exact h.tells a ha
  | dict a b => exact ⟨h.tells a ha.1, h.tells b ha.2⟩
  | union _ as | tuple _ as | schema _ as | table _ as =>
    exact ⟨h.tellsMark ha.1, h.tellsAll as ha.2⟩
  | func as a => exact ⟨h.tellsAll as ha.1, h.tells a ha.2⟩
  | _ => trivial

theorem Extends.tellsAll (h : s.Extends s') : ∀ as : List PlacedType, s.TellsAll as →
    s'.TellsAll as
  | [], _ => trivial
  | a :: as, has => ⟨h.tells a has.1, h.tellsAll as has.2⟩

end

/-! ### Types that were read -/

section Read

variable {place : Nat}

theorem read_union (h : s.ends (.union place) = true) :
    s.read (.union place) = .union (some place) ((s.list place).map s.read) :=
  congrArg (Shape.union _) (membersTo_eq_map_read h)

theorem read_tuple {c : Nat} (h : s.ends (.tuple c) = true) :
    s.read (.tuple c) = .tuple (some c) ((s.tupleMembers c).map s.read) := by
  rw [ends, endsBy, endsWith, Bool.and_eq_true] at h
  exact congrArg (Shape.tuple _) (membersTo_eq_map_read h.2)

theorem tellsMark_self {handle : Nat → TypeRef} {i : Nat} (h : s.ends (handle i) = true) :
    s.TellsMark handle (some i) (s.read (handle i)).plain := by
  intro j hj
  cases hj
  exact ⟨h, rfl⟩

mutual

theorem tells_read_of_members {k : Nat}
    (hk : ∀ place, s.membersEnd k place = true → s.TellsAll ((s.list place).map s.read))
    (t : TypeRef) (h : s.endsBy k t = true) : s.Tells (s.read t) := by
  cases t with
  | list a => exact tells_read_of_members hk a h
  | dict a b =>
    rw [endsBy, endsWith, Bool.and_eq_true] at h
    exact ⟨tells_read_of_members hk a h.1, tells_read_of_members hk b h.2⟩
  | func as a =>
    rw [endsBy, endsWith, Bool.and_eq_true] at h
    exact ⟨tellsAll_read_of_members hk as h.1, tells_read_of_members hk a h.2⟩
  | union place | schema place | table place =>
    have hends := ends_iff.mpr ⟨k, h⟩
    exact ⟨tellsMark_self hends, membersTo_eq_map_read hends ▸ hk place h⟩
  | tuple c =>
    have hends := ends_iff.mpr ⟨k, h⟩
    have hmark := tellsMark_self hends
    rw [read_tuple hends] at hmark ⊢
    rw [endsBy, endsWith, Bool.and_eq_true] at h
    exact ⟨hmark, hk (s.cell c) h.2⟩
  | _ => trivial

theorem tellsAll_read_of_members {k : Nat}
    (hk : ∀ place, s.membersEnd k place = true → s.TellsAll ((s.list place).map s.read)) :
    ∀ ts : List TypeRef, s.allEndWith (s.membersEnd k) ts = true →
      s.TellsAll (s.readAllWith (s.membersTo (s.lists.size + 1)) ts)
  | [], _ => trivial
  | t :: ts, h => by
    rw [allEndWith, Bool.and_eq_true] at h
    exact ⟨tells_read_of_members hk t h.1, tellsAll_read_of_members hk ts h.2⟩

end

theorem tells_read {t : TypeRef} (h : s.ends t = true) : s.Tells (s.read t) := by
  -- by induction on the depth of the lists below the handle
  have hmembers : ∀ k place, s.membersEnd k place = true →
      s.TellsAll ((s.list place).map s.read) := by
    intro k
    induction k with
    | zero => intro place h; cases h
    | succ k ih =>
      intro place h
      rw [membersEnd, Bool.and_eq_true] at h
      have := tellsAll_read_of_members ih (s.list place) h.2
      rwa [readAllWith_eq_map] at this
  exact tells_read_of_members (hmembers _) t h

end Read

/-! ### Types that conform -/

mutual

theorem tells_fresh (s : TypeStore) (a : PlacedType) : s.Tells a.fresh := by
  cases a with
  | list a => exact tells_fresh s a
  | dict a b => exact ⟨tells_fresh s a, tells_fresh s b⟩
  | union _ as | tuple _ as | schema _ as | table _ as =>
    exact ⟨tellsMark_none s _ _, tellsAll_fresh s as⟩
  | func as a => exact ⟨tellsAll_fresh s as, tells_fresh s a⟩
  | _ => trivial

theorem tellsAll_fresh (s : TypeStore) :
    ∀ as : List PlacedType, s.TellsAll (Shape.mapMarksAll (fun _ => default) as)
  | [] => trivial
  | a :: as => ⟨tells_fresh s a, tellsAll_fresh s as⟩

end

theorem tells_of_kept {a b : PlacedType} (h : b = a ∨ b = a.fresh) (ha : s.Tells a) :
    s.Tells b := by
  obtain rfl | rfl := h
  · exact ha
  · exact tells_fresh s a

mutual

theorem tells_of_meets : ∀ {a b c : PlacedType}, a.Meets b c → s.Tells a →
    s.Tells b → s.Tells c
  | _, _, _, .left _ _ hc, ha, _ => tells_of_kept hc ha
  | _, _, _, .right _ _ hc, _, hb => tells_of_kept hc hb
  | _, _, _, .apart _ _, _, _ => trivial
  | _, _, _, .list h, ha, hb => (tells_of_meets h ha hb :)
  | _, _, _, .dict h₁ h₂, ha, hb => ⟨tells_of_meets h₁ ha.1 hb.1,
    tells_of_meets h₂ ha.2 hb.2⟩
  | _, _, _, .union h, ha, hb => ⟨tellsMark_none s _ _, tellsAll_of_meetsAll h ha.2 hb.2⟩
  | _, _, _, .tuple h hs, ha, hb | _, _, _, .schema h hs, ha, hb =>
    ⟨tellsMark_none s _ _, tellsAll_of_meetsAll (.cons h hs) ha.2 hb.2⟩
  | _, _, _, .table _ _ _ _, ha, _ => ha
  | _, _, _, .func hs h, ha, hb => ⟨tellsAll_of_meetsAll hs ha.1 hb.1,
    tells_of_meets h ha.2 hb.2⟩

theorem tellsAll_of_meetsAll : ∀ {as bs cs : List PlacedType}, Shape.MeetsAll as bs cs →
    s.TellsAll as → s.TellsAll bs → s.TellsAll cs
  | _, _, _, .leftEnds _, _, _ | _, _, _, .rightEnds _, _, _ => trivial
  | _, _, _, .cons h hs, ha, hb => ⟨tells_of_meets h ha.1 hb.1,
    tellsAll_of_meetsAll hs ha.2 hb.2⟩

end

theorem tells_conform (a b : PlacedType) (ha : s.Tells a) (hb : s.Tells b) :
    s.Tells (a.conform b) :=
  tells_of_meets (Shape.meets_conform a b) ha hb

/-! ## Handles that are made -/

theorem list_addList (s : TypeStore) (ts : List TypeRef) :
    (s.addList ts).2.list s.lists.size = ts :=
  list_of_getElem? (by simp [addList])

theorem membersEnd_addList {ts : List TypeRef} (h : ∀ t ∈ ts, s.ends t = true) :
    (s.addList ts).2.membersEnd ((s.addList ts).2.lists.size + 1) s.lists.size = true := by
  rw [membersEnd_iff, list_addList]
  exact ⟨by simp [addList], fun t ht => (extends_addList s ts).ends (h t ht)⟩

/-- A handle with its store stands for a type, and nothing else has changed. -/
structure Interns (s : TypeStore) (a : PlacedType) (r : TypeRef × TypeStore) : Prop where
  extend : s.Extends r.2
  ends : r.2.ends r.1 = true
  plain : (r.2.read r.1).plain = a.plain

/-- Handles with their store stand for types, and nothing else has changed. -/
structure InternsAll (s : TypeStore) (as : List PlacedType) (r : List TypeRef × TypeStore) :
    Prop where
  extend : s.Extends r.2
  ends : ∀ t ∈ r.1, r.2.ends t = true
  plain : Shape.mapMarksAll (fun _ => ()) (r.1.map r.2.read) = Shape.mapMarksAll (fun _ => ()) as

theorem interns_of_mark {handle : Nat → TypeRef} {i : Nat} {a : PlacedType}
    (h : s.TellsMark handle (some i) a.plain) : s.Interns a (handle i, s) :=
  ⟨.refl s, (h i rfl).1, (h i rfl).2⟩

theorem InternsAll.membersTo_addList {as : List PlacedType} {r : List TypeRef × TypeStore}
    (h : s.InternsAll as r) : Shape.mapMarksAll (fun _ => ())
      ((r.2.addList r.1).2.membersTo ((r.2.addList r.1).2.lists.size + 1) r.2.lists.size) =
        Shape.mapMarksAll (fun _ => ()) as := by
  rw [membersTo_eq_map_read (membersEnd_addList h.ends), list_addList, ← h.plain]
  congr 1
  exact List.map_congr_left fun t ht => (extends_addList _ _).read_eq (h.ends t ht)

theorem InternsAll.addTuple {as : List PlacedType} {r : List TypeRef × TypeStore}
    (h : s.InternsAll as r) :
    (r.2.addTuple r.1).2.ends (r.2.addTuple r.1).1 = true ∧
      ((r.2.addTuple r.1).2.read (r.2.addTuple r.1).1).plain = (Shape.tuple none as).plain := by
  have hcell : (r.2.addTuple r.1).2.cell r.2.cells.size = r.2.lists.size :=
    cell_of_getElem? (by simp [TypeStore.addTuple, addCell, addList])
  have hextend : (r.2.addList r.1).2.Extends (r.2.addTuple r.1).2 := extends_addCell _ _
  have hends : (r.2.addTuple r.1).2.ends (.tuple r.2.cells.size) = true := by
    rw [TypeStore.ends, endsBy, endsWith, Bool.and_eq_true, hcell]
    refine ⟨by simp [TypeStore.addTuple, addCell, addList], ?_⟩
    exact hextend.membersEnd le_rfl (membersEnd_addList h.ends)
  refine ⟨hends, (congrArg Shape.plain (read_tuple hends)).trans (congrArg (Shape.tuple _) ?_)⟩
  have hlist : (r.2.addTuple r.1).2.list r.2.lists.size = r.1 := list_addList r.2 r.1
  rw [tupleMembers, hcell, hlist, ← h.plain]
  congr 1
  exact List.map_congr_left fun t ht => (extends_addTuple _ _).read_eq (h.ends t ht)

mutual

/-- What is put in the store is read back from it. -/
theorem interns_intern : ∀ (a : PlacedType) (s : TypeStore), s.Tells a →
    s.Interns a (s.intern a)
  | .list a, s, h => by
    have ha := interns_intern a s h
    exact ⟨ha.extend, ha.ends, congrArg Shape.list ha.plain⟩
  | .dict a b, s, h => by
    have ha := interns_intern a s h.1
    -- The second part is made in a store that has grown, where the first handle is still good.
    have hb := interns_intern b (s.intern a).2 (ha.extend.tells b h.2)
    refine ⟨ha.extend.trans hb.extend, ?_, ?_⟩
    · exact Bool.and_eq_true_iff.mpr ⟨hb.extend.ends ha.ends, hb.ends⟩
    · exact congrArg₂ Shape.dict ((congrArg _ (hb.extend.read_eq ha.ends)).trans ha.plain)
        hb.plain
  | .func as a, s, h => by
    have has := internsAll_internAll as s h.1
    have ha := interns_intern a (s.internAll as).2 (has.extend.tells a h.2)
    refine ⟨has.extend.trans ha.extend, Bool.and_eq_true_iff.mpr ⟨?_, ha.ends⟩, ?_⟩
    · rw [allEndWith_eq_all, List.all_eq_true]
      exact fun t ht => ha.extend.ends (has.ends t ht)
    · refine congrArg₂ Shape.func ?_ ha.plain
      rw [readAllWith_eq_map, ← has.plain]
      congr 1
      exact List.map_congr_left fun t ht => ha.extend.read_eq (has.ends t ht)
  | .union (some i) as, s, h | .tuple (some i) as, s, h => interns_of_mark h.1
  | .schema (some i) as, s, h | .table (some i) as, s, h => interns_of_mark h.1
  | .union none as, s, h => by
    have has := internsAll_internAll as s h.2
    refine ⟨has.extend.trans (extends_addList _ _), membersEnd_addList has.ends, ?_⟩
    exact congrArg (Shape.union ()) has.membersTo_addList
  | .schema none as, s, h => by
    have has := internsAll_internAll as s h.2
    refine ⟨has.extend.trans (extends_addList _ _), membersEnd_addList has.ends, ?_⟩
    exact congrArg (Shape.schema ()) has.membersTo_addList
  | .table none as, s, h => by
    have has := internsAll_internAll as s h.2
    refine ⟨has.extend.trans (extends_addList _ _), membersEnd_addList has.ends, ?_⟩
    exact congrArg (Shape.table ()) has.membersTo_addList
  | .tuple none as, s, h => by
    have has := internsAll_internAll as s h.2
    exact ⟨has.extend.trans (extends_addTuple _ _), has.addTuple.1, has.addTuple.2⟩
  | .any, s, _ | .unknown, s, _ | .literal, s, _ | .iterable, s, _ | .int, s, _ | .bool, s, _
  | .char, s, _ | .none, s, _ | .string, s, _ | .absent, s, _ | .dangling, s, _ =>
    ⟨.refl s, rfl, rfl⟩

theorem internsAll_internAll : ∀ (as : List PlacedType) (s : TypeStore), s.TellsAll as →
    s.InternsAll as (s.internAll as)
  | [], s, _ => ⟨.refl s, List.forall_mem_nil _, rfl⟩
  | a :: as, s, h => by
    have ha := interns_intern a s h.1
    have has := internsAll_internAll as (s.intern a).2 (ha.extend.tellsAll as h.2)
    refine ⟨ha.extend.trans has.extend, ?_, ?_⟩
    · exact List.forall_mem_cons.mpr ⟨has.extend.ends ha.ends, has.ends⟩
    · exact congrArg₂ List.cons ((congrArg _ (has.extend.read_eq ha.ends)).trans ha.plain)
        has.plain

end

end TableScript.TypeStore
