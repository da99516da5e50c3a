import TableScript.Proofs.PlainTypes

/-!
# Laws of conformance

What two types make of each other, in whatever order they are compared and however often.

* `conform_comm`: the order matters only to the columns of tables, which are taken from the type on
  the left. Types without tables give the same type in both orders; and if the columns of all
  tables are known, the types go together in one order iff they do in the other.
* `conformance_settles`: a type goes with itself iff it is known and firm, and is then left as it
  is; what two firm types make of each other goes with both of them, and is left as it is again.

Both are read off the cases of `Meets`.
-/

namespace TableScript.Shape

variable {ι κ : Type}

/-! ## Tables in a type -/

mutual

/-- The columns of the tables in a type, table by table. -/
def tables : Shape ι → List (List (Shape ι))
  | list a => tables a
  | dict a b => tables a ++ tables b
  | union _ as | tuple _ as | schema _ as => tablesOfAll as
  | table _ as => [as]
  | func as a => tablesOfAll as ++ tables a
  | _ => []

/-- The columns of the tables in types. -/
def tablesOfAll : List (Shape ι) → List (List (Shape ι))
  | [] => []
  | a :: as => tables a ++ tablesOfAll as

end

mutual

theorem tables_mapMarks (f : ι → κ) (a : Shape ι) :
    (a.mapMarks f).tables = a.tables.map (mapMarksAll f) := by
  cases a with
  | list a => exact tables_mapMarks f a
  | dict a b =>
    simp only [mapMarks, tables, List.map_append, tables_mapMarks f a, tables_mapMarks f b]
  | union _ as | tuple _ as | schema _ as => exact tablesOfAll_mapMarks f as
  | func as a =>
    simp only [mapMarks, tables, List.map_append, tablesOfAll_mapMarks f as, tables_mapMarks f a]
  | _ => rfl

theorem tablesOfAll_mapMarks (f : ι → κ) :
    ∀ as : List (Shape ι), tablesOfAll (mapMarksAll f as) = (tablesOfAll as).map (mapMarksAll f)
  | [] => rfl
  | a :: as => by
    simp only [mapMarksAll, tablesOfAll, List.map_append, tables_mapMarks f a,
      tablesOfAll_mapMarks f as]

end

theorem tables_plain_eq_nil {a : Shape ι} (h : a.tables = []) : a.plain.tables = [] := by
  rw [plain, tables_mapMarks, h, List.map_nil]

theorem all_tables_plain (a : Shape ι) : a.plain.tables.all allKnown = a.tables.all allKnown := by
  rw [plain, tables_mapMarks, List.all_map]
  congr 1
  exact funext fun columns => allKnown_mapMarksAll _ columns

/-! ## The type but for its tables -/

mutual

/-- The type with no columns in its tables. -/
def dropColumns : Ty → Ty
  | list a => list (dropColumns a)
  | dict a b => dict (dropColumns a) (dropColumns b)
  | union _ as => union () (dropColumnsOfAll as)
  | tuple _ as => tuple () (dropColumnsOfAll as)
  | schema _ as => schema () (dropColumnsOfAll as)
  | table _ _ => table () []
  | func as a => func (dropColumnsOfAll as) (dropColumns a)
  | a => a

/-- The types with no columns in their tables. -/
def dropColumnsOfAll : List Ty → List Ty
  | [] => []
  | a :: as => dropColumns a :: dropColumnsOfAll as

end

mutual

theorem dropColumns_of_tables (a : Ty) (h : a.tables = []) : a.dropColumns = a := by
  cases a with
  | list a => exact congrArg list (dropColumns_of_tables a h)
  | dict a b =>
    obtain ⟨ha, hb⟩ := List.append_eq_nil_iff.mp h
    exact congrArg₂ dict (dropColumns_of_tables a ha) (dropColumns_of_tables b hb)
  | union _ as => exact congrArg (union ()) (dropColumnsOfAll_of_tables as h)
  | tuple _ as => exact congrArg (tuple ()) (dropColumnsOfAll_of_tables as h)
  | schema _ as => exact congrArg (schema ()) (dropColumnsOfAll_of_tables as h)
  | table => cases h
  | func as a =>
    obtain ⟨has, ha⟩ := List.append_eq_nil_iff.mp h
    exact congrArg₂ func (dropColumnsOfAll_of_tables as has) (dropColumns_of_tables a ha)
  | _ => rfl

theorem dropColumnsOfAll_of_tables :
    ∀ as : List Ty, tablesOfAll as = [] → dropColumnsOfAll as = as
  | [], _ => rfl
  | a :: as, h => by
    obtain ⟨ha, has⟩ := List.append_eq_nil_iff.mp h
    exact congrArg₂ List.cons (dropColumns_of_tables a ha) (dropColumnsOfAll_of_tables as has)

end

mutual

theorem isKnown_eq_and (a : Ty) : a.isKnown = (a.dropColumns.isKnown && a.tables.all allKnown) := by
  cases a with
  | list a => exact isKnown_eq_and a
  | dict a b =>
    simp only [isKnown, dropColumns, tables, List.all_append, isKnown_eq_and a, isKnown_eq_and b]
    ac_rfl
  | union _ as | tuple _ as | schema _ as => exact allKnown_eq_and as
  | table _ as => simp [isKnown, dropColumns, tables, allKnown]
  | func as a =>
    simp only [isKnown, dropColumns, tables, List.all_append, allKnown_eq_and as, isKnown_eq_and a]
    ac_rfl
  | _ => rfl

theorem allKnown_eq_and : ∀ as : List Ty,
    allKnown as = (allKnown (dropColumnsOfAll as) && (tablesOfAll as).all allKnown)
  | [] => rfl
  | a :: as => by
    simp only [allKnown, dropColumnsOfAll, tablesOfAll, List.all_append, isKnown_eq_and a,
      allKnown_eq_and as]
    ac_rfl

end

/-! ## The order of two types -/

mutual

theorem Meets.dropColumns_eq :
    ∀ {a b c : Ty}, Meets a b c → c.dropColumns = (conform b a).dropColumns
  | _, _, _, .left _ h' hc | _, _, _, .right _ h' hc => by
    rw [plain_unit, plain_unit] at h'
    rw [eq_of_kept hc, h']
  | _, _, _, .apart _ h' => by
    rw [plain_unit, plain_unit] at h'
    rw [h']
  | _, _, _, .list h => congrArg Shape.list h.dropColumns_eq
  | _, _, _, .dict h₁ h₂ => congrArg₂ Shape.dict h₁.dropColumns_eq h₂.dropColumns_eq
  | _, _, _, .union h => congrArg (Shape.union ()) h.dropColumns_eq
  | _, _, _, .tuple h hs => congrArg (Shape.tuple ()) (MeetsAll.cons h hs).dropColumns_eq
  | _, _, _, .schema h hs => congrArg (Shape.schema ()) (MeetsAll.cons h hs).dropColumns_eq
  | _, _, _, .table _ _ _ _ => rfl
  | _, _, _, .func hs h => congrArg₂ Shape.func hs.dropColumns_eq h.dropColumns_eq

theorem MeetsAll.dropColumns_eq : ∀ {as bs cs : List Ty}, MeetsAll as bs cs →
    dropColumnsOfAll cs = dropColumnsOfAll (conformAll bs as)
  | _, _, _, .leftEnds bs => by cases bs <;> rfl
  | _, _, _, .rightEnds _ => rfl
  | _, _, _, .cons h hs => congrArg₂ List.cons h.dropColumns_eq hs.dropColumns_eq

end

theorem append_subset_append₂ {α : Type} {as as' bs bs' cs cs' : List α} (h : cs ⊆ as ++ bs)
    (h' : cs' ⊆ as' ++ bs') : cs ++ cs' ⊆ (as ++ as') ++ (bs ++ bs') := by
  intro x hx
  have := List.mem_append.mp hx
  have hleft := @h x
  have hright := @h' x
  simp only [List.mem_append] at hleft hright ⊢
  tauto

mutual

theorem Meets.tables_subset : ∀ {a b c : Ty}, Meets a b c → c.tables ⊆ a.tables ++ b.tables
  | _, _, _, .left _ _ hc => eq_of_kept hc ▸ List.subset_append_left _ _
  | _, _, _, .right _ _ hc => eq_of_kept hc ▸ List.subset_append_right _ _
  | _, _, _, .apart _ _ => List.nil_subset _
  | _, _, _, .list h => h.tables_subset
  | _, _, _, .dict h₁ h₂ => append_subset_append₂ h₁.tables_subset h₂.tables_subset
  | _, _, _, .union h => h.tables_subset
  | _, _, _, .tuple h hs | _, _, _, .schema h hs => (MeetsAll.cons h hs).tables_subset
  | _, _, _, .table _ _ _ _ => List.subset_append_left _ _
  | _, _, _, .func hs h => append_subset_append₂ hs.tables_subset h.tables_subset

theorem MeetsAll.tables_subset : ∀ {as bs cs : List Ty}, MeetsAll as bs cs →
    tablesOfAll cs ⊆ tablesOfAll as ++ tablesOfAll bs
  | _, _, _, .leftEnds _ | _, _, _, .rightEnds _ => List.nil_subset _
  | _, _, _, .cons h hs => append_subset_append₂ h.tables_subset hs.tables_subset

end

theorem tables_conform_eq_nil {a b : Ty} (ha : a.tables = []) (hb : b.tables = []) :
    (conform a b).tables = [] := by
  refine List.eq_nil_of_subset_nil ?_
  have h := (meets_conform a b).tables_subset
  rwa [ha, hb] at h

theorem conform_comm_of_tables {a b : Ty} (ha : a.tables = []) (hb : b.tables = []) :
    conform a b = conform b a := by
  rw [← dropColumns_of_tables _ (tables_conform_eq_nil ha hb), (meets_conform a b).dropColumns_eq,
    dropColumns_of_tables _ (tables_conform_eq_nil hb ha)]

theorem isKnown_conform_comm {a b : Ty}
    (h : ∀ columns ∈ a.tables ++ b.tables, allKnown columns = true) :
    (conform a b).isKnown = (conform b a).isKnown := by
  have hleft : (conform a b).tables.all allKnown = true :=
    List.all_eq_true.mpr fun columns hc => h columns ((meets_conform a b).tables_subset hc)
  have hright : (conform b a).tables.all allKnown = true := by
    refine List.all_eq_true.mpr fun columns hc => h columns ?_
    exact List.mem_append.mpr (List.mem_append.mp ((meets_conform b a).tables_subset hc)).symm
  rw [isKnown_eq_and, isKnown_eq_and (conform b a), hleft, hright,
    (meets_conform a b).dropColumns_eq]

theorem map_plain_conform? [Inhabited ι] (a b : Shape ι) :
    (conform? a b).map plain = conform? a.plain b.plain := by
  simp only [conform?, ← plain_conform]
  rw [plain, isKnown_mapMarks]
  split <;> rfl

theorem conform?_eq_ite (a b : Ty) :
    conform? a b = if (conform a b).isKnown then some (conform a b) else Option.none := rfl

/-- Conformance does not depend on the order of the types, as long as there are no tables; and if
the columns of tables are known, then whether types go together does not. -/
theorem conform_comm [Inhabited ι] (a b : Shape ι) :
    (a.tables = [] → b.tables = [] →
      (conform a b).plain = (conform b a).plain ∧
        (conform? a b).map plain = (conform? b a).map plain) ∧
    ((∀ columns ∈ a.tables ++ b.tables, allKnown columns = true) →
      ((conform? a b).isSome ↔ (conform? b a).isSome)) := by
  constructor
  · intro ha hb
    have hcomm := conform_comm_of_tables (tables_plain_eq_nil ha) (tables_plain_eq_nil hb)
    rw [plain_conform, plain_conform, map_plain_conform?, map_plain_conform?, conform?_eq_ite,
      conform?_eq_ite, hcomm]
    exact ⟨rfl, rfl⟩
  · intro h
    have hplain : ∀ columns ∈ a.plain.tables ++ b.plain.tables, allKnown columns = true := by
      rw [← List.all_eq_true, List.all_append, all_tables_plain, all_tables_plain,
        ← List.all_append]
      exact List.all_eq_true.mpr h
    rw [← Option.isSome_map (f := plain), ← Option.isSome_map (f := plain) (x := conform? b a),
      map_plain_conform?, map_plain_conform?, conform?_eq_ite, conform?_eq_ite,
      isKnown_conform_comm hplain]
    split <;> simp

/-- The types of a function of a union and of a table: without the table they go together in both
orders to the same type, and with it they do in both orders. -/
theorem conform_comm_function :
    let a : Ty := func [union () [int, list any]] (schema () [])
    let b : Ty := func [union () [any, list bool]] (schema () [string])
    let c : Ty := dict string (table () [int])
    let d : Ty := dict string (table () [bool, char])
    (a.tables = [] ∧ b.tables = [] ∧ (conform a b).plain = (conform b a).plain ∧
        (conform? a b).map plain = (conform? b a).map plain ∧ (conform? a b).isSome) ∧
      (∀ columns ∈ c.tables ++ d.tables, allKnown columns = true) ∧
      ((conform? c d).isSome ↔ (conform? d c).isSome) := by
  intro a b c d
  have hknown : ∀ columns ∈ c.tables ++ d.tables, allKnown columns = true :=
    List.all_eq_true.mp rfl
  have h := (conform_comm a b).1 rfl rfl
  exact ⟨⟨rfl, rfl, h.1, h.2, rfl⟩, hknown, (conform_comm c d).2 hknown⟩

/-- The columns are those of the table on the left. -/
example : conform (table () [int]) (table () [bool]) = (table () [int] : Ty) ∧
    conform (table () [bool]) (table () [int]) = (table () [bool] : Ty) := ⟨rfl, rfl⟩

/-! ## Types that go together again -/

mutual

theorem isFirm_of_conform_self : ∀ a : Ty, (conform a a).isKnown = true → a.isFirm = true
  | list a, h => isFirm_of_conform_self a h
  | dict a b, h => by
    simp only [conform, isKnown, isFirm, Bool.and_eq_true] at h ⊢
    exact ⟨isFirm_of_conform_self a h.1, isFirm_of_conform_self b h.2⟩
  | union _ as, h => allFirm_of_conformAll_self as h
  | tuple _ [], h => by cases h
  | tuple _ (a :: as), h => allFirm_of_conformAll_self (a :: as) h
  | schema _ [], _ => rfl
  | schema _ (a :: as), h => allFirm_of_conformAll_self (a :: as) h
  | func as a, h => by
    simp only [conform, isKnown, isFirm, Bool.and_eq_true] at h ⊢
    exact ⟨allFirm_of_conformAll_self as h.1, isFirm_of_conform_self a h.2⟩
  | iterable, h => by cases h
  | table _ _, _ | any, _ | unknown, _ | literal, _ | int, _ | bool, _ | char, _ | none, _
  | string, _ | absent, _ | .dangling, _ => rfl

theorem allFirm_of_conformAll_self :
    ∀ as : List Ty, allKnown (conformAll as as) = true → allFirm as = true
  | [], _ => rfl
  | a :: as, h => by
    simp only [conformAll, allKnown, allFirm, Bool.and_eq_true] at h ⊢
    exact ⟨isFirm_of_conform_self a h.1, allFirm_of_conformAll_self as h.2⟩

end

theorem conform?_self (a : Ty) :
    conform? a a = if a.isKnown && a.isFirm then some a else Option.none := by
  rw [conform?_eq_ite]
  by_cases hfirm : a.isFirm = true
  · rw [conform_self a hfirm, hfirm, Bool.and_true]
  · have hself : ¬ (conform a a).isKnown = true := fun h => hfirm (isFirm_of_conform_self a h)
    rw [if_neg hself, if_neg]
    simp [hfirm]

theorem conform?_of_eq {a b c : Ty} (h : conform a b = c) (hc : c.isKnown = true) :
    conform? a b = some c := by
  rw [conform?_eq_ite, h, if_pos hc]

/-- A type goes with itself, and stays what it is, iff it is known and firm. What two firm types
make of each other stays what it is beside each of them. -/
theorem conformance_settles [Inhabited ι] :
    (∀ t : Shape ι, (conform? t t).map plain =
      if t.isKnown && t.isFirm then some t.plain else Option.none) ∧
    (∀ a b c : Shape ι, a.isFirm = true → b.isFirm = true → conform? a b = some c →
      (conform? c b).map plain = some c.plain ∧ (conform? a c).map plain = some c.plain) := by
  constructor
  · intro t
    rw [map_plain_conform?, conform?_self, plain, isKnown_mapMarks, isFirm_mapMarks]
  · intro a b c ha hb h
    have hplain : conform? a.plain b.plain = some c.plain := by
      rw [← map_plain_conform?, h, Option.map_some]
    have heq := eq_of_conform? hplain
    have hknown : c.plain.isKnown = true := by
      rw [conform?_eq_ite] at hplain
      split at hplain
      · next hk => exact Option.some.inj hplain ▸ hk
      · cases hplain
    -- what the two made of each other is one of the cases of `Meets`
    have hmeets : Meets a.plain b.plain c.plain := heq ▸ meets_conform _ _
    obtain ⟨hright, hleft⟩ := hmeets.settles hknown
    rw [map_plain_conform?, map_plain_conform?]
    exact ⟨conform?_of_eq (hright (by rwa [plain, isFirm_mapMarks])) hknown,
      conform?_of_eq (hleft (by rwa [plain, isFirm_mapMarks])) hknown⟩

/-- A tuple beside a longer one, each knowing a part that the other leaves open, is what both know
together; and neither a tuple without members nor a bare iterable goes with itself. -/
theorem conformance_settles_tuple :
    let a : Ty := tuple () [any, list (union () [int, char]), table () [iterable]]
    let b : Ty := tuple () [string, list char, table () [], bool]
    let c : Ty := tuple () [string, list char, table () [iterable]]
    ((conform? c c).map plain = some c ∧
        (conform? (list (tuple () []) : Ty) (list (tuple () []))).map plain = Option.none ∧
        (conform? (iterable : Ty) iterable).map plain = Option.none) ∧
      a.isFirm = true ∧ b.isFirm = true ∧ conform? a b = some c ∧
      (conform? c b).map plain = some c.plain ∧ (conform? a c).map plain = some c.plain := by
  intro a b c
  refine ⟨⟨conformance_settles.1 c, conformance_settles.1 _, conformance_settles.1 _⟩, rfl,
    rfl, rfl, ?_⟩
  exact conformance_settles.2 a b c rfl rfl rfl

end TableScript.Shape
