import TableScript.Value.Basic

/-!
# When values are taken for the same

Values are compared in pairs of elements, up to the end of the shorter collection, and without a
look at their types. What is left of a value without the types is its `Datum`, so two values are
equal throughout iff their data are. The comparison asks for less (`same_iff_compatible`): it holds
iff there is one datum that both begin, at every level of nesting. It is therefore right on two
values iff they are equal, or nothing begins with both (`same_eq_iff`).
-/

namespace TableScript

/-- What a value is, whatever the types of it and of its parts. -/
inductive Datum where
  | int (n : Int)
  | bool (b : Bool)
  | char (s : String)
  | string (s : String)
  | none
  | list (elements : List Datum)
  | tuple (elements : List Datum)
  | dict (entries : List (Datum × Datum))
  deriving Inhabited, Repr

namespace Datum

mutual

/-- Is the first datum the second one, with collections that may end earlier? -/
def begins : Datum → Datum → Bool
  | int m, int n => m == n
  | bool a, bool b => a == b
  | char s, char t => s == t
  | string s, string t => s == t
  | none, none => true
  | list ds, list es | tuple ds, tuple es => beginsAll ds es
  | dict ds, dict es => beginsEntries ds es
  | _, _ => false

/-- Do data begin others in pairs, which may be more? -/
def beginsAll : List Datum → List Datum → Bool
  | [], _ => true
  | d :: ds, e :: es => begins d e && beginsAll ds es
  | _ :: _, [] => false

/-- Do entries begin others in pairs, which may be more? -/
def beginsEntries : List (Datum × Datum) → List (Datum × Datum) → Bool
  | [], _ => true
  | (a, b) :: ds, (c, d) :: es => begins a c && begins b d && beginsEntries ds es
  | _ :: _, [] => false

end

/-- There is a datum that begins with both. -/
def Compatible (d e : Datum) : Prop :=
  ∃ x, d.begins x ∧ e.begins x

mutual

theorem begins_refl : ∀ d : Datum, d.begins d
  | int _ | bool _ | char _ | string _ | none => by simp [begins]
  | list ds | tuple ds => beginsAll_refl ds
  | dict ds => beginsEntries_refl ds

theorem beginsAll_refl : ∀ ds : List Datum, beginsAll ds ds
  | [] => rfl
  | d :: ds => by simp [beginsAll, begins_refl d, beginsAll_refl ds]

theorem beginsEntries_refl : ∀ ds : List (Datum × Datum), beginsEntries ds ds
  | [] => rfl
  | (a, b) :: ds => by simp [beginsEntries, begins_refl a, begins_refl b, beginsEntries_refl ds]

end

variable {d e : Datum} {ds : List Datum}

theorem Compatible.refl (d : Datum) : d.Compatible d :=
  ⟨d, begins_refl d, begins_refl d⟩

theorem compatible_comm : d.Compatible e ↔ e.Compatible d :=
  exists_congr fun _ => and_comm

/-- Has the datum no parts? -/
def isLeaf : Datum → Bool
  | int _ | bool _ | char _ | string _ | none => true
  | list _ | tuple _ | dict _ => false

theorem compatible_leaf (h : d.isLeaf) : d.Compatible e ↔ d = e := by
  constructor
  · rintro ⟨x, hd, he⟩
    cases d <;> cases x <;> simp only [isLeaf, begins, reduceCtorEq] at h hd
    all_goals cases e <;> simp_all [begins]
  · rintro rfl
    exact .refl d

/-! A collection is compatible with collections of its kind alone. -/

@[simp]
theorem compatible_list : (list ds).Compatible e ↔
    ∃ es, list es = e ∧ ∃ xs, beginsAll ds xs ∧ beginsAll es xs := by
  constructor
  · rintro ⟨x, hd, he⟩
    cases x <;> cases e <;> simp only [begins, reduceCtorEq] at hd he
    exact ⟨_, rfl, _, hd, he⟩
  · rintro ⟨es, rfl, xs, hds, hes⟩
    exact ⟨list xs, hds, hes⟩

@[simp]
theorem compatible_tuple : (tuple ds).Compatible e ↔
    ∃ es, tuple es = e ∧ ∃ xs, beginsAll ds xs ∧ beginsAll es xs := by
  constructor
  · rintro ⟨x, hd, he⟩
    cases x <;> cases e <;> simp only [begins, reduceCtorEq] at hd he
    exact ⟨_, rfl, _, hd, he⟩
  · rintro ⟨es, rfl, xs, hds, hes⟩
    exact ⟨tuple xs, hds, hes⟩

@[simp]
theorem compatible_dict {ds : List (Datum × Datum)} : (dict ds).Compatible e ↔
    ∃ es, dict es = e ∧ ∃ xs, beginsEntries ds xs ∧ beginsEntries es xs := by
  constructor
  · rintro ⟨x, hd, he⟩
    cases x <;> cases e <;> simp only [begins, reduceCtorEq] at hd he
    exact ⟨_, rfl, _, hd, he⟩
  · rintro ⟨es, rfl, xs, hds, hes⟩
    exact ⟨dict xs, hds, hes⟩

theorem exists_beginsAll_cons {es : List Datum} :
    (∃ xs, beginsAll (d :: ds) xs ∧ beginsAll (e :: es) xs) ↔
      d.Compatible e ∧ ∃ xs, beginsAll ds xs ∧ beginsAll es xs := by
  constructor
  · rintro ⟨_ | ⟨x, xs⟩, hd, he⟩
    · cases hd
    · simp only [beginsAll, Bool.and_eq_true] at hd he
      exact ⟨⟨x, hd.1, he.1⟩, xs, hd.2, he.2⟩
  · rintro ⟨⟨x, hd, he⟩, xs, hds, hes⟩
    exact ⟨x :: xs, by simp [beginsAll, hd, hds], by simp [beginsAll, he, hes]⟩

theorem exists_beginsEntries_cons {a b c : Datum} {ds es : List (Datum × Datum)} :
    (∃ xs, beginsEntries ((a, b) :: ds) xs ∧ beginsEntries ((c, d) :: es) xs) ↔
      a.Compatible c ∧ b.Compatible d ∧ ∃ xs, beginsEntries ds xs ∧
        beginsEntries es xs := by
  constructor
  · rintro ⟨_ | ⟨⟨x, y⟩, xs⟩, hd, he⟩
    · cases hd
    · simp only [beginsEntries, Bool.and_eq_true] at hd he
      exact ⟨⟨x, hd.1.1, he.1.1⟩, ⟨y, hd.1.2, he.1.2⟩, xs, hd.2, he.2⟩
  · rintro ⟨⟨x, ha, hc⟩, ⟨y, hb, hd⟩, xs, hds, hes⟩
    exact ⟨(x, y) :: xs, by simp [beginsEntries, ha, hb, hds],
      by simp [beginsEntries, hc, hd, hes]⟩

end Datum

namespace Value

mutual

/-- What a value is without its types. Schemas, tables, functions and entries are no data. -/
def data? : Value → Option Datum
  | int _ n => some (.int n)
  | bool _ b => some (.bool b)
  | char _ s => some (.char s)
  | string _ s => some (.string s)
  | none _ => some .none
  | list _ vs => (dataAll? vs).map .list
  | tuple _ vs => (dataAll? vs).map .tuple
  | dict _ vs => (dataEntries? vs).map .dict
  | _ => Option.none

/-- What values are without their types. -/
def dataAll? : List Value → Option (List Datum)
  | [] => some []
  | v :: vs => (data? v).bind fun d => (dataAll? vs).map (d :: ·)

/-- What entries are without their types. -/
def dataEntries? : List (Value × Value) → Option (List (Datum × Datum))
  | [] => some []
  | (k, v) :: vs =>
    (data? k).bind fun a => (data? v).bind fun b => (dataEntries? vs).map ((a, b) :: ·)

end

theorem dataAll?_cons {v : Value} {vs : List Value} {ds : List Datum}
    (h : dataAll? (v :: vs) = some ds) :
    ∃ d ds', v.data? = some d ∧ dataAll? vs = some ds' ∧ ds = d :: ds' := by
  obtain ⟨d, hd, h⟩ := Option.bind_eq_some_iff.mp h
  obtain ⟨ds', hds, rfl⟩ := Option.map_eq_some_iff.mp h
  exact ⟨d, ds', hd, hds, rfl⟩

theorem dataEntries?_cons {k v : Value} {vs : List (Value × Value)} {ds : List (Datum × Datum)}
    (h : dataEntries? ((k, v) :: vs) = some ds) :
    ∃ a b ds', k.data? = some a ∧ v.data? = some b ∧ dataEntries? vs = some ds' ∧
      ds = (a, b) :: ds' := by
  obtain ⟨a, ha, h⟩ := Option.bind_eq_some_iff.mp h
  obtain ⟨b, hb, h⟩ := Option.bind_eq_some_iff.mp h
  obtain ⟨ds', hds, rfl⟩ := Option.map_eq_some_iff.mp h
  exact ⟨a, b, ds', ha, hb, hds, rfl⟩

open Datum

mutual

/-- Values are the same iff one datum begins with both. -/
theorem same_iff_compatible {v w : Value} {d e : Datum} (hv : v.data? = some d)
    (hw : w.data? = some e) : v.same w ↔ d.Compatible e := by
  cases v <;> cases w <;>
    simp only [data?, Option.map_eq_some_iff, Option.some.injEq, reduceCtorEq] at hv hw
  case list.list =>
    obtain ⟨ds, hds, rfl⟩ := hv
    obtain ⟨es, hes, rfl⟩ := hw
    simpa [same] using sameAll_iff hds hes
  case tuple.tuple =>
    obtain ⟨ds, hds, rfl⟩ := hv
    obtain ⟨es, hes, rfl⟩ := hw
    simpa [same] using sameAll_iff hds hes
  case dict.dict =>
    obtain ⟨ds, hds, rfl⟩ := hv
    obtain ⟨es, hes, rfl⟩ := hw
    simpa [same] using sameEntries_iff hds hes
  -- Leaves, and values of two kinds.
  all_goals
    first | subst hv | obtain ⟨_, -, rfl⟩ := hv
    first | subst hw | obtain ⟨_, -, rfl⟩ := hw
    try rw [compatible_leaf rfl]
    simp [same]

theorem sameAll_iff {vs ws : List Value} {ds es : List Datum} (hv : dataAll? vs = some ds)
    (hw : dataAll? ws = some es) : sameAll vs ws ↔ ∃ xs, beginsAll ds xs ∧
    beginsAll es xs := by
  match vs, ws with
  | [], _ =>
    cases hv
    simpa [sameAll, beginsAll] using ⟨es, beginsAll_refl es⟩
  | _ :: _, [] =>
    cases hw
    simpa [sameAll, beginsAll] using ⟨ds, beginsAll_refl ds⟩
  | v :: vs, w :: ws =>
    obtain ⟨d, ds, hd, hds, rfl⟩ := dataAll?_cons hv
    obtain ⟨e, es, he, hes, rfl⟩ := dataAll?_cons hw
    rw [exists_beginsAll_cons, sameAll, Bool.and_eq_true, same_iff_compatible hd he,
      sameAll_iff hds hes]

theorem sameEntries_iff {vs ws : List (Value × Value)} {ds es : List (Datum × Datum)}
    (hv : dataEntries? vs = some ds) (hw : dataEntries? ws = some es) :
    sameEntries vs ws ↔ ∃ xs, beginsEntries ds xs ∧ beginsEntries es xs := by
  match vs, ws with
  | [], _ =>
    cases hv
    simpa [sameEntries, beginsEntries] using ⟨es, beginsEntries_refl es⟩
  | _ :: _, [] =>
    cases hw
    simpa [sameEntries, beginsEntries] using ⟨ds, beginsEntries_refl ds⟩
  | (k, v) :: vs, (l, w) :: ws =>
    obtain ⟨a, b, ds, ha, hb, hds, rfl⟩ := dataEntries?_cons hv
    obtain ⟨c, d, es, hc, hd, hes, rfl⟩ := dataEntries?_cons hw
    rw [exists_beginsEntries_cons, sameEntries, Bool.and_eq_true, Bool.and_eq_true,
      same_iff_compatible ha hc, same_iff_compatible hb hd, sameEntries_iff hds hes, and_assoc]

end

/-- The comparison is reflexive and symmetric on data. It tells equal values from others iff they
are equal or not compatible. -/
theorem same_iff_eq_iff {v w : Value} {d e : Datum} (hv : v.data? = some d)
    (hw : w.data? = some e) :
    v.same v ∧ v.same w = w.same v ∧
      ((v.same w ↔ d = e) ↔ d = e ∨ ¬ d.Compatible e) := by
  have hsame := same_iff_compatible hv hw
  refine ⟨(same_iff_compatible hv hv).mpr (.refl d), ?_, ?_⟩
  · rw [Bool.eq_iff_iff, hsame, same_iff_compatible hw hv, compatible_comm]
  · rw [hsame]
    constructor
    · intro hiff
      by_cases hcompatible : d.Compatible e
      · exact .inl (hiff.mp hcompatible)
      · exact .inr hcompatible
    · rintro (rfl | hcompatible)
      · exact iff_of_true (.refl d) rfl
      · exact iff_of_false hcompatible fun heq => hcompatible (heq ▸ .refl d)

/-- A list of a tuple and a dictionary. -/
def nested (n : Int) : Value :=
  .list (.list .any)
    [.tuple (.tuple () [.int, .string]) [.int .int n, .string .string "a"],
     .dict (.dict .int .bool) [(.int .int 1, .bool .bool true)]]

/-- The list without its types. -/
def nestedDatum (n : Int) : Datum :=
  .list [.tuple [.int n, .string "a"], .dict [(.int 1, .bool true)]]

/-- Nested collections of the same lengths are told apart by a leaf. -/
theorem same_nested :
    (nested 1).data? = some (nestedDatum 1) ∧ (nested 2).data? = some (nestedDatum 2) ∧
      (nested 1).same (nested 1) ∧ (nested 1).same (nested 2) = (nested 2).same (nested 1) ∧
      ((nested 1).same (nested 2) ↔ nestedDatum 1 = nestedDatum 2) := by
  have hone : (nested 1).data? = some (nestedDatum 1) := rfl
  have htwo : (nested 2).data? = some (nestedDatum 2) := rfl
  have hleaf : ¬ (Datum.int 1).Compatible (.int 2) := by
    rw [compatible_leaf rfl]
    simp
  have happart : ¬ (nestedDatum 1).Compatible (nestedDatum 2) := by
    simp [nestedDatum, exists_beginsAll_cons, hleaf]
  obtain ⟨hrefl, hcomm, hiff⟩ := same_iff_eq_iff hone htwo
  exact ⟨hone, htwo, hrefl, hcomm, hiff.mpr (.inr happart)⟩

/-- A list of numbers. -/
def numbers (ns : List Int) : Value :=
  .list (.list .int) (ns.map (.int .int))

/-- A list is taken for the same as a longer one that it begins, so that different lists are the
same as one that both begin with. -/
theorem same_of_longer :
    (numbers [1]).data? = some (.list [.int 1]) ∧
      (numbers [1, 2]).data? = some (.list [.int 1, .int 2]) ∧
      ¬ ((numbers [1]).same (numbers [1, 2]) ↔ Datum.list [.int 1] = .list [.int 1, .int 2]) ∧
      (numbers [1]).same (numbers []) ∧ (numbers []).same (numbers [2]) ∧
      ¬ (numbers [1]).same (numbers [2]) := by
  refine ⟨rfl, rfl, ?_, rfl, rfl, nofun⟩
  simp [numbers, same, sameAll]

end Value

end TableScript
