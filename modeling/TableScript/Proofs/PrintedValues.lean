import Mathlib.Data.Finset.Card
import Mathlib.Data.Finset.Range
import Mathlib.Order.Monotone.Basic
import TableScript.Proofs.Exec

/-!
# Values that have a text

Not every value can be printed. An empty list, tuple, dictionary or schema has no text, nor has a
number with too many digits, a table in which a row has more or fewer cells than there are columns,
a type of which a part is missing, or anything with such a part in it or with itself as a part.

* `Shape.isWritten` says which types have a text;
* `Store.Prints` says what an object takes to have a text, given which of its parts have one;
* `Store.Printable` are the references whose values have a text: parts within parts to any depth,
  but not without end.

The main result is `Store.gives_text`: a value has a text iff it is printable. Printing goes no
deeper than there are objects. That is deep enough: each level prints an object that the levels
before do not, up to one after which nothing more is printed (`Store.gives_textTo_size`).
-/

namespace TableScript

/-- A computation gives a result. -/
def Gives {ε α : Type} (x : Except ε α) : Prop :=
  ∃ a, x = .ok a

namespace Gives

variable {ε α β : Type} {x : Except ε α} {f : α → Except ε β} {p : Prop}

theorem ok (a : α) : Gives (.ok a : Except ε α) := ⟨a, rfl⟩

theorem not_error (e : ε) : ¬Gives (.error e : Except ε α) := nofun

instance : Decidable (Gives x) :=
  match x with
  | .ok a => .isTrue (ok a)
  | .error e => .isFalse (not_error e)

theorem bind_iff (h : ∀ a, x = .ok a → (Gives (f a) ↔ p)) : Gives (x >>= f) ↔
    Gives x ∧ p := by
  constructor
  · rintro ⟨b, hb⟩
    obtain ⟨a, ha, hfa⟩ := Except.ok_of_bind hb
    exact ⟨⟨a, ha⟩, (h a ha).mp ⟨b, hfa⟩⟩
  · rintro ⟨⟨a, rfl⟩, hp⟩
    exact (h a rfl).mpr hp

theorem bind_iff_left (h : ∀ a, Gives (f a)) : Gives (x >>= f) ↔ Gives x := by
  rw [bind_iff fun a _ => iff_true_intro (h a), and_true]

variable {l : List α}

theorem mapM_iff : Gives (l.mapM f) ↔ ∀ a ∈ l, Gives (f a) := by
  induction l with
  | nil => exact ⟨nofun, fun _ => ok []⟩
  | cons a l ih =>
    rw [List.mapM_cons, List.forall_mem_cons, ← ih]
    exact bind_iff fun b _ => bind_iff_left fun bs => ok (b :: bs)

theorem map_of_mapM {γ : Type} {g : α → γ} {g' : β → γ}
    (hf : ∀ a b, f a = .ok b → g' b = g a)
    {bs : List β} (h : l.mapM f = .ok bs) : bs.map g' = l.map g := by
  induction l generalizing bs with
  | nil =>
    cases h
    rfl
  | cons a l ih =>
    rw [List.mapM_cons] at h
    obtain ⟨b, hb, h⟩ := Except.ok_of_bind h
    obtain ⟨cs, hcs, h⟩ := Except.ok_of_bind h
    cases h
    rw [List.map_cons, List.map_cons, hf a b hb, ih hcs]

theorem length_of_mapM {bs : List β} (h : l.mapM f = .ok bs) : bs.length = l.length := by
  have hmap : bs.map (fun _ => ()) = l.map fun _ => () := map_of_mapM (fun _ _ _ => rfl) h
  simpa using congrArg List.length hmap

theorem join_iff {γ : Type} {join : List β → Except ε γ}
    (hjoin : ∀ bs, Gives (join bs) ↔ bs ≠ []) :
    Gives (l.mapM f >>= join) ↔ l ≠ [] ∧ ∀ a ∈ l, Gives (f a) := by
  rw [bind_iff (p := l ≠ []) fun bs hbs => ?_, mapM_iff, and_comm]
  rw [hjoin, ← List.length_pos_iff, ← List.length_pos_iff, length_of_mapM hbs]

end Gives

open Gives

/-! ## Types -/

namespace Shape

variable {ι : Type}

mutual

/-- Does a type have a text? -/
def isWritten : Shape ι → Bool
  | any | unknown | literal | iterable | int | bool | char | none | string => true
  | list a => isWritten a
  | dict a b => isWritten a && isWritten b
  | union _ as | tuple _ as | schema _ as | table _ as => areWritten as
  | func as a => !as.isEmpty && areWritten as && isWritten a
  | absent => false
  | dangling => false

/-- Do types have texts? -/
def areWritten : List (Shape ι) → Bool
  | [] => true
  | a :: as => isWritten a && areWritten as

end

theorem texts_eq_mapM (as : List (Shape ι)) : texts as = as.mapM text := by
  induction as with
  | nil => rfl
  | cons a as ih => rw [texts, List.mapM_cons, ih]

mutual

theorem gives_text : ∀ a : Shape ι, Gives a.text ↔ a.isWritten = true
  | any | unknown | literal | iterable | int | bool | char | none | string =>
    iff_of_true (.ok _) rfl
  | list a => (bind_iff_left fun _ => .ok _).trans (gives_text a)
  | dict a b => by
    rw [isWritten, Bool.and_eq_true, ← gives_text a, ← gives_text b]
    exact bind_iff fun _ _ => bind_iff_left fun _ => .ok _
  | union _ as | tuple _ as => (bind_iff_left fun _ => .ok _).trans (gives_texts as)
  | schema _ as | table _ as => (bind_iff_left fun _ => .ok _).trans (gives_texts as)
  | func as a => by
    rw [isWritten, Bool.and_eq_true, Bool.and_eq_true, ← gives_text a, ← gives_texts as,
      and_comm (a := _ = true), and_assoc]
    refine bind_iff fun ts hts => ?_
    rw [texts_eq_mapM] at hts
    have hlength := length_of_mapM hts
    cases as with
    | nil =>
      obtain rfl : ts = [] := List.length_eq_zero_iff.mp hlength
      exact iff_of_false (not_error _) nofun
    | cons b as =>
      obtain ⟨t, us, rfl⟩ := List.exists_cons_of_length_eq_add_one hlength
      exact (bind_iff_left fun _ => .ok _).trans (and_iff_right rfl).symm
  | absent | dangling => iff_of_false (not_error _) nofun

theorem gives_texts : ∀ as : List (Shape ι), Gives (texts as) ↔ areWritten as = true
  | [] => iff_of_true (.ok _) rfl
  | a :: as => by
    rw [areWritten, Bool.and_eq_true, ← gives_text a, ← gives_texts as]
    exact bind_iff fun _ _ => bind_iff_left fun _ => .ok _

end

end Shape

/-! ## Parts of texts -/

variable (texts : List String)

theorem gives_joinTexts : Gives (joinTexts texts) ↔ texts ≠ [] := by
  cases texts with
  | nil => exact iff_of_false (not_error _) (fun h => h rfl)
  | cons t ts => exact iff_of_true (.ok _) nofun

theorem gives_listText : Gives (listText texts) ↔ texts ≠ [] :=
  (bind_iff_left fun _ => .ok _).trans (gives_joinTexts texts)

theorem gives_tupleText : Gives (tupleText texts) ↔ texts ≠ [] :=
  (bind_iff_left fun _ => .ok _).trans (gives_joinTexts texts)

variable (columns : List (String × Ty))

theorem gives_columnTexts : Gives (columnTexts columns) ↔
    ∀ c ∈ columns, c.2.isWritten = true := by
  refine mapM_iff.trans (forall₂_congr fun c _ => ?_)
  exact (bind_iff_left fun _ => .ok _).trans (Shape.gives_text c.2)

theorem gives_schemaText :
    Gives (schemaText columns) ↔ columns ≠ [] ∧ ∀ c ∈ columns, c.2.isWritten = true := by
  rw [← gives_columnTexts, and_comm]
  refine bind_iff fun texts htexts => ?_
  refine (bind_iff_left fun _ => .ok _).trans ((gives_joinTexts texts).trans ?_)
  rw [← List.length_pos_iff, ← List.length_pos_iff, length_of_mapM htexts]

/-- The type of the result of a function has a text. -/
def resultIsWritten : Ty → Bool
  | .func _ result => result.isWritten
  | _ => true

theorem gives_funcText (type : Ty) (builtin : Option Builtin) (parameters : List (String × Ty)) :
    Gives (funcText type builtin parameters) ↔
      resultIsWritten type = true ∧ ∀ p ∈ parameters, p.2.isWritten = true := by
  rw [← gives_columnTexts]
  cases type with
  | func _ result =>
    rw [resultIsWritten, ← Shape.gives_text result]
    exact bind_iff fun _ _ => bind_iff_left fun _ => .ok _
  | _ => exact (bind_iff_left fun _ => .ok _).trans (and_iff_right rfl).symm

namespace Grid

theorem gives_width (g : Grid) (column : Nat) :
    Gives (g.width column) ↔ ∀ row ∈ g.lines, column < row.length := by
  refine (bind_iff_left fun _ => .ok _).trans
    (mapM_iff.trans (forall₂_congr fun row _ => ?_))
  cases hcell : row[column]? with
  | none =>
    rw [List.getElem?_eq_none_iff] at hcell
    exact iff_of_false (not_error _) (Nat.not_lt.mpr hcell)
  | some cell => exact iff_of_true (.ok _) (List.getElem?_eq_some_iff.mp hcell).1

theorem gives_line (widths : List Nat) (row : List String) :
    Gives (line widths row) ↔ row.length ≤ widths.length := by
  unfold line
  by_cases h : widths.length < row.length
  · rw [if_pos h]
    exact iff_of_false (not_error _) (Nat.not_le.mpr h)
  · rw [if_neg h]
    exact iff_of_true (.ok _) (Nat.not_lt.mp h)

theorem gives_text {g : Grid} (h : g.types.length = g.names.length) :
    Gives g.text ↔ ∀ row ∈ g.rows, row.length = g.names.length := by
  have hwidths : Gives ((List.range g.names.length).mapM g.width) ↔
      ∀ column < g.names.length, ∀ row ∈ g.lines, column < row.length := by
    refine mapM_iff.trans (forall_congr' fun column => ?_)
    rw [List.mem_range, gives_width]
  -- The widths ask every row for a cell in each column, and a line has no more cells than widths.
  have htext : Gives g.text ↔ Gives ((List.range g.names.length).mapM g.width) ∧
      ∀ row ∈ g.rows, row.length ≤ g.names.length := by
    refine bind_iff fun widths hwidths => ?_
    have hlength : widths.length = g.names.length := by
      rw [length_of_mapM hwidths, List.length_range]
    have hrows : Gives (g.rows.mapM (line widths)) ↔
        ∀ row ∈ g.rows, row.length ≤ g.names.length := by
      rw [mapM_iff]
      simp only [gives_line, hlength]
    have htypes : Gives (line widths g.types) := (gives_line _ _).mpr (h.trans hlength.symm).le
    have hnames : Gives (line widths g.names) := (gives_line _ _).mpr hlength.ge
    refine (bind_iff fun types _ => bind_iff fun names _ =>
      (bind_iff_left fun rows => .ok _).trans hrows).trans ?_
    rw [and_iff_right htypes, and_iff_right hnames]
  rw [htext, hwidths]
  constructor
  · rintro ⟨hcells, hle⟩ row hrow
    refine Nat.le_antisymm (hle row hrow) (Nat.not_lt.mp fun hlt => ?_)
    have hmem : row ∈ g.lines := List.mem_cons_of_mem _ (List.mem_cons_of_mem _ hrow)
    exact Nat.lt_irrefl _ (hcells row.length hlt row hmem)
  · intro hrows
    refine ⟨fun column hcolumn row hrow => ?_, fun row hrow => (hrows row hrow).le⟩
    rcases List.mem_cons.mp hrow with rfl | hrow
    · rwa [h]
    · rcases List.mem_cons.mp hrow with rfl | hrow
      · exact hcolumn
      · rwa [hrows row hrow]

end Grid

namespace Store

variable {s : Store}

/-- A type ends and has a text. -/
def Written (s : Store) (t : TypeRef) : Prop :=
  s.types.ends t = true ∧ (s.plainType t).isWritten = true

/-- The references in a row. What is no tuple is an empty row. -/
def rowRefs (s : Store) (row : Ref) : List Ref :=
  match s.content row with
  | .tuple place => s.sequence place
  | _ => []

/-- What an object takes to have a text, if `ok` says which references in it have one. -/
def Prints (s : Store) (ok : Ref → Prop) (o : Object) : Prop :=
  match o.content with
  | .int n => (Text.numeralOf? n).isSome = true
  | .bool _ | .char _ | .string _ | .none => True
  | .list place | .tuple place => s.sequence place ≠ [] ∧ ∀ e ∈ s.sequence place, ok e
  | .dict entries => entries ≠ [] ∧ ∀ e ∈ entries, ok e.1 ∧ ok e.2
  | .schema place => s.columnList place ≠ [] ∧ ∀ c ∈ s.columnList place, s.Written c.2
  | .table schema rows =>
    (∀ c ∈ s.columnsOf schema, s.Written c.2) ∧ ∀ row ∈ s.sequence rows,
      (s.rowRefs row).length = (s.columnsOf schema).length ∧ ∀ e ∈ s.rowRefs row, ok e
  | .func c =>
    s.types.ends o.type = true ∧ resultIsWritten (s.plainType o.type) = true ∧
      ∀ p ∈ c.parameters, s.Written p.2
  | .entry _ _ => False

/-- The references whose values have a text. -/
inductive Printable (s : Store) : Ref → Prop
  | of {r : Ref} {ok : Ref → Prop} (hok : ∀ e, ok e → Printable s e)
    (h : s.Prints ok (s.object r)) : Printable s r

theorem Prints.mono {ok ok' : Ref → Prop} {o : Object} (h : s.Prints ok o)
    (hok : ∀ e, ok e → ok' e) : s.Prints ok' o := by
  obtain ⟨type, content⟩ := o
  cases content with
  | list place | tuple place => exact ⟨h.1, fun e he => hok e (h.2 e he)⟩
  | dict entries => exact ⟨h.1, fun e he => ⟨hok _ (h.2 e he).1, hok _ (h.2 e he).2⟩⟩
  | table schema rows =>
    exact ⟨h.1, fun row hrow => ⟨(h.2 row hrow).1,
      fun e he => hok e ((h.2 row hrow).2 e he)⟩⟩
  | _ => exact h

variable {r : Ref}

theorem printable_iff : s.Printable r ↔ s.Prints s.Printable (s.object r) :=
  ⟨fun ⟨hok, h⟩ => h.mono hok, fun h => .of (fun _ he => he) h⟩

/-! ## One object -/

theorem gives_endingColumns_bind {α : Type} (columns : List (String × TypeRef))
    (k : List (String × Ty) → Except Fault α) :
    Gives (s.endingColumns columns >>= k) ↔ (∀ c ∈ columns, s.types.ends c.2 = true) ∧
      Gives (k (columns.map fun c => (c.1, s.plainType c.2))) := by
  have hends : Gives (s.endingColumns columns) ↔ ∀ c ∈ columns, s.types.ends c.2 = true := by
    refine mapM_iff.trans (forall₂_congr fun c _ => ?_)
    refine (bind_iff_left fun _ => .ok _).trans ?_
    unfold endingType
    by_cases h : s.types.ends c.2 = true
    · rw [if_pos h]
      exact iff_of_true (.ok _) h
    · rw [if_neg h]
      exact iff_of_false (not_error _) h
  rw [← hends]
  refine bind_iff fun types htypes => ?_
  have htype : ∀ (c : String × TypeRef) (b : String × Ty),
      (do return (c.1, ← s.endingType c.2) : Except Fault (String × Ty)) = .ok b →
        id b = (c.1, s.plainType c.2) := by
    intro c b hb
    obtain ⟨t, ht, hb⟩ := Except.ok_of_bind hb
    cases hb
    unfold endingType at ht
    split at ht <;> cases ht
    rfl
  rw [← map_of_mapM htype htypes, List.map_id]

theorem forall_written (columns : List (String × TypeRef)) :
    ((∀ c ∈ columns, s.types.ends c.2 = true) ∧
      ∀ c ∈ columns.map fun c => (c.1, s.plainType c.2), c.2.isWritten = true) ↔
        ∀ c ∈ columns, s.Written c.2 := by
  rw [List.forall_mem_map]
  exact forall₂_and.symm

variable (text : Ref → Except Fault String) (schema : Ref) (rows : Nat)

theorem tableText_eq :
    s.tableText text schema rows = (do
      let columns ← s.endingColumns (s.columnsOf schema)
      let types ← columns.mapM fun c => c.2.text
      let cells ← (s.sequence rows).mapM fun row => (s.rowRefs row).mapM text
      Grid.text ⟨types, columns.map (·.1), cells⟩) := by
  have hrow : (fun row => (s.rowRefs row).mapM text) = fun row => match s.content row with
      | .tuple place => (s.sequence place).mapM text
      | _ => .ok [] := by
    funext row
    unfold rowRefs
    split <;> rfl
  rw [hrow]
  rfl

theorem gives_gridText {text : Ref → Except Fault String} {rows : List Ref}
    {types names : List String} {cells : List (List String)} (htypes : types.length = names.length)
    (hcells : rows.mapM (fun row => (s.rowRefs row).mapM text) = .ok cells) :
    Gives (Grid.text ⟨types, names, cells⟩) ↔
      ∀ row ∈ rows, (s.rowRefs row).length = names.length := by
  have hlengths : cells.map List.length = rows.map fun row => (s.rowRefs row).length :=
    map_of_mapM (fun _ _ => length_of_mapM) hcells
  rw [Grid.gives_text htypes]
  calc (∀ row ∈ cells, row.length = names.length)
      ↔ ∀ n ∈ cells.map List.length, n = names.length := by rw [List.forall_mem_map]
    _ ↔ ∀ n ∈ rows.map fun row => (s.rowRefs row).length, n = names.length := by rw [hlengths]
    _ ↔ ∀ row ∈ rows, (s.rowRefs row).length = names.length := by rw [List.forall_mem_map]

theorem gives_tableText :
    Gives (s.tableText text schema rows) ↔ (∀ c ∈ s.columnsOf schema, s.Written c.2) ∧
      ∀ row ∈ s.sequence rows, (s.rowRefs row).length = (s.columnsOf schema).length ∧
        ∀ e ∈ s.rowRefs row, Gives (text e) := by
  rw [tableText_eq, gives_endingColumns_bind, ← forall_written, and_assoc]
  refine and_congr_right fun _ => ?_
  refine (bind_iff fun types htypes => bind_iff fun cells hcells =>
    gives_gridText (by simp only [length_of_mapM htypes, List.length_map]) hcells).trans ?_
  refine and_congr (mapM_iff.trans (forall₂_congr fun c _ => Shape.gives_text c.2)) ?_
  rw [and_comm, mapM_iff, ← forall₂_and]
  simp only [mapM_iff, List.length_map]

theorem gives_textWith (o : Object) :
    Gives (s.textWith text o) ↔ s.Prints (fun r => Gives (text r)) o := by
  obtain ⟨type, content⟩ := o
  cases content with
  | int n =>
    show Gives (intText n) ↔ (Text.numeralOf? n).isSome = true
    unfold intText
    cases Text.numeralOf? n with
    | none => exact iff_of_false (not_error _) nofun
    | some t => exact iff_of_true (.ok _) rfl
  | list place => exact join_iff gives_listText
  | tuple place => exact join_iff gives_tupleText
  | dict entries =>
    refine (join_iff gives_listText).trans (and_congr_right fun _ => forall₂_congr fun e _ => ?_)
    exact bind_iff fun _ _ => bind_iff_left fun _ => .ok _
  | schema place =>
    refine (gives_endingColumns_bind _ _).trans ?_
    rw [gives_schemaText, and_left_comm, forall_written, Ne, List.map_eq_nil_iff]
    exact Iff.rfl
  | table schema rows => exact gives_tableText text schema rows
  | func c =>
    show Gives (s.endingType type >>= fun t =>
      s.endingColumns c.parameters >>= fun parameters => funcText t c.builtin parameters) ↔ _
    unfold endingType
    by_cases hends : s.types.ends type = true
    · rw [if_pos hends]
      refine (gives_endingColumns_bind _ _).trans ?_
      rw [gives_funcText, and_left_comm, forall_written]
      exact (and_iff_right hends).symm
    · rw [if_neg hends]
      exact iff_of_false (not_error _) fun h => hends h.1
  | entry k v => exact iff_of_false (not_error _) id
  | _ => exact iff_of_true (.ok _) trivial

/-! ## All depths -/

theorem gives_textTo_succ (depth : Nat) (r : Ref) :
    Gives (s.textTo (depth + 1) r) ↔ s.Prints (fun e => Gives (s.textTo depth e)) (s.object r) :=
  gives_textWith _ _

variable {depth : Nat}

theorem gives_textTo_mono (h : Gives (s.textTo depth r)) : Gives (s.textTo (depth + 1) r) := by
  induction depth generalizing r with
  | zero => exact absurd h (not_error _)
  | succ depth ih =>
    rw [gives_textTo_succ] at h ⊢
    exact h.mono fun _ => ih

theorem printable_of_gives_textTo (h : Gives (s.textTo depth r)) : s.Printable r := by
  induction depth generalizing r with
  | zero => exact absurd h (not_error _)
  | succ depth ih => exact .of (fun _ => ih) ((gives_textTo_succ depth r).mp h)

/-- The objects that have a text to a depth. -/
def printed (s : Store) (depth : Nat) : Finset Nat :=
  (Finset.range s.objects.size).filter fun i => Gives (s.textTo (depth + 1) ⟨i⟩)

theorem mem_printed {i : Nat} :
    i ∈ s.printed depth ↔ i < s.objects.size ∧ Gives (s.textTo (depth + 1) ⟨i⟩) := by
  rw [printed, Finset.mem_filter, Finset.mem_range]

theorem printed_mono : Monotone s.printed :=
  monotone_nat_of_le_succ fun _ _ hi =>
    mem_printed.mpr ((mem_printed.mp hi).imp_right gives_textTo_mono)

theorem gives_textTo_of_size_le (h : s.objects.size ≤ r.index) (depth : Nat) :
    Gives (s.textTo (depth + 1) r) := by
  have hobject : s.object r = ⟨.absent, .none⟩ := by
    rw [object, Array.getD_eq_getD_getElem?, Array.getElem?_eq_none h]
    rfl
  rw [gives_textTo_succ, hobject]
  trivial

theorem printed_stable (h : s.printed depth = s.printed (depth + 1)) :
    s.printed (depth + 1) = s.printed (depth + 2) := by
  refine (printed_mono (Nat.le_succ _)).antisymm fun i hi => ?_
  rw [mem_printed, gives_textTo_succ] at hi ⊢
  -- It is enough that the parts have a text one level earlier.
  refine ⟨hi.1, hi.2.mono fun e he => ?_⟩
  by_cases hindex : e.index < s.objects.size
  · have hmem : e.index ∈ s.printed (depth + 1) := mem_printed.mpr ⟨hindex, he⟩
    rw [← h] at hmem
    exact (mem_printed.mp hmem).2
  · exact gives_textTo_of_size_le (Nat.not_lt.mp hindex) depth

/-- A value is as deep as there are objects, or endless. -/
theorem gives_textTo_size (h : Gives (s.textTo (s.objects.size + 2) r)) :
    Gives (s.textTo (s.objects.size + 1) r) := by
  by_cases hindex : r.index < s.objects.size
  · -- Each level that prints an object more takes one of finitely many.
    have hcard : (s.printed (s.objects.size + 1)).card = (s.printed s.objects.size).card := by
      refine Nat.stabilises_of_monotone (f := fun k => (s.printed k).card)
        (fun _ _ hk => Finset.card_le_card (printed_mono hk)) (fun k => ?_) (fun k hk => ?_)
        (Nat.le_succ _)
      · exact (Finset.card_filter_le _ _).trans (Finset.card_range _).le
      · have hsame : s.printed k = s.printed (k + 1) :=
          Finset.eq_of_subset_of_card_le (printed_mono (Nat.le_succ k)) hk.ge
        exact congrArg Finset.card (printed_stable hsame)
    have hsame : s.printed s.objects.size = s.printed (s.objects.size + 1) :=
      Finset.eq_of_subset_of_card_le (printed_mono (Nat.le_succ _)) hcard.le
    have hmem : r.index ∈ s.printed (s.objects.size + 1) := mem_printed.mpr ⟨hindex, h⟩
    rw [← hsame] at hmem
    exact (mem_printed.mp hmem).2
  · exact gives_textTo_of_size_le (Nat.not_lt.mp hindex) _

theorem gives_text : Gives (s.text r) ↔ s.Printable r := by
  refine ⟨printable_of_gives_textTo, fun h => ?_⟩
  induction h with
  | of hok h ih =>
    -- The parts have texts at the last level, so that the whole has one at the level after it.
    refine gives_textTo_size ?_
    rw [gives_textTo_succ]
    exact h.mono ih

end Store

end TableScript
