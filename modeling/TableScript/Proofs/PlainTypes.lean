import Mathlib.Tactic
import TableScript.Type.Conform

/-!
# Types without their marks

The marks of a type say where its lists of members lie; conformance does not look at them
(`Shape.plain_conform`).

A check gives a type that the value is then said to have. It goes where it went before if the
expected type is *firm* (`Shape.isKnown_conform_again`): a bare `iterable` does not go with itself,
nor does a tuple type without members. The type of a list or of a dictionary needs only firm parts.

`Shape.Meets` has a case for each way in which two types make a third. What holds of conformance is
shown by induction on it (`Shape.meets_conform`), and not by going through all pairs of types again.
-/

namespace TableScript.Shape

variable {ι κ : Type}

/-! ## Marks -/

mutual

theorem mapMarks_mapMarks {μ : Type} (f : ι → κ) (g : κ → μ) (a : Shape ι) :
    (a.mapMarks f).mapMarks g = a.mapMarks (g ∘ f) := by
  cases a with
  | list a => simp only [mapMarks, mapMarks_mapMarks f g a]
  | dict a b => simp only [mapMarks, mapMarks_mapMarks f g a, mapMarks_mapMarks f g b]
  | union _ as | tuple _ as | schema _ as | table _ as =>
    simp only [mapMarks, mapMarksAll_mapMarksAll f g as, Function.comp_apply]
  | func as a => simp only [mapMarks, mapMarksAll_mapMarksAll f g as, mapMarks_mapMarks f g a]
  | _ => rfl

theorem mapMarksAll_mapMarksAll {μ : Type} (f : ι → κ) (g : κ → μ) :
    ∀ as : List (Shape ι), mapMarksAll g (mapMarksAll f as) = mapMarksAll (g ∘ f) as
  | [] => rfl
  | a :: as => by
    simp only [mapMarksAll, mapMarks_mapMarks f g a, mapMarksAll_mapMarksAll f g as]

end

mutual

theorem isKnown_mapMarks (f : ι → κ) (a : Shape ι) : (a.mapMarks f).isKnown = a.isKnown := by
  cases a with
  | list a => simp only [mapMarks, isKnown, isKnown_mapMarks f a]
  | dict a b => simp only [mapMarks, isKnown, isKnown_mapMarks f a, isKnown_mapMarks f b]
  | union _ as | tuple _ as | schema _ as | table _ as =>
    simp only [mapMarks, isKnown, allKnown_mapMarksAll f as]
  | func as a => simp only [mapMarks, isKnown, allKnown_mapMarksAll f as, isKnown_mapMarks f a]
  | _ => rfl

theorem allKnown_mapMarksAll (f : ι → κ) :
    ∀ as : List (Shape ι), allKnown (mapMarksAll f as) = allKnown as
  | [] => rfl
  | a :: as => by
    simp only [mapMarksAll, allKnown, isKnown_mapMarks f a, allKnown_mapMarksAll f as]

end

mutual

theorem same_iff (a b : Shape ι) : same a b = true ↔ a.plain = b.plain := by
  cases a with
  | list a =>
    cases b <;> simp [same, plain, mapMarks]
    exact same_iff a _
  | dict a₁ a₂ =>
    cases b <;> simp [same, plain, mapMarks]
    rw [same_iff a₁, same_iff a₂]
    rfl
  | union _ as | tuple _ as | schema _ as | table _ as =>
    cases b <;> simp [same, plain, mapMarks]
    exact sameAll_iff as _
  | func as a =>
    cases b <;> simp [same, plain, mapMarks]
    rw [same_iff a, sameAll_iff as]
    rfl
  | _ => cases b <;> simp [same, plain, mapMarks]

theorem sameAll_iff : ∀ as bs : List (Shape ι),
    sameAll as bs = true ↔ mapMarksAll (fun _ => ()) as = mapMarksAll (fun _ => ()) bs
  | [], [] => by simp [sameAll]
  | [], _ :: _ | _ :: _, [] => by simp [sameAll, mapMarksAll]
  | a :: as, b :: bs => by
    simp only [sameAll, mapMarksAll, Bool.and_eq_true, List.cons.injEq, same_iff a b,
      sameAll_iff as bs]
    rfl

end

mutual

theorem mapMarks_unit (f : Unit → Unit) (a : Ty) : a.mapMarks f = a := by
  cases a with
  | list a => simp only [mapMarks, mapMarks_unit f a]
  | dict a b => simp only [mapMarks, mapMarks_unit f a, mapMarks_unit f b]
  | union _ as | tuple _ as | schema _ as | table _ as =>
    simp only [mapMarks, mapMarksAll_unit f as]
  | func as a => simp only [mapMarks, mapMarksAll_unit f as, mapMarks_unit f a]
  | _ => rfl

theorem mapMarksAll_unit (f : Unit → Unit) : ∀ as : List Ty, mapMarksAll f as = as
  | [] => rfl
  | a :: as => by simp only [mapMarksAll, mapMarks_unit f a, mapMarksAll_unit f as]

end

theorem fresh_eq (a : Ty) : fresh a = a := mapMarks_unit _ a

theorem conform_any {a : Ty} (h : a ≠ unknown) : conform a any = a := by
  cases a with
  | unknown => exact absurd rfl h
  | _ => exact fresh_eq _

theorem plain_fresh [Inhabited ι] (a : Shape ι) : a.fresh.plain = a.plain :=
  mapMarks_mapMarks _ _ a

theorem same_plain (a b : Shape ι) : same a.plain b.plain = same a b := by
  rw [Bool.eq_iff_iff, same_iff, same_iff, plain, plain, plain, plain, mapMarks_unit, mapMarks_unit]

theorem any_same_plain (a : Shape ι) : ∀ bs : List (Shape ι),
    (mapMarksAll (fun _ => ()) bs).any (same a.plain) = bs.any (same a)
  | [] => rfl
  | b :: bs => by
    rw [mapMarksAll, List.any_cons, List.any_cons, any_same_plain a bs]
    exact congrArg (· || _) (same_plain a b)

/-! ## Types beside each other -/

/-- Is it neither a union nor a type that goes with every type? -/
def isSingle : Shape ι → Bool
  | any | unknown | union _ _ => false
  | _ => true

theorem isSingle_plain (a : Shape ι) : a.plain.isSingle = a.isSingle := by
  cases a <;> rfl

section

variable [Inhabited ι] {a b : Shape ι}

theorem conform_union (h : a.isSingle = true) (m : ι) (bs : List (Shape ι)) :
    conform a (union m bs) = if bs.any (same a) then fresh a else unknown := by
  cases a with
  | any | unknown | union => cases h
  | _ => rfl

theorem union_conform (h : b.isSingle = true) (m : ι) (as : List (Shape ι)) :
    conform (union m as) b = conform b (union m as) := by
  cases b with
  | any | unknown | union => cases h
  | _ => rfl

theorem eq_of_conform? {t : Shape ι} (h : a.conform? b = some t) : a.conform b = t := by
  rw [conform?] at h
  split at h
  · exact Option.some.inj h
  · cases h

end

/-! ## Types that go with themselves -/

mutual

/-- Is no bare iterable in the type, and no tuple type without members? -/
def isFirm : Shape ι → Bool
  | iterable => false
  | list a => isFirm a
  | dict a b => isFirm a && isFirm b
  | union _ as => allFirm as
  | tuple _ as => !as.isEmpty && allFirm as
  | schema _ as => allFirm as
  | func as a => allFirm as && isFirm a
  | _ => true

/-- Is every one of the types firm? -/
def allFirm : List (Shape ι) → Bool
  | [] => true
  | a :: as => isFirm a && allFirm as

end

mutual

theorem conform_self : ∀ a : Ty, a.isFirm = true → conform a a = a
  | list a, h => congrArg list (conform_self a h)
  | dict a b, h => by
    simp only [isFirm, Bool.and_eq_true] at h
    exact congrArg₂ dict (conform_self a h.1) (conform_self b h.2)
  | union _ as, h => congrArg (union ()) (conformAll_self as h)
  | tuple _ [], h => by cases h
  | tuple _ (a :: as), h => by
    simp only [isFirm, Bool.and_eq_true] at h
    exact congrArg (tuple ()) (conformAll_self (a :: as) h.2)
  | schema _ [], _ => rfl
  | schema _ (a :: as), h => congrArg (schema ()) (conformAll_self (a :: as) h)
  | func as a, h => by
    simp only [isFirm, Bool.and_eq_true] at h
    exact congrArg₂ func (conformAll_self as h.1) (conform_self a h.2)
  | iterable, h => by cases h
  | table _ _, _ | any, _ | unknown, _ | literal, _ | int, _ | bool, _ | char, _ | none, _
  | string, _ | absent, _ | .dangling, _ => rfl

theorem conformAll_self : ∀ as : List Ty, allFirm as = true → conformAll as as = as
  | [], _ => rfl
  | a :: as, h => by
    simp only [allFirm, Bool.and_eq_true] at h
    exact congrArg₂ List.cons (conform_self a h.1) (conformAll_self as h.2)

end

/-! ## What two types make of each other -/

section

variable [Inhabited ι] {a b : Shape ι}

mutual

/-- The type `c` is what `a` and `b` make of each other: one of the two, with its marks or with
none, in whatever order they are compared, or unknown, or what their parts make of each other. Of
two tables it is the first. -/
inductive Meets : Shape ι → Shape ι → Shape ι → Prop
  | left {a b c : Shape ι} (h : conform a.plain b.plain = a.plain)
      (h' : conform b.plain a.plain = a.plain) (hc : c = a ∨ c = fresh a) : Meets a b c
  | right {a b c : Shape ι} (h : conform a.plain b.plain = b.plain)
      (h' : conform b.plain a.plain = b.plain) (hc : c = b ∨ c = fresh b) : Meets a b c
  | apart {a b : Shape ι} (h : conform a.plain b.plain = unknown)
      (h' : conform b.plain a.plain = unknown) : Meets a b unknown
  | list {a b c : Shape ι} (h : Meets a b c) : Meets (list a) (list b) (list c)
  | dict {a₁ a₂ b₁ b₂ c₁ c₂ : Shape ι} (h₁ : Meets a₁ b₁ c₁)
      (h₂ : Meets a₂ b₂ c₂) :
      Meets (dict a₁ a₂) (dict b₁ b₂) (dict c₁ c₂)
  | union {m n : ι} {as bs cs : List (Shape ι)} (h : MeetsAll as bs cs) :
      Meets (union m as) (union n bs) (union default cs)
  | tuple {m n : ι} {a b c : Shape ι} {as bs cs : List (Shape ι)} (h : Meets a b c)
      (hs : MeetsAll as bs cs) :
      Meets (tuple m (a :: as)) (tuple n (b :: bs)) (tuple default (c :: cs))
  | schema {m n : ι} {a b c : Shape ι} {as bs cs : List (Shape ι)} (h : Meets a b c)
      (hs : MeetsAll as bs cs) :
      Meets (schema m (a :: as)) (schema n (b :: bs)) (schema default (c :: cs))
  | table (m n : ι) (as bs : List (Shape ι)) : Meets (table m as) (table n bs) (table m as)
  | func {as bs cs : List (Shape ι)} {a b c : Shape ι} (hs : MeetsAll as bs cs)
      (h : Meets a b c) :
      Meets (func as a) (func bs b) (func cs c)

/-- The same in pairs, up to the end of the shorter list. -/
inductive MeetsAll : List (Shape ι) → List (Shape ι) → List (Shape ι) → Prop
  | leftEnds (bs : List (Shape ι)) : MeetsAll [] bs []
  | rightEnds (as : List (Shape ι)) : MeetsAll as [] []
  | cons {a b c : Shape ι} {as bs cs : List (Shape ι)} (h : Meets a b c)
      (hs : MeetsAll as bs cs) :
      MeetsAll (a :: as) (b :: bs) (c :: cs)

end

namespace Meets

theorem union_beside (ha : a.isSingle = true) (m : ι) (bs : List (Shape ι)) :
    Meets a (.union m bs) (conform a (.union m bs)) ∧
      Meets (.union m bs) a (conform (.union m bs) a) := by
  have hplain : a.plain.isSingle = true := by rwa [isSingle_plain]
  have h := conform_union hplain () (mapMarksAll (fun _ => ()) bs)
  have h' := (union_conform hplain () (mapMarksAll (fun _ => ()) bs)).trans h
  rw [any_same_plain, fresh_eq] at h h'
  rw [union_conform ha, conform_union ha]
  split at h
  · next hmem =>
    rw [if_pos hmem] at h' ⊢
    exact ⟨.left h h' (.inr rfl), .right h' h (.inr rfl)⟩
  · next hmem =>
    rw [if_neg hmem] at h' ⊢
    exact ⟨.apart h h', .apart h' h⟩

theorem beside (ha : a.isSingle = true) (hb : b.isSingle = false) : Meets a b (conform a b) := by
  cases b with
  | unknown | any =>
    cases a <;> first | exact .left (fresh_eq _) (fresh_eq _) (.inr rfl) | cases ha
  | union m bs => exact (union_beside ha m bs).1
  | _ => cases hb

end Meets

mutual

/-- One case for each way in which types meet. -/
theorem meets_conform : ∀ a b : Shape ι, Meets a b (conform a b)
  | unknown, b => .right (fresh_eq _) (by cases b <;> exact fresh_eq _) (.inr rfl)
  | any, b => by
    cases b with
    | unknown => exact .left rfl rfl (.inl rfl)
    | _ => exact .right (fresh_eq _) (fresh_eq _) (.inr rfl)
  | union m as, b => by
    cases b with
    | unknown | any => exact .left (fresh_eq _) (fresh_eq _) (.inr rfl)
    | union _ bs => exact .union (meetsAll_conformAll as bs)
    -- any other type goes with a union if it is a member
    | _ => exact (Meets.union_beside rfl m as).2
  | list a, b => by
    cases b with
    | unknown | any | union => exact .beside rfl rfl
    | list b => exact .list (meets_conform a b)
    | iterable => exact .left rfl rfl (.inl rfl)
    | _ => exact .apart rfl rfl
  | dict a₁ a₂, b => by
    cases b with
    | unknown | any | union => exact .beside rfl rfl
    | dict b₁ b₂ => exact .dict (meets_conform a₁ b₁) (meets_conform a₂ b₂)
    | iterable => exact .left rfl rfl (.inl rfl)
    | _ => exact .apart rfl rfl
  | tuple _ as, b => by
    cases b with
    | unknown | any | union => exact .beside rfl rfl
    | tuple _ bs =>
      cases as with
      | nil =>
        cases bs with
        | nil => exact .apart rfl rfl
        | cons _ _ => exact .right rfl rfl (.inl rfl)
      | cons a as =>
        cases bs with
        | nil => exact .left rfl rfl (.inl rfl)
        | cons b bs => exact .tuple (meets_conform a b) (meetsAll_conformAll as bs)
    | iterable => exact .left rfl rfl (.inl rfl)
    | _ => exact .apart rfl rfl
  | schema _ as, b => by
    cases b with
    | unknown | any | union => exact .beside rfl rfl
    | schema _ bs =>
      cases as with
      | nil =>
        cases bs with
        | nil => exact .right rfl rfl (.inr rfl)
        | cons _ _ => exact .right rfl rfl (.inl rfl)
      | cons a as =>
        cases bs with
        | nil => exact .left rfl rfl (.inl rfl)
        | cons b bs => exact .schema (meets_conform a b) (meetsAll_conformAll as bs)
    | _ => exact .apart rfl rfl
  | table _ as, b => by
    cases b with
    | unknown | any | union => exact .beside rfl rfl
    | table => exact .table _ _ _ _
    | iterable => exact .left rfl rfl (.inl rfl)
    | _ => exact .apart rfl rfl
  | func as a, b => by
    cases b with
    | unknown | any | union => exact .beside rfl rfl
    | func bs b => exact .func (meetsAll_conformAll as bs) (meets_conform a b)
    | _ => exact .apart rfl rfl
  | iterable, b => by
    -- Beside itself it is apart, unlike the other types without parts.
    cases b with
    | unknown | any | union => exact .beside rfl rfl
    | string | list | dict | tuple | table => exact .right rfl rfl (.inl rfl)
    | _ => exact .apart rfl rfl
  | literal, b | int, b | bool, b | char, b | none, b | string, b | absent, b | .dangling, b => by
    cases b with
    | unknown | any | union => exact .beside rfl rfl
    | _ => first | exact .left rfl rfl (.inl rfl) | exact .apart rfl rfl

theorem meetsAll_conformAll : ∀ as bs : List (Shape ι), MeetsAll as bs (conformAll as bs)
  | [], bs => .leftEnds bs
  | _ :: _, [] => .rightEnds _
  | a :: as, b :: bs => .cons (meets_conform a b) (meetsAll_conformAll as bs)

end

theorem plain_of_kept (h : b = a ∨ b = fresh a) : b.plain = a.plain := by
  obtain rfl | rfl := h
  · rfl
  · exact plain_fresh a

mutual

theorem Meets.plain : ∀ {a b c : Shape ι}, Meets a b c → c.plain = conform a.plain b.plain
  | _, _, _, .left h _ hc | _, _, _, .right h _ hc => (plain_of_kept hc).trans h.symm
  | _, _, _, .apart h _ => h.symm
  | _, _, _, .list h => congrArg Shape.list h.plain
  | _, _, _, .dict h₁ h₂ => congrArg₂ Shape.dict h₁.plain h₂.plain
  | _, _, _, .union h => congrArg (Shape.union ()) h.plain
  | _, _, _, .tuple h hs => congrArg (Shape.tuple ()) (MeetsAll.cons h hs).plain
  | _, _, _, .schema h hs => congrArg (Shape.schema ()) (MeetsAll.cons h hs).plain
  | _, _, _, .table _ _ _ _ => rfl
  | _, _, _, .func hs h => congrArg₂ Shape.func hs.plain h.plain

theorem MeetsAll.plain : ∀ {as bs cs : List (Shape ι)}, MeetsAll as bs cs →
    mapMarksAll (fun _ => ()) cs =
      conformAll (mapMarksAll (fun _ => ()) as) (mapMarksAll (fun _ => ()) bs)
  | _, _, _, .leftEnds _ => rfl
  | _, _, _, .rightEnds as => by cases as <;> rfl
  | _, _, _, .cons h hs => congrArg₂ List.cons h.plain hs.plain

end

/-- Whether types conform does not depend on where they are. -/
theorem plain_conform (a b : Shape ι) : (conform a b).plain = conform a.plain b.plain :=
  (meets_conform a b).plain

end

theorem plain_unit (a : Ty) : a.plain = a := mapMarks_unit _ a

theorem eq_of_kept {a b : Ty} (h : b = a ∨ b = fresh a) : b = a :=
  h.elim id (·.trans (fresh_eq a))

mutual

theorem Meets.settles : ∀ {a b c : Ty}, Meets a b c → c.isKnown = true →
    (b.isFirm = true → conform c b = c) ∧ (a.isFirm = true → conform a c = c)
  | _, _, _, .left h _ hc, _ => by
    cases eq_of_kept hc
    rw [plain_unit, plain_unit] at h
    exact ⟨fun _ => h, conform_self _⟩
  | _, _, _, .right h _ hc, _ => by
    cases eq_of_kept hc
    rw [plain_unit, plain_unit] at h
    exact ⟨conform_self _, fun _ => h⟩
  | _, _, _, .list h, hknown => by
    have hs := h.settles hknown
    exact ⟨fun hb => congrArg Shape.list (hs.1 hb), fun ha => congrArg Shape.list (hs.2 ha)⟩
  | _, _, _, .dict h₁ h₂, hknown => by
    obtain ⟨hknown₁, hknown₂⟩ := Bool.and_eq_true_iff.mp hknown
    have hs₁ := h₁.settles hknown₁
    have hs₂ := h₂.settles hknown₂
    simp only [isFirm, Bool.and_eq_true]
    exact ⟨fun hb => congrArg₂ Shape.dict (hs₁.1 hb.1) (hs₂.1 hb.2),
      fun ha => congrArg₂ Shape.dict (hs₁.2 ha.1) (hs₂.2 ha.2)⟩
  | _, _, _, .union h, hknown => by
    have hs := h.settles hknown
    exact ⟨fun hb => congrArg (Shape.union ()) (hs.1 hb),
      fun ha => congrArg (Shape.union ()) (hs.2 ha)⟩
  | _, _, _, .tuple h hs, hknown => by
    have hall := (MeetsAll.cons h hs).settles hknown
    exact ⟨fun hb => congrArg (Shape.tuple ()) (hall.1 hb),
      fun ha => congrArg (Shape.tuple ()) (hall.2 ha)⟩
  | _, _, _, .schema h hs, hknown => by
    have hall := (MeetsAll.cons h hs).settles hknown
    exact ⟨fun hb => congrArg (Shape.schema ()) (hall.1 hb),
      fun ha => congrArg (Shape.schema ()) (hall.2 ha)⟩
  | _, _, _, .table _ _ _ _, _ => ⟨fun _ => rfl, fun _ => rfl⟩
  | _, _, _, .func hs h, hknown => by
    obtain ⟨hknown₁, hknown₂⟩ := Bool.and_eq_true_iff.mp hknown
    have hall := hs.settles hknown₁
    have hresult := h.settles hknown₂
    simp only [isFirm, Bool.and_eq_true]
    exact ⟨fun hb => congrArg₂ Shape.func (hall.1 hb.1) (hresult.1 hb.2),
      fun ha => congrArg₂ Shape.func (hall.2 ha.1) (hresult.2 ha.2)⟩

theorem MeetsAll.settles : ∀ {as bs cs : List Ty}, MeetsAll as bs cs → allKnown cs = true →
    (allFirm bs = true → conformAll cs bs = cs) ∧ (allFirm as = true → conformAll as cs = cs)
  | _, _, _, .leftEnds _, _ => ⟨fun _ => rfl, fun _ => rfl⟩
  | _, _, _, .rightEnds as, _ => ⟨fun _ => rfl, fun _ => by cases as <;> rfl⟩
  | _, _, _, .cons h hs, hknown => by
    obtain ⟨hknown₁, hknown₂⟩ := Bool.and_eq_true_iff.mp hknown
    have hfirst := h.settles hknown₁
    have hrest := hs.settles hknown₂
    simp only [allFirm, Bool.and_eq_true]
    exact ⟨fun hb => congrArg₂ List.cons (hfirst.1 hb.1) (hrest.1 hb.2),
      fun ha => congrArg₂ List.cons (hfirst.2 ha.1) (hrest.2 ha.2)⟩

end

variable {a b : Ty}

/-- A type that conforms does so again once it has been merged. -/
theorem isKnown_conform_again (hb : b.isFirm = true) (h : (conform a b).isKnown = true) :
    (conform (conform a b) b).isKnown = true := by
  rwa [((meets_conform a b).settles h).1 hb]

theorem isKnown_conform_again_of_same (h : conform a b = a)
    (hknown : (conform a b).isKnown = true) : (conform (conform a b) b).isKnown = true := by
  rwa [h, h, ← h]

theorem conform_union_of_isKnown (ha : a.isSingle = true) {bs : List Ty}
    (h : (conform a (union () bs)).isKnown = true) : conform a (union () bs) = a := by
  rw [conform_union ha] at h ⊢
  split at h
  · next hmem => rw [if_pos hmem, fresh_eq]
  · cases h

mutual

theorem isFirm_mapMarks (f : ι → κ) (a : Shape ι) : (a.mapMarks f).isFirm = a.isFirm := by
  cases a with
  | list a => exact isFirm_mapMarks f a
  | dict a b => simp only [mapMarks, isFirm, isFirm_mapMarks f a, isFirm_mapMarks f b]
  | union _ as | schema _ as => exact allFirm_mapMarksAll f as
  | tuple _ as =>
    cases as with
    | nil => rfl
    | cons a as => exact allFirm_mapMarksAll f (a :: as)
  | func as a => simp only [mapMarks, isFirm, allFirm_mapMarksAll f as, isFirm_mapMarks f a]
  | _ => rfl

theorem allFirm_mapMarksAll (f : ι → κ) :
    ∀ as : List (Shape ι), allFirm (mapMarksAll f as) = allFirm as
  | [] => rfl
  | a :: as => by
    simp only [mapMarksAll, allFirm, isFirm_mapMarks f a, allFirm_mapMarksAll f as]

end

/-- Are the parts of a list type or of a dictionary type firm? -/
def hasFirmParts : Shape ι → Bool
  | list a => isFirm a
  | dict a b => isFirm a && isFirm b
  | _ => true

theorem hasFirmParts_plain (a : Shape ι) : a.plain.hasFirmParts = a.hasFirmParts := by
  cases a with
  | list a => exact isFirm_mapMarks _ a
  | dict a b => exact congrArg₂ and (isFirm_mapMarks _ a) (isFirm_mapMarks _ b)
  | _ => rfl

theorem isKnown_conform_again_of_parts (ha : (∃ x, a = list x) ∨ ∃ x y, a = dict x y)
    (hb : b.hasFirmParts = true) (h : (conform a b).isKnown = true) :
    (conform (conform a b) b).isKnown = true := by
  rcases ha with ⟨x, rfl⟩ | ⟨x, y, rfl⟩ <;> cases b with
  | union _ bs => exact isKnown_conform_again_of_same (conform_union_of_isKnown rfl h) h
  | iterable => exact isKnown_conform_again_of_same rfl h
  | list | dict => first | cases h | exact isKnown_conform_again hb h
  | unknown | any => exact isKnown_conform_again rfl h
  | _ => cases h

/-! ## Types that are there -/

/-- Is it a type, and is every member if it is a union? -/
def isPresent : Shape ι → Bool
  | absent => false
  | union _ as => !as.any (same absent)
  | _ => true

theorem isPresent_plain (a : Shape ι) : a.plain.isPresent = a.isPresent := by
  cases a with
  | union _ as => exact congrArg not (any_same_plain absent as)
  | _ => rfl

theorem ite_fresh_ne_absent {c : Prop} [Decidable c] (ha : a ≠ absent) :
    (if c then fresh a else unknown) ≠ absent := by
  split
  · rwa [fresh_eq]
  · exact nofun

theorem conform_ne_absent (hb : b.isPresent = true) (hany : b ≠ any) (hunknown : b ≠ unknown) :
    conform a b ≠ absent := by
  cases b with
  | any => exact absurd rfl hany
  | unknown => exact absurd rfl hunknown
  | absent => cases hb
  | union _ bs =>
    cases a with
    | any | unknown | union => exact nofun
    | absent =>
      rw [conform_union rfl, if_neg (by simpa [isPresent] using hb)]
      exact nofun
    | _ => exact ite_fresh_ne_absent nofun
  | tuple _ bs =>
    cases a with
    | union => exact ite_fresh_ne_absent nofun
    | tuple _ as => cases as <;> cases bs <;> exact nofun
    | _ => exact nofun
  | schema _ bs =>
    cases a with
    | union => exact ite_fresh_ne_absent nofun
    | schema _ as => cases as <;> cases bs <;> exact nofun
    | _ => exact nofun
  | _ =>
    cases a with
    | union => exact ite_fresh_ne_absent nofun
    | _ => exact nofun

theorem tuple_conform_ne_absent [Inhabited ι] (mark : ι) (as : List (Shape ι)) (b : Shape ι) :
    conform (tuple mark as) b ≠ absent := by
  cases b with
  | union _ bs =>
    rw [conform_union rfl]
    split <;> exact nofun
  | tuple _ bs => cases as <;> cases bs <;> exact nofun
  | _ => exact nofun

end TableScript.Shape
