import TableScript.Proofs.Extension

/-!
# Which types go together

`TypeStore.Conforms` says that a value of one type may stand where another type is expected, and
`TypeStore.Fits` that it has a type there. The checks of a running program find out exactly this
(`exec_conforms_of_fits`, `conforms_of_exec`), and change nothing. Both stay true when things are
added to the store.
-/

namespace TableScript

/-- Is it an entry of a dictionary by itself? -/
def Content.isEntry : Content → Bool
  | .entry _ _ => true
  | _ => false

namespace TypeStore

/-- The type that a value of type `found` has where `expected` is expected, if both types end. -/
def conform? (s : TypeStore) (found expected : TypeRef) : Option PlacedType :=
  if s.ends found && s.ends expected then (s.read found).conform? (s.read expected) else none

/-- A value of type `found` may stand where `expected` is expected. -/
def Conforms (s : TypeStore) (found expected : TypeRef) : Prop :=
  ∃ t, s.conform? found expected = some t

/-- A value of type `found` has a type where `expected` is expected. -/
def Fits (s : TypeStore) (found expected : TypeRef) : Prop :=
  ∃ t, s.conform? found expected = some t ∧ t ≠ .absent

/-- Is no type there? -/
def isAbsent : PlacedType → Bool
  | .absent => true
  | _ => false

instance (t : PlacedType) : Decidable (t ≠ .absent) :=
  decidable_of_iff (isAbsent t = false) <| by cases t <;> simp [isAbsent]

instance (s : TypeStore) (found expected : TypeRef) : Decidable (s.Fits found expected) :=
  inferInstanceAs (Decidable (∃ t ∈ s.conform? found expected, t ≠ .absent))

variable {expected found : TypeRef} {s s' : TypeStore}

theorem Fits.conforms (h : s.Fits found expected) : s.Conforms found expected :=
  h.imp fun _ ht => ht.1

theorem conform?_eq_some {t : PlacedType} :
    s.conform? found expected = some t ↔
      s.ends found = true ∧ s.ends expected = true ∧
        (s.read found).conform? (s.read expected) = some t := by
  rw [conform?]
  split
  · next h =>
    rw [Bool.and_eq_true] at h
    simp [h.1, h.2]
  · next h =>
    rw [Bool.and_eq_true] at h
    constructor
    · intro ht
      cases ht
    · rintro ⟨hfound, hexpected, -⟩
      exact absurd ⟨hfound, hexpected⟩ h

theorem Extends.conform? (h : s.Extends s') {t : PlacedType}
    (ht : s.conform? found expected = some t) : s'.conform? found expected = some t := by
  rw [conform?_eq_some] at ht ⊢
  obtain ⟨hfound, hexpected, hconform⟩ := ht
  refine ⟨h.ends hfound, h.ends hexpected, ?_⟩
  rw [h.read_eq hfound, h.read_eq hexpected, hconform]

theorem Extends.conforms (h : s.Extends s') (hc : s.Conforms found expected) :
    s'.Conforms found expected :=
  hc.imp fun _ ht => h.conform? ht

theorem Extends.fits (h : s.Extends s') (hf : s.Fits found expected) :
    s'.Fits found expected :=
  hf.imp fun _ ht => ⟨h.conform? ht.1, ht.2⟩

end TypeStore

namespace EvalM

variable {α : Type}

theorem exec_readType (t : TypeRef) (m : Machine) :
    (readType t).exec m =
      if m.store.types.ends t = true then (.ok (m.store.types.read t), m)
      else (.error (.fault .tooDeep), m) := by
  rw [readType, exec_bind_store]
  dsimp only
  split <;> rfl

variable {m m' : Machine} {mismatch : String → EvalM Unit}

theorem exec_readType_ok {t : TypeRef} {a : PlacedType} (h : (readType t).exec m = (.ok a, m')) :
    m.store.types.ends t = true ∧ a = m.store.types.read t ∧ m' = m := by
  rw [exec_readType] at h
  split at h
  · next hends =>
    cases h
    exact ⟨hends, rfl, rfl⟩
  · cases h

theorem exec_checkWith_ok (hmismatch : ∀ text m u m', (mismatch text).exec m ≠ (.ok u, m'))
    {found expected : PlacedType} {r : Option PlacedType}
    (h : (checkWith mismatch found expected).exec m = (.ok r, m')) :
    m' = m ∧ ∃ t, found.conform? expected = some t ∧ (t = .absent ∧ r = none ∨
      t ≠ .absent ∧ r = some t) := by
  rw [checkWith] at h
  split at h
  · next hc =>
    cases h
    exact ⟨rfl, _, hc, .inl ⟨rfl, rfl⟩⟩
  · next t hne hc =>
    cases h
    exact ⟨rfl, _, hc, .inr ⟨fun h => hne (h ▸ rfl), rfl⟩⟩
  · obtain ⟨text, m₁, htext, h⟩ := exec_bind_ok h
    obtain ⟨u, m₂, hreport, h⟩ := exec_bind_ok h
    exact absurd hreport (hmismatch _ _ _ _)

theorem exec_checkWith_of {found expected t : PlacedType} (hc : found.conform? expected = some t)
    (ht : t ≠ .absent) (m : Machine) :
    (checkWith mismatch found expected).exec m = (.ok (some t), m) := by
  rw [checkWith, hc]
  cases t <;> first | rfl | exact absurd rfl ht

variable {position : Option Position} {found expected : TypeRef} {m m' : Machine}

theorem exec_check_ok {r : Option PlacedType}
    (h : (check position found expected).exec m = (.ok r, m')) :
    m' = m ∧ ∃ t, m.store.types.conform? found expected = some t ∧
      (t = .absent ∧ r = none ∨ t ≠ .absent ∧ r = some t) := by
  obtain ⟨a, m₁, hfound, h⟩ := exec_bind_ok h
  obtain ⟨hendsFound, rfl, rfl⟩ := exec_readType_ok hfound
  obtain ⟨b, m₂, hexpected, h⟩ := exec_bind_ok h
  obtain ⟨hendsExpected, rfl, rfl⟩ := exec_readType_ok hexpected
  obtain ⟨hm, t, ht, hr⟩ := exec_checkWith_ok (fun _ _ _ _ => report_ne_ok) h
  exact ⟨hm, t, TypeStore.conform?_eq_some.mpr ⟨hendsFound, hendsExpected, ht⟩, hr⟩

theorem exec_conforms_ok {b : Bool} (h : (conforms position found expected).exec m = (.ok b, m')) :
    m' = m ∧ (b = true → m.store.types.Fits found expected) ∧
      (b = false → m.store.types.conform? found expected = some .absent) := by
  obtain ⟨r, m₁, hcheck, h⟩ := exec_bind_ok h
  cases h
  obtain ⟨hm, t, ht, ⟨rfl, rfl⟩ | ⟨habsent, rfl⟩⟩ := exec_check_ok hcheck
  · exact ⟨hm, fun h => absurd h (by simp), fun _ => ht⟩
  · exact ⟨hm, fun _ => ⟨t, ht, habsent⟩, fun h => absurd h (by simp)⟩

/-- The check passes on types that fit. -/
theorem exec_conforms_of_fits (h : m.store.types.Fits found expected) :
    (conforms position found expected).exec m = (.ok true, m) := by
  obtain ⟨t, ht, habsent⟩ := h
  obtain ⟨hfound, hexpected, hc⟩ := TypeStore.conform?_eq_some.mp ht
  have hreadFound : (readType found).exec m = (.ok (m.store.types.read found), m) := by
    rw [exec_readType, if_pos hfound]
  have hreadExpected : (readType expected).exec m = (.ok (m.store.types.read expected), m) := by
    rw [exec_readType, if_pos hexpected]
  have hcheck : (check position found expected).exec m = (.ok (some t), m) := by
    rw [check, exec_bind_of hreadFound, exec_bind_of hreadExpected, exec_checkWith_of hc habsent]
  rw [conforms, exec_bind_of hcheck]
  rfl

theorem exec_typeOf (r : Ref) (m : Machine) :
    (typeOf r).exec m =
      if (m.store.content r).isEntry = true then (.error (.fault (.entry .type)), m)
      else (.ok (m.store.object r).type, m) := by
  rw [typeOf, exec_bind_object, Store.content]
  cases (m.store.object r).content <;> rfl

theorem exec_typeOf_ok {r : Ref} {t : TypeRef} (h : (typeOf r).exec m = (.ok t, m')) :
    (m.store.content r).isEntry = false ∧ t = (m.store.object r).type ∧ m' = m := by
  rw [exec_typeOf] at h
  split at h
  · cases h
  · next hentry =>
    cases h
    exact ⟨Bool.eq_false_iff.mpr hentry, rfl, rfl⟩

end EvalM

end TableScript
