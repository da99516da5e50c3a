import TableScript.Proofs.Extension
import TableScript.Proofs.MixedElements

/-!
# Properties that steps have if their parts have them

A `Congruence` is a relation between steps of a run that holds of two steps if it holds of the parts
that they are made of. What such a relation has to be shown for are the smallest steps; every
operator, built-in function and form of expression then follows by a walk over its definition, once
for all congruences.

* `K.Together x y`: the congruence holds of the steps `x` and `y`.
* `K.Steady x`: it holds of a step beside itself, as it does of a step that evaluates nothing.
-/

namespace TableScript.EvalM

/-- Reads a file and goes on with its text. Whatever halts the run then is reported. -/
def readingFile (position : Position) (name : String) (rest : String → EvalM Ref) :
    EvalM Ref := do
  let path := Primitive.csvPath (← get).confinement name
  tryCatch (do rest (← ofExcept ((← get).disk.read path)))
    (Primitive.readFailure (some position) name path)

/-- Writes a file, unless the run is confined. -/
def writingFile (position : Option Position) (name : String) (lines : List (List Csv.Item)) :
    EvalM Ref := do
  if (← get).confinement.isSome then
    report (Primitive.writeFailure name "'writeCsv' builtin is disabled in server mode") position
  else
    let (text, outcome) := Csv.write lines
    match (← get).disk.write (Primitive.csvPath none name) text with
    | .ok disk =>
      modify fun m => { m with disk }
      match outcome with
      | .ok () => newBool true
      | .error f => report (Primitive.writeFailure name f.message) position
    | .error f => report (Primitive.writeFailure name f.message) position

/-- A relation between steps that is passed on from the parts of steps to the steps. -/
structure Congruence where
  Holds {α : Type} : EvalM α → EvalM α → Prop
  /-- The names that steps may bind in the scope that they are made in. -/
  Binds : String → Prop
  /-- Does it matter what is done in a scope of its own? -/
  Inside : Prop
  /-- May steps change what is in the store already? -/
  Edits : Prop
  /-- May steps check the elements of collections, where a mismatch is a fault? -/
  Elements : Prop
  holds_pure {α : Type} (a : α) : Holds (pure a) (pure a)
  holds_bind {α β : Type} {x y : EvalM α} {f g : α → EvalM β} :
    Holds x y → (∀ a, Holds (f a) (g a)) → Holds (x >>= f) (y >>= g)
  holds_fault {α : Type} {f : Fault} : f ≠ .mixedElements →
    Holds (fault f : EvalM α) (fault f)
  holds_report {α : Type} (text : String) (position : Option Position) :
    Holds (report text position : EvalM α) (report text position)
  /-- A look at the machine that does not see the disk. -/
  holds_get {β : Type} {f g : Machine → EvalM β} : (∀ m disk, g { m with disk } = g m) →
    (∀ m, Holds (f m) (g m)) → Holds (get >>= f) (get >>= g)
  holds_make {α : Type} {f : Store → α × Store} :
    (Edits ∨ ∀ s, Store.Extends s (f s).2) → Holds (make f) (make f)
  /-- A step on what is neither a value nor a file. -/
  holds_aside {α : Type} {f : Machine → α × Machine} :
    (∀ m disk, f { m with disk } = ((f m).1, { (f m).2 with disk })) →
    (∀ m, ∃ console input random aliases,
      (f m).2 = { m with console, input, random, scope := { m.scope with aliases } }) →
    Holds (modifyGet f) (modifyGet f)
  holds_bindName {name : String} : Binds name → ∀ r, Holds (bindName name r) (bindName name r)
  holds_inScope {α : Type} {x y : EvalM α} (scope : Scope Ref TypeRef) :
    (Inside → Holds x y) → Holds (inScope scope x) (inScope scope y)
  holds_inCall {α : Type} {x y : EvalM α} (position : Position) : Holds x y →
    Holds (inCall position x) (inCall position y)
  holds_check (position : Option Position) (found expected : PlacedType) :
    Holds (checkWith (report · position) found expected)
      (checkWith (report · position) found expected)
  holds_checkElements : Elements → ∀ found expected,
    Holds (checkElements found expected) (checkElements found expected)
  holds_readingFile {rest : String → EvalM Ref} (position : Position) (name : String) :
    Inside → Edits → (∀ file, Holds (rest file) (rest file)) →
    Holds (readingFile position name rest) (readingFile position name rest)
  holds_writingFile (position : Option Position) (name : String) (lines : List (List Csv.Item)) :
    Inside → Edits → Holds (writingFile position name lines) (writingFile position name lines)

namespace Congruence

variable {α β : Type}

/-- The congruence holds of two steps. -/
def Together (K : Congruence) (x y : EvalM α) : Prop :=
  K.Holds x y

/-- The congruence holds of a step beside itself. -/
def Steady (K : Congruence) (x : EvalM α) : Prop :=
  K.Holds x x

variable {K : Congruence}

namespace Together

variable {x y : EvalM α} {f g : α → EvalM β}

theorem bind (hx : K.Together x y) (hf : ∀ a, K.Together (f a) (g a)) :
    K.Together (x >>= f) (y >>= g) :=
  K.holds_bind hx hf

theorem get {f g : Machine → EvalM β} (hg : ∀ m disk, g { m with disk } = g m)
    (h : ∀ m, K.Together (f m) (g m)) : K.Together (get >>= f) (get >>= g) :=
  K.holds_get hg h

theorem ite (c : Prop) [Decidable c] {x' y' : EvalM α} (hx : K.Together x y)
    (hx' : K.Together x' y') : K.Together (if c then x else x') (if c then y else y') := by
  split
  · exact hx
  · exact hx'

theorem inScope (scope : Scope Ref TypeRef) (h : K.Inside → K.Together x y) :
    K.Together (inScope scope x) (inScope scope y) :=
  K.holds_inScope scope h

theorem inCall (position : Position) (h : K.Together x y) :
    K.Together (inCall position x) (inCall position y) :=
  K.holds_inCall position h

end Together

namespace Steady

variable {x : EvalM α} {f : α → EvalM β}

theorem bind (hx : K.Steady x) (hf : ∀ a, K.Steady (f a)) : K.Steady (x >>= f) :=
  K.holds_bind hx hf

theorem get {f : Machine → EvalM β} (hf : ∀ m disk, f { m with disk } = f m)
    (h : ∀ m, K.Steady (f m)) : K.Steady (get >>= f) :=
  K.holds_get hf h

theorem pure (a : α) : K.Steady (pure a) :=
  K.holds_pure a

theorem fault (f : Fault) (hf : (f == .mixedElements) = false) : K.Steady (fault f : EvalM α) :=
  K.holds_fault (by simpa using hf)

theorem report (text : String) (position : Option Position) :
    K.Steady (report text position : EvalM α) :=
  K.holds_report text position

theorem make {f : Store → α × Store} (h : ∀ s, Store.Extends s (f s).2) : K.Steady (make f) :=
  K.holds_make (.inr h)

theorem makeType {f : TypeStore → α × TypeStore} (h : ∀ s, TypeStore.Extends s (f s).2) :
    K.Steady (makeType f) :=
  make fun s => Store.extends_of_types (h s.types)

theorem edit (h : K.Edits) (f : Store → α × Store) : K.Steady (EvalM.make f) :=
  K.holds_make (.inl h)

theorem change (h : K.Edits) (f : Store → Store) : K.Steady (change f) :=
  edit h _

theorem look (f : Machine → α) (hf : ∀ m disk, f { m with disk } = f m) :
    K.Steady (do return f (← MonadState.get)) :=
  get (fun m disk => congrArg Pure.pure (hf m disk)) fun _ => pure _

theorem store : K.Steady store :=
  look _ fun _ _ => rfl

theorem object (r : Ref) : K.Steady (object r) :=
  look (fun m => m.store.object r) fun _ _ => rfl

theorem content (r : Ref) : K.Steady (content r) :=
  look (fun m => m.store.content r) fun _ _ => rfl

theorem sequence (place : Nat) : K.Steady (sequence place) :=
  look (fun m => m.store.sequence place) fun _ _ => rfl

theorem element? (place index : Nat) : K.Steady (element? place index) :=
  look (fun m => m.store.element? place index) fun _ _ => rfl

theorem aside {f : Machine → α × Machine}
    (hdisk : ∀ m disk, f { m with disk } = ((f m).1, { (f m).2 with disk }))
    (hf : ∀ m, ∃ console input random aliases,
      (f m).2 = { m with console, input, random, scope := { m.scope with aliases } }) :
    K.Steady (modifyGet f) :=
  K.holds_aside hdisk hf

theorem print (text : String) : K.Steady (print text) :=
  aside (fun _ _ => rfl) fun _ => ⟨_, _, _, _, rfl⟩

theorem printCodes (codes : List Nat) : K.Steady (printCodes codes) :=
  aside (fun _ _ => rfl) fun _ => ⟨_, _, _, _, rfl⟩

theorem bindName {name : String} (h : K.Binds name) (r : Ref) : K.Steady (bindName name r) :=
  K.holds_bindName h r

theorem ofExcept {r : Except Fault α} (h : Unmixed r) : K.Steady (ofExcept r) := by
  cases r with
  | error f => exact fault f (beq_eq_false_iff_ne.mpr fun hf => h (congrArg _ hf))
  | ok a => exact pure a

theorem option {k : Option α → EvalM β} (hsome : ∀ a, K.Steady (k (some a)))
    (hnone : K.Steady (k none)) (o : Option α) : K.Steady (k o) := by
  cases o with
  | some a => exact hsome a
  | none => exact hnone

theorem map (hx : K.Steady x) (f : α → β) : K.Steady (f <$> x) := by
  rw [← bind_pure_comp]
  exact hx.bind fun a => pure (f a)

end Steady

/-! ## Steps over lists -/

theorem Together.mapM {f g : α → EvalM β} {l : List α}
    (h : ∀ a ∈ l, K.Together (f a) (g a)) :
    K.Together (l.mapM f) (l.mapM g) := by
  induction l with
  | nil => exact Steady.pure []
  | cons a l ih =>
    obtain ⟨ha, hl⟩ := List.forall_mem_cons.mp h
    rw [List.mapM_cons, List.mapM_cons]
    exact .bind ha fun b => .bind (ih hl) fun bs => Steady.pure (b :: bs)

theorem Together.foldlM {f g : β → α → EvalM β} (h : ∀ b a, K.Together (f b a) (g b a))
    (l : List α) (b : β) : K.Together (l.foldlM f b) (l.foldlM g b) := by
  induction l generalizing b with
  | nil => exact Steady.pure b
  | cons a l ih =>
    rw [List.foldlM_cons, List.foldlM_cons]
    exact .bind (h b a) ih

theorem Together.visitFrom {f g : Ref → EvalM α} (h : ∀ r, K.Together (f r) (g r))
    (place room index : Nat) (done : Array α) :
    K.Together (visitFrom place f room index done) (visitFrom place g room index done) := by
  induction room generalizing index done with
  | zero => exact Steady.fault _ rfl
  | succ room ih =>
    refine .bind (Steady.element? place index) fun r => ?_
    cases r with
    | none => exact Steady.pure done
    | some r => exact .bind (h r) fun a => ih _ _

theorem Together.visit {f g : Ref → EvalM α} (h : ∀ r, K.Together (f r) (g r)) (place : Nat) :
    K.Together (visit place f) (visit place g) :=
  .bind (Steady.sequence place) fun _ =>
    .bind (.visitFrom h place _ _ _) fun done => Steady.pure done.toList

namespace Steady

theorem mapM {f : α → EvalM β} (h : ∀ a, K.Steady (f a)) (l : List α) :
    K.Steady (l.mapM f) :=
  Together.mapM fun a _ => h a

theorem filterMapM {f : α → EvalM (Option β)} (h : ∀ a, K.Steady (f a)) (l : List α) :
    K.Steady (l.filterMapM f) := by
  rw [filterMapM_eq_map]
  exact (mapM h l).map _

theorem forM {f : α → EvalM PUnit} {l : List α} (h : ∀ a ∈ l, K.Steady (f a)) :
    K.Steady (l.forM f) := by
  induction l with
  | nil => exact pure ()
  | cons a l ih =>
    obtain ⟨ha, hl⟩ := List.forall_mem_cons.mp h
    exact ha.bind fun _ => ih hl

/-! ## Objects and types -/

variable (refs : List Ref) (s : String) (position : Option Position) (r : Ref)

theorem typeOf : K.Steady (typeOf r) := by
  refine bind (object r) fun o => ?_
  split
  · exact fault _ rfl
  · exact pure _

theorem new (type : TypeRef) (content : Content) : K.Steady (new type content) :=
  make fun s => s.extends_add _

theorem newInt (n : Int) : K.Steady (newInt n) := new _ _

theorem newBool (b : Bool) : K.Steady (newBool b) := new _ _

theorem newChar : K.Steady (newChar s) := new _ _

theorem newString : K.Steady (newString s) := new _ _

theorem newNone : K.Steady newNone := new _ _

theorem addSequence : K.Steady (EvalM.make (·.addSequence refs)) :=
  make fun s => s.extends_addSequence refs

theorem copyAll : K.Steady (EvalM.make (·.copyAll refs)) :=
  make fun s => s.extends_addRegion _

theorem addTuple (types : List TypeRef) : K.Steady (EvalM.makeType (·.addTuple types)) :=
  makeType fun s => s.extends_addTuple types

theorem newList (type : TypeRef) (elements : List Ref) : K.Steady (newList type elements) :=
  bind (addSequence _) fun _ => new _ _

theorem newTuple (type : TypeRef) (elements : List Ref) : K.Steady (newTuple type elements) :=
  bind (addSequence _) fun _ => new _ _

theorem checkSize (size : Nat) : K.Steady (checkSize size) := by
  unfold EvalM.checkSize
  split
  · exact fault _ rfl
  · split
    · exact fault _ rfl
    · exact pure _

theorem same (a b : Ref) : K.Steady (same a b) :=
  bind store fun _ => pure _

theorem text : K.Steady (text r) :=
  bind store fun s => ofExcept (s.unmixed_text r)

theorem readType (t : TypeRef) : K.Steady (readType t) := by
  refine bind store fun s => ?_
  dsimp only
  split
  · exact pure _
  · exact fault _ rfl

theorem typeText (t : TypeRef) : K.Steady (typeText t) :=
  bind (readType t) fun a => ofExcept a.unmixed_text

theorem intern (h : K.Edits) (t : PlacedType) : K.Steady (intern t) := by
  unfold EvalM.intern EvalM.makeType
  exact edit h _

theorem check (found expected : TypeRef) : K.Steady (check position found expected) :=
  bind (readType found) fun a => bind (readType expected) fun b =>
    K.holds_check position a b

theorem conforms (found expected : TypeRef) : K.Steady (conforms position found expected) :=
  bind (check position found expected) fun _ => pure _

theorem checkElements (h : K.Elements) (found expected : PlacedType) :
    K.Steady (checkElements found expected) :=
  K.holds_checkElements h found expected

theorem fits (found expected : TypeRef) : K.Steady (fits found expected) := by
  refine bind (readType found) fun a => bind (readType expected) fun b => ?_
  split <;> exact pure _

/-! ## Names and collections -/

theorem lookup (word label : String) (position : Option Position) :
    K.Steady (lookup word label position) := by
  refine get (fun _ _ => rfl) fun m => ?_
  split
  · exact pure _
  · exact report _ _

theorem elements (name : String) (r : Ref) (position : Option Position) :
    K.Steady (elements name r position) := by
  refine bind (object r) fun o => ?_
  split
  · exact bind (mapM (fun c => newChar _) _) addSequence
  · exact pure _
  · exact pure _
  · exact bind (mapM (fun e => new _ _) _) addSequence
  · exact pure _
  · exact bind (typeText _) fun _ => report _ _

theorem elementType : K.Steady (elementType r) := by
  refine bind (object r) fun o => ?_
  split
  · exact pure _
  · exact pure _
  · exact bind store fun _ => pure _
  · exact addTuple _
  · exact pure _
  · exact pure _

end Steady

end Congruence

end TableScript.EvalM
