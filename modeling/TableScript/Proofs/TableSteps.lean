import TableScript.Proofs.SteadyBuiltins

/-!
# Steps on tables

What the built-in functions on tables do to the store. Looking things up changes nothing. Making,
selecting and counting only add to it: that a step only adds is a congruence (`adding`), and
everything that needs no changes follows it.
-/

namespace TableScript.Primitive

open EvalM

section

variable {R : Store → Store → Prop} [Std.Refl R] [Trans R R R]

theorem moves_cellsConform (position : Option Position) (cells : List Ref)
    (columns : List (String × TypeRef)) : (cellsConform position cells columns).Moves R := by
  induction cells generalizing columns with
  | nil => exact .pure true
  | cons cell cells ih =>
    cases columns with
    | nil => exact .pure true
    | cons column columns =>
      refine .bind (.typeOf cell) fun type => ?_
      refine .bind (.conforms position type column.2) fun fits => ?_
      cases fits with
      | false => exact .pure false
      | true => exact ih columns

theorem moves_textContent? (r : Ref) : (textContent? r).Moves R := by
  refine .bind (.content r) fun c => ?_
  cases c <;> first | exact .pure _ | exact .fault _

theorem moves_columnNames (place : Nat) : (columnNames place).Moves R :=
  .bind (.sequence place) fun _ => .mapM moves_textContent?

theorem moves_holds (query : String) (position : Option Position) (cells : List (String × Ref)) :
    (holds query position cells).Moves R := by
  refine .bind .store fun s => .bind (.ofExcept _) fun answer => ?_
  cases answer with
  | holds b => exact .pure _
  | fails e => exact .report _ _

end

/-! ## Making tables -/

theorem moves_newMembers (types : List TypeRef) : (newMembers types).Moves Store.Extends :=
  moves_makeType fun s => s.extends_addList types

theorem moves_newRowType (members : Nat) : (newRowType members).Moves Store.Extends :=
  moves_makeType fun s => s.extends_addCell members

theorem moves_newSchema (members : Nat) (columns : List (String × TypeRef)) :
    (newSchema members columns).Moves Store.Extends :=
  .bind (moves_make fun s => s.extends_addColumns columns) fun _ => moves_new _ _

theorem moves_newTable (members : Nat) (schema : Ref) (rows : List Ref) :
    (newTable members schema rows).Moves Store.Extends :=
  .bind (moves_make fun s => s.extends_addSequence rows) fun _ => moves_new _ _

/-- A step only adds to the store if its parts do. -/
def adding : Congruence where
  Holds x _ := x.Moves Store.Extends
  Binds _ := True
  Inside := True
  Edits := False
  Elements := True
  holds_pure := .pure
  holds_bind := .bind
  holds_fault _ := .fault _
  holds_report := .report
  holds_get _ h := .bind .get h
  holds_make h := moves_make (h.resolve_left id)
  holds_aside := by
    intro α f _ hf m
    obtain ⟨console, input, random, aliases, h⟩ := hf m
    rw [show ((modifyGet f : EvalM α).exec m).2 = (f m).2 from rfl, h]
    exact .refl _
  holds_bindName _ _ := fun _ => .refl _
  holds_inScope scope h := fun m => h trivial { m with scope }
  holds_inCall position h := by
    intro m
    rw [exec_inCall]
    have h := h { m with trace := position :: m.trace }
    generalize EvalM.exec _ { m with trace := position :: m.trace } = outcome at h ⊢
    obtain ⟨_ | a, m'⟩ := outcome <;> exact h
  holds_check position := .checkWith fun text => .report text position
  holds_checkElements _ := .checkWith fun _ => .fault _
  holds_readingFile _ _ _ h := h.elim
  holds_writingFile _ _ _ _ h := h.elim

end TableScript.Primitive
