import TableScript.Eval

/-!
# The fault of mixed elements

Elements of a list or of a dictionary whose types do not go together are a fault of their own. No
text, no query and no file gives it: `Unmixed` is passed on from the parts of a computation to the
whole.
-/

namespace TableScript

/-- A computation does not fail because of elements of different types. -/
def Unmixed {α : Type} (x : Except Fault α) : Prop :=
  x ≠ .error .mixedElements

namespace Unmixed

variable {α β : Type}

theorem ok (a : α) : Unmixed (.ok a) := by simp [Unmixed]

theorem error {f : Fault} (hf : (f == .mixedElements) = false) :
    Unmixed (.error f : Except Fault α) := by
  simpa [Unmixed] using hf

theorem bind {x : Except Fault α} {f : α → Except Fault β} (hx : Unmixed x)
    (hf : ∀ a, Unmixed (f a)) : Unmixed (x >>= f) := by
  cases x with
  | error e => exact fun h => hx (by injection h with h; rw [h])
  | ok a => exact hf a

theorem ite (c : Prop) [Decidable c] {x y : Except Fault α} (hx : Unmixed x) (hy : Unmixed y) :
    Unmixed (if c then x else y) := by
  split
  · exact hx
  · exact hy

theorem mapM {f : α → Except Fault β} (hf : ∀ a, Unmixed (f a)) (l : List α) :
    Unmixed (l.mapM f) := by
  induction l with
  | nil => exact .ok []
  | cons a l ih =>
    rw [List.mapM_cons]
    exact (hf a).bind fun b => ih.bind fun bs => .ok (b :: bs)

end Unmixed

section

variable {ι : Type}

mutual

theorem Shape.unmixed_text : ∀ a : Shape ι, Unmixed a.text
  | .list a => (unmixed_text a).bind fun _ => .ok _
  | .dict a b => (unmixed_text a).bind fun _ => (unmixed_text b).bind fun _ => .ok _
  | .union _ as | .tuple _ as | .schema _ as | .table _ as => (unmixed_texts as).bind fun _ => .ok _
  | .func as a =>
    (unmixed_texts as).bind fun _ => .ite _ (.error rfl)
      ((unmixed_text a).bind fun _ => .ok _)
  | .any | .unknown | .literal | .iterable | .int | .bool | .char | .none | .string => .ok _
  | .absent | .dangling => .error rfl

theorem Shape.unmixed_texts : ∀ as : List (Shape ι), Unmixed (Shape.texts as)
  | [] => .ok _
  | a :: as => (unmixed_text a).bind fun _ => (unmixed_texts as).bind fun _ => .ok _

end

theorem Shape.unmixed_mismatch (a b : Shape ι) : Unmixed (a.mismatch b) :=
  a.unmixed_text.bind fun _ => b.unmixed_text.bind fun _ => .ok _

end

theorem Grid.unmixed_text (g : Grid) : Unmixed g.text := by
  have hline : ∀ widths row, Unmixed (line widths row) :=
    fun _ _ => .ite _ (.error rfl) (.ok _)
  refine .bind (.mapM (fun column => .bind (.mapM (fun row => ?_) _) fun _ => .ok _) _)
      fun widths =>
    (hline _ _).bind fun _ => (hline _ _).bind fun _ => .bind (.mapM (hline _) _) fun _ => .ok _
  cases row[column]? with
  | some s => exact .ok s
  | none => exact .error rfl

theorem unmixed_joinTexts (texts : List String) : Unmixed (joinTexts texts) :=
  .ite _ (.error rfl) (.ok _)

theorem unmixed_columnTexts (columns : List (String × Ty)) : Unmixed (columnTexts columns) :=
  .mapM (fun c => c.2.unmixed_text.bind fun _ => .ok _) _

namespace Store

theorem unmixed_endingColumns (s : Store) (columns : List (String × TypeRef)) :
    Unmixed (s.endingColumns columns) :=
  .mapM (fun _ => .bind (.ite _ (.ok _) (.error rfl)) fun _ => .ok _) _

theorem unmixed_textWith (s : Store) {text : Ref → Except Fault String}
    (h : ∀ r, Unmixed (text r)) (o : Object) : Unmixed (s.textWith text o) := by
  unfold textWith
  cases o.content with
  | int n =>
    dsimp only [intText]
    cases Text.numeralOf? n with
    | some t => exact .ok t
    | none => exact .error rfl
  | list place => exact .bind (.mapM h _) fun _ => (unmixed_joinTexts _).bind fun _ => .ok _
  | tuple place => exact .bind (.mapM h _) fun _ => (unmixed_joinTexts _).bind fun _ => .ok _
  | dict entries =>
    exact .bind (.mapM (fun e : Ref × Ref => (h e.1).bind fun _ => (h e.2).bind fun _ => .ok _) _)
      fun _ => (unmixed_joinTexts _).bind fun _ => .ok _
  | schema place =>
    exact .bind (unmixed_endingColumns _ _) fun _ => (unmixed_columnTexts _).bind fun _ =>
      (unmixed_joinTexts _).bind fun _ => .ok _
  | table schema rows =>
    refine .bind (unmixed_endingColumns _ _) fun _ => .bind (.mapM (fun c => c.2.unmixed_text) _)
      fun _ => .bind (.mapM (fun row => ?_) _) fun _ => Grid.unmixed_text _
    split
    · exact .mapM h _
    · exact .ok _
  | func c =>
    refine .bind (.ite _ (.ok _) (.error rfl)) fun t =>
      .bind (unmixed_endingColumns _ _) fun _ => ?_
    dsimp only [funcText]
    split
    · exact (Shape.unmixed_text _).bind fun _ => (unmixed_columnTexts _).bind fun _ => .ok _
    · exact .bind (.ok _) fun _ => (unmixed_columnTexts _).bind fun _ => .ok _
  | entry _ _ => exact .error rfl
  | _ => exact .ok _

theorem unmixed_text (s : Store) (r : Ref) : Unmixed (s.text r) := by
  have hto : ∀ depth r, Unmixed (s.textTo depth r) := by
    intro depth
    induction depth with
    | zero => exact fun _ => .error rfl
    | succ depth ih => exact fun r => s.unmixed_textWith ih _
  exact hto _ r

end Store

theorem Query.unmixed_ask (query : String) (cells : List (String × TableScript.Value)) :
    Unmixed (Query.ask query cells) := by
  have hread : Unmixed ((Query.read query).mapError Fault.query) := by
    cases Query.read query with
    | error e => exact .error rfl
    | ok e => exact .ok e
  refine hread.bind fun _ => .bind (.mapM (fun c => .bind ?_ fun _ => .ok _) _) fun _ => .ok _
  unfold Value.toQuery
  split
  case h_5 =>
    split
    · exact (Shape.unmixed_text _).bind fun _ => .error rfl
    · exact .error rfl
  all_goals exact .ok _

theorem Disk.unmixed_read (d : Disk) (p : Path) : Unmixed (d.read p) := by
  unfold read
  split
  · exact .error rfl
  · split
    · exact .error rfl
    · exact .error rfl
    · exact .ok _

theorem Csv.unmixed_parse (text : String) : Unmixed (parse text) := by
  have hpush : ∀ (r : Reader) mode c, Unmixed (r.push mode c) :=
    fun _ _ _ => .ite _ (.error rfl) (.ok _)
  have hstart : ∀ (r : Reader) c, Unmixed (r.fieldStart c) := fun r c =>
    .ite _ (.ok _) (.ite _ (.ok _) (.ite _ (.ok _) (hpush _ _ _)))
  have hstep : ∀ (r : Reader) c, Unmixed (r.step c) := by
    intro r c
    unfold Reader.step
    split
    · exact .ite _ (.ok _) (hstart _ _)
    · exact hstart _ _
    · exact .ite _ (.ok _) (.ite _ (.ok _) (hpush _ _ _))
    · exact .ite _ (.ok _) (hpush _ _ _)
    · exact .ite _ (hpush _ _ _) (.ite _ (.ok _) (.ite _ (.ok _) (hpush _ _ _)))
    · exact .ok _
  have hrun : ∀ (cs : List Char) (r : Reader), Unmixed (r.run cs) := by
    intro cs
    induction cs with
    | nil => exact fun r => .ok _
    | cons c cs ih => exact fun r => (hstep r c).bind fun _ => ih _
  exact (hrun _ _).bind fun _ => .ok _

end TableScript
