import Mathlib.Tactic
import TableScript.Csv
import TableScript.Text.Edit

/-!
# Reading what has been written

Rows of fields that are written as a text, with the ends of lines made the same, are read back as
the rows with the ends of lines in their fields made the same; but a field beyond the limit is a
fault (`parse_render`).

The text is taken apart in two turns. Ends of lines are made the same field by field, as no field
ends with half of one. The reader then takes the characters of a field up to the comma or the end of
the line after it (`run_field_comma`, `run_field_newline`), and from this a row (`run_row`), and the
rows.
-/

namespace TableScript.Csv

/-! ## Written rows as characters -/

/-- Every quotation mark twice. -/
def doubled (cs : List Char) : List Char :=
  cs.flatMap fun c => if c == '"' then ['"', '"'] else [c]

theorem doubled_cons (c : Char) (cs : List Char) :
    doubled (c :: cs) = (if c == '"' then ['"', '"'] else [c]) ++ doubled cs :=
  List.flatMap_cons

/-- The characters that a field is written with. -/
def fieldChars (s : String) : List Char :=
  if s.toList.any needsQuotes then '"' :: doubled s.toList ++ ['"'] else s.toList

/-- The characters that a row is written with, before the end of the line. -/
def rowChars (fields : List String) : List Char :=
  if fields = [""] then ['"', '"'] else [','].intercalate (fields.map fieldChars)

theorem toList_renderField (s : String) : (renderField s).toList = fieldChars s := by
  unfold renderField fieldChars
  split
  · simp [doubled]
  · rfl

theorem toList_render (rows : List (List String)) :
    (render rows).toList = rows.flatMap fun row => rowChars row ++ ['\r', '\n'] := by
  simp only [render, String.toList_join, List.flatMap_map]
  refine List.flatMap_congr fun row _ => ?_
  rw [renderRow, String.toList_append, rowChars]
  split
  · rfl
  · simp [String.toList_intercalate, toList_renderField, Function.comp_def]

/-! ## Ends of lines -/

open Text (unifyNewlines unifyNewlinesFrom)

theorem unifyNewlinesFrom_append {cs rest : List Char}
    (h : cs.getLast? ≠ some '\r' ∨ rest.head? ≠ some '\n') :
    unifyNewlinesFrom (cs ++ rest) = unifyNewlinesFrom cs ++ unifyNewlinesFrom rest := by
  fun_induction unifyNewlinesFrom cs with
  | case1 => rfl
  | case2 cs ih =>
    rw [List.cons_append, List.cons_append, unifyNewlinesFrom, ih ?_, List.cons_append]
    exact h.imp_left fun h hlast => h (by simp [List.getLast?_cons, hlast])
  | case3 c cs hpair ih =>
    have htail : cs.getLast? ≠ some '\r' ∨ rest.head? ≠ some '\n' :=
      h.imp_left fun h hlast => h (by simp [List.getLast?_cons, hlast])
    have hpair' : ∀ tail, c = '\r' → cs ++ rest = '\n' :: tail → False := by
      rintro tail rfl htail
      cases cs with
      | nil =>
        rw [List.nil_append] at htail
        rw [htail] at h
        simp at h
      | cons d cs =>
        cases htail
        exact hpair cs rfl rfl
    rw [List.cons_append, unifyNewlinesFrom.eq_3 _ _ hpair', ih htail, List.cons_append]

theorem unifyNewlinesFrom_doubled (cs : List Char) :
    unifyNewlinesFrom (doubled cs) = doubled (unifyNewlinesFrom cs) := by
  fun_induction unifyNewlinesFrom cs with
  | case1 => rfl
  | case2 cs ih =>
    change unifyNewlinesFrom ('\r' :: '\n' :: doubled cs) = '\n' :: doubled _
    rw [unifyNewlinesFrom, ih]
  | case3 c cs hpair ih =>
    have hpair' : ∀ tail, c = '\r' → doubled cs = '\n' :: tail → False := by
      intro tail hc htail
      cases cs with
      | nil => cases htail
      | cons d cs =>
        rw [doubled_cons] at htail
        split at htail
        · cases htail
        · cases htail
          exact hpair cs hc rfl
    rw [doubled_cons, doubled_cons]
    by_cases hc : c = '"'
    · subst hc
      change unifyNewlinesFrom ('"' :: '"' :: doubled cs) = '"' :: '"' :: doubled _
      simp [unifyNewlinesFrom, ih]
    · rw [if_neg (by simpa using hc), List.singleton_append, unifyNewlinesFrom.eq_3 _ _ hpair', ih]
      split
      · rfl
      · rw [if_neg (by simpa using hc)]
        rfl

theorem any_needsQuotes_unifyNewlinesFrom (cs : List Char) :
    (unifyNewlinesFrom cs).any needsQuotes = cs.any needsQuotes := by
  fun_induction unifyNewlinesFrom cs with
  | case1 => rfl
  | case2 cs ih => simp [ih, needsQuotes]
  | case3 c cs hpair ih =>
    rw [List.any_cons, List.any_cons, ih]
    congr 1
    split
    · next hc => rw [beq_iff_eq.mp hc]; rfl
    · rfl

theorem unifyNewlinesFrom_eq_self {cs : List Char} (h : '\r' ∉ cs) :
    unifyNewlinesFrom cs = cs := by
  fun_induction unifyNewlinesFrom cs with
  | case1 => rfl
  | case2 cs ih => exact absurd List.mem_cons_self h
  | case3 c cs hpair ih =>
    rw [List.mem_cons, not_or] at h
    rw [ih h.2, if_neg (by simpa using Ne.symm h.1)]

theorem not_mem_unifyNewlinesFrom (cs : List Char) : '\r' ∉ unifyNewlinesFrom cs := by
  fun_induction unifyNewlinesFrom cs with
  | case1 => exact List.not_mem_nil
  | case2 cs ih => simp [ih]
  | case3 c cs hpair ih =>
    rw [List.mem_cons, not_or]
    refine ⟨?_, ih⟩
    split
    · decide
    · next hc => exact fun h => hc (by rw [← h]; rfl)

theorem unifyNewlinesFrom_fieldChars (s : String) (rest : List Char) :
    unifyNewlinesFrom (fieldChars s ++ rest) =
      fieldChars (unifyNewlines s) ++ unifyNewlinesFrom rest := by
  have hquoted : (unifyNewlines s).toList.any needsQuotes = s.toList.any needsQuotes := by
    rw [unifyNewlines, String.toList_ofList, any_needsQuotes_unifyNewlinesFrom]
  unfold fieldChars
  rw [hquoted]
  split
  · rw [unifyNewlinesFrom_append (.inl (by rw [List.getLast?_concat]; simp)), List.cons_append,
      unifyNewlinesFrom, unifyNewlinesFrom_append (.inr (by simp)), unifyNewlinesFrom_doubled,
      unifyNewlines, String.toList_ofList]
    · rfl
    · exact fun _ h => absurd h (by decide)
  · next hplain =>
      have hr : '\r' ∉ s.toList := fun hr => hplain (List.any_eq_true.mpr ⟨_, hr, rfl⟩)
      rw [unifyNewlinesFrom_append (.inl fun h => hr (List.mem_of_getLast? h)), unifyNewlines,
        String.toList_ofList, unifyNewlinesFrom_eq_self hr]

theorem unifyNewlines_eq_empty {s : String} : unifyNewlines s = "" ↔ s = "" := by
  rw [← String.toList_inj, ← String.toList_inj, unifyNewlines, String.toList_ofList]
  fun_cases unifyNewlinesFrom s.toList <;> simp_all

theorem unifyNewlinesFrom_intercalate (fields : List String) (rest : List Char) :
    unifyNewlinesFrom ([','].intercalate (fields.map fieldChars) ++ '\r' :: '\n' :: rest) =
      [','].intercalate ((fields.map unifyNewlines).map fieldChars) ++
        '\n' :: unifyNewlinesFrom rest := by
  induction fields with
  | nil => rfl
  | cons field fields ih =>
    cases fields with
    | nil => simp [unifyNewlinesFrom_fieldChars, unifyNewlinesFrom]
    | cons next fields =>
      simp only [List.map_cons, List.intercalate_cons_cons, List.append_assoc] at ih ⊢
      rw [unifyNewlinesFrom_fieldChars, List.singleton_append, unifyNewlinesFrom, ih]
      · rfl
      · exact fun _ h => absurd h (by decide)

theorem unifyNewlinesFrom_rowChars (fields : List String) (rest : List Char) :
    unifyNewlinesFrom (rowChars fields ++ '\r' :: '\n' :: rest) =
      rowChars (fields.map unifyNewlines) ++ '\n' :: unifyNewlinesFrom rest := by
  have hsingle : fields.map unifyNewlines = [""] ↔ fields = [""] := by
    simp [List.map_eq_singleton_iff, unifyNewlines_eq_empty]
  simp only [rowChars, hsingle]
  split
  · rfl
  · exact unifyNewlinesFrom_intercalate fields rest

theorem toList_unifyNewlines_render (rows : List (List String)) :
    (unifyNewlines (render rows)).toList =
      (rows.map (List.map unifyNewlines)).flatMap fun row => rowChars row ++ ['\n'] := by
  rw [unifyNewlines, String.toList_ofList, toList_render]
  induction rows with
  | nil => rfl
  | cons row rows ih =>
    rw [List.flatMap_cons, List.append_assoc, List.cons_append, List.singleton_append,
      unifyNewlinesFrom_rowChars, ih]
    simp

/-! ## The reader -/

namespace Reader

variable {r : Reader} {c d : Char} {cs rest : List Char}

theorem step_begun (r : Reader) (b : Bool) (c : Char) :
    step { r with begun := b } c = (r.step c).map fun next => { next with begun := b } := by
  unfold step fieldStart push
  dsimp only
  repeat' split
  all_goals rfl

theorem run_begun (r : Reader) (b : Bool) (hrest : rest ≠ []) :
    run { r with begun := b } rest = run r rest := by
  have hend : ∀ next : Reader, endLine { next with begun := b } = next.endLine := by
    intro next
    unfold endLine
    dsimp only
    split <;> rfl
  cases rest with
  | nil => exact absurd rfl hrest
  | cons c rest =>
    rw [run, run, step_begun]
    cases r.step c with
    | error f => rfl
    | ok next =>
      change run (if c == '\n' then endLine { next with begun := b } else _) rest = _
      rw [hend]
      rfl

/-- The reader with characters added to the current field. -/
def grown (r : Reader) (mode : Mode) (cs : List Char) : Reader :=
  { r with mode, field := cs.reverse ++ r.field, length := r.length + cs.length }

/-- Goes on with characters added to the current field, if there is room for them. -/
def runGrown (r : Reader) (mode : Mode) (cs rest : List Char) : Except Fault Reader :=
  if r.length + cs.length ≤ limit then run (r.grown mode cs) rest else .error .fieldTooLarge

theorem runGrown_nil (hlength : r.length ≤ limit) : r.runGrown r.mode [] rest = run r rest := by
  rw [runGrown, List.length_nil, Nat.add_zero, if_pos hlength]
  rfl

theorem run_push {mode : Mode} (hstep : r.step c = r.push mode c)
    (hc : c ≠ '\n' ∨ mode = .inQuotes) (hrest : rest ≠ []) :
    run r (c :: rest) = r.runGrown mode [c] rest := by
  rw [run, hstep, push, runGrown, List.length_singleton]
  by_cases hroom : r.length < limit
  · rw [if_neg (by omega), if_pos (by omega)]
    change run (if c == '\n' then endLine (r.grown mode [c]) else
      { r.grown mode [c] with begun := true }) rest = _
    split
    · next hnewline =>
        rcases hc with hc | rfl
        · exact absurd (beq_iff_eq.mp hnewline) hc
        · exact run_begun _ false hrest
    · exact run_begun _ true hrest
  · rw [if_pos (by omega), if_neg (by omega)]
    rfl

theorem runGrown_cons {mode : Mode} {text : List Char}
    (h : (r.grown mode [c]).length ≤ limit →
      run (r.grown mode [c]) text = (r.grown mode [c]).runGrown mode cs rest) :
    r.runGrown mode [c] text = r.runGrown mode (c :: cs) rest := by
  have hgrown : (r.grown mode [c]).grown mode cs = r.grown mode (c :: cs) := by
    simp [grown, Nat.add_assoc, Nat.add_comm 1]
  have hlength : (r.grown mode [c]).length = r.length + 1 := rfl
  unfold runGrown at h ⊢
  rw [hgrown] at h
  rw [List.length_singleton, List.length_cons, ← hlength]
  by_cases hroom : (r.grown mode [c]).length ≤ limit
  · rw [if_pos hroom, h hroom, hlength, Nat.add_right_comm, Nat.add_assoc]
  · rw [if_neg hroom, if_neg (by omega)]

theorem run_inField (hmode : r.mode = .inField) (hlength : r.length ≤ limit)
    (hcs : ∀ c ∈ cs, c ≠ ',' ∧ c ≠ '\n') (hrest : rest ≠ []) :
    run r (cs ++ rest) = r.runGrown .inField cs rest := by
  induction cs generalizing r with
  | nil =>
    rw [← hmode, runGrown_nil hlength]
    rfl
  | cons c cs ih =>
    obtain ⟨hc, hcs⟩ := List.forall_mem_cons.mp hcs
    have hstep : r.step c = r.push .inField c := by
      rw [step, hmode]
      simp [hc.1, hc.2]
    rw [List.cons_append, run_push hstep (.inl hc.2) (by simp [hrest])]
    exact runGrown_cons fun hlength => ih rfl hlength hcs

theorem run_step {next : Reader} (hstep : r.step c = .ok next) (hc : c ≠ '\n')
    (hrest : rest ≠ []) :
    run r (c :: rest) = run next rest := by
  rw [run, hstep]
  change run (if c == '\n' then _ else { next with begun := true }) rest = _
  rw [if_neg (by simpa using hc)]
  exact run_begun next true hrest

theorem run_inQuotes (hmode : r.mode = .inQuotes) (hlength : r.length ≤ limit)
    (hrest : rest ≠ []) :
    run r (doubled cs ++ rest) = r.runGrown .inQuotes cs rest := by
  induction cs generalizing r with
  | nil =>
    rw [← hmode, runGrown_nil hlength]
    rfl
  | cons c cs ih =>
    have hmore : doubled cs ++ rest ≠ [] := by simp [hrest]
    rw [doubled_cons, List.append_assoc]
    split
    · next hc =>
        -- The first quotation mark may close the field; the second one says that it does not.
        have hopen : r.step '"' = .ok { r with mode := .afterQuote } := by
          rw [step, hmode]
          rfl
        have hstep : step { r with mode := .afterQuote } '"' =
            push { r with mode := .afterQuote } .inQuotes '"' := rfl
        rw [beq_iff_eq.mp hc]
        change run r ('"' :: '"' :: (doubled cs ++ rest)) = _
        rw [run_step hopen (by decide) (by simp), run_push hstep (.inr rfl) hmore]
        exact runGrown_cons (r := r) fun hlength => ih rfl hlength
    · next hc =>
        have hstep : r.step c = r.push .inQuotes c := by
          rw [step, hmode]
          simp [show c ≠ '"' by simpa using hc]
        rw [List.singleton_append, run_push hstep (.inr rfl) hmore]
        exact runGrown_cons fun hlength => ih rfl hlength

/-- A reader at the start of a field. -/
def fresh (mode : Mode) (fields : List String) (rows : List (List String)) : Reader :=
  { mode, fields, rows }

variable {s : String} {fields : List String} {rows : List (List String)}

/-- The modes in which a comma or the end of a line ends a field. -/
def Ends : Mode → Prop
  | .startField | .inField | .afterQuote => True
  | _ => False

theorem run_comma (hmode : Ends r.mode) (hrest : rest ≠ []) :
    run r (',' :: rest) = run (r.endField .startField) rest := by
  refine run_step ?_ (by decide) hrest
  unfold step
  split <;> simp_all [Ends, fieldStart]

theorem run_newline (hmode : Ends r.mode) :
    run r ('\n' :: rest) = run (r.endField .endLine).endRow rest := by
  have hstep : r.step '\n' = .ok (r.endField .endLine) := by
    unfold step
    split <;> simp_all [Ends, fieldStart]
  rw [run, hstep]
  rfl

theorem run_fieldChars (s : String) (fields : List String) (rows : List (List String))
    (hrest : rest ≠ []) :
    ∃ mode, Ends mode ∧ run (fresh .startField fields rows) (fieldChars s ++ rest) =
      (fresh .startField fields rows).runGrown mode s.toList rest := by
  unfold fieldChars
  split
  · -- The quotation marks around the field add nothing to it.
    refine ⟨.afterQuote, trivial, ?_⟩
    have hopen : step (fresh .startField fields rows) '"' = .ok (fresh .inQuotes fields rows) := rfl
    have hclose : ∀ cs, run ((fresh .inQuotes fields rows).grown .inQuotes cs) ('"' :: rest) =
        run ((fresh .startField fields rows).grown .afterQuote cs) rest :=
      fun cs => run_step rfl (by decide) hrest
    rw [List.cons_append, List.cons_append, List.append_assoc, List.singleton_append,
      run_step hopen (by decide) (by simp), run_inQuotes rfl (Nat.zero_le _) (by simp), runGrown,
      hclose]
    rfl
  · next hplain =>
      have hplain : ∀ c ∈ s.toList, c ≠ ',' ∧ c ≠ '\n' ∧ c ≠ '"' := by
        intro c hc
        have : needsQuotes c = false := by
          simpa using fun h => hplain (List.any_eq_true.mpr ⟨c, hc, h⟩)
        simp only [needsQuotes, Bool.or_eq_false_iff, beq_eq_false_iff_ne] at this
        exact ⟨this.1.1.1, this.2, this.1.1.2⟩
      cases hcs : s.toList with
      | nil => exact ⟨.startField, trivial, (runGrown_nil (Nat.zero_le _)).symm⟩
      | cons c cs =>
        rw [hcs] at hplain
        obtain ⟨⟨hcomma, hnewline, hquote⟩, hplain⟩ := List.forall_mem_cons.mp hplain
        refine ⟨.inField, trivial, ?_⟩
        have hstep : step (fresh .startField fields rows) c =
            push (fresh .startField fields rows) .inField c := by
          simp [step, fresh, fieldStart, hcomma, hnewline, hquote]
        rw [List.cons_append, run_push hstep (.inl hnewline) (by simp [hrest])]
        exact runGrown_cons fun hlength =>
          run_inField rfl hlength (fun c hc => ⟨(hplain c hc).1, (hplain c hc).2.1⟩) hrest

theorem run_field_comma (hrest : rest ≠ []) :
    run (fresh .startField fields rows) (fieldChars s ++ ',' :: rest) =
      if s.length ≤ limit then run (fresh .startField (s :: fields) rows) rest
      else .error .fieldTooLarge := by
  obtain ⟨mode, hmode, hrun⟩ := run_fieldChars s fields rows (List.cons_ne_nil ',' rest)
  rw [hrun, runGrown, run_comma hmode hrest]
  simp [fresh, grown, endField, String.length_toList]

theorem run_field_newline :
    run (fresh .startField fields rows) (fieldChars s ++ '\n' :: rest) =
      if s.length ≤ limit then run (fresh .startRecord [] ((s :: fields).reverse :: rows)) rest
      else .error .fieldTooLarge := by
  obtain ⟨mode, hmode, hrun⟩ := run_fieldChars s fields rows (List.cons_ne_nil '\n' rest)
  rw [hrun, runGrown, run_newline hmode]
  simp [fresh, grown, endField, endRow, String.length_toList]

theorem run_fields (hfields : fields ≠ []) (done : List String) :
    run (fresh .startField done rows) ([','].intercalate (fields.map fieldChars) ++ '\n' :: rest) =
      if ∀ s ∈ fields, s.length ≤ limit then
        run (fresh .startRecord [] ((done.reverse ++ fields) :: rows)) rest
      else .error .fieldTooLarge := by
  induction fields generalizing done with
  | nil => exact absurd rfl hfields
  | cons s fields ih =>
    cases fields with
    | nil => simp [run_field_newline]
    | cons t fields =>
      have hrest := ih (by simp) (s :: done)
      rw [List.reverse_cons, List.append_assoc, List.singleton_append] at hrest
      rw [List.map_cons, List.map_cons, List.intercalate_cons_cons, List.append_assoc,
        List.append_assoc, List.singleton_append, run_field_comma (by simp),
          ← List.map_cons, hrest]
      simp only [List.forall_mem_cons (a := s), ite_and]

theorem ne_newline_of_head?_fieldChars {s : String} : ∀ c ∈ (fieldChars s).head?,
    c ≠ '\n' := by
  intro c hc
  unfold fieldChars at hc
  split at hc
  · cases hc
    decide
  · next hplain =>
      rintro rfl
      exact hplain (List.any_eq_true.mpr ⟨_, List.mem_of_head? hc, rfl⟩)

theorem exists_rowChars_eq_cons (hfields : fields ≠ []) :
    ∃ c cs, rowChars fields = c :: cs ∧ c ≠ '\n' := by
  unfold rowChars
  split
  · exact ⟨_, _, rfl, by decide⟩
  · next hempty =>
      obtain ⟨s, fields, rfl⟩ := List.exists_cons_of_ne_nil hfields
      cases hs : fieldChars s with
      | nil =>
        cases fields with
        | nil =>
          refine absurd ?_ hempty
          unfold fieldChars at hs
          split at hs
          · cases hs
          · rw [← String.toList_eq_nil_iff.mp hs]
        | cons t fields =>
          exact ⟨',', _, by simp [List.intercalate_cons_cons, hs]; rfl, by decide⟩
      | cons c cs =>
        have hc : c ≠ '\n' := ne_newline_of_head?_fieldChars (s := s) c (by rw [hs]; rfl)
        cases fields with
        | nil => exact ⟨c, cs, by simp [hs], hc⟩
        | cons t fields => exact ⟨c, _, by simp [List.intercalate_cons_cons, hs]; rfl, hc⟩

theorem run_startRecord (hfields : fields ≠ []) :
    run (fresh .startRecord [] rows) (rowChars fields ++ '\n' :: rest) =
      run (fresh .startField [] rows) (rowChars fields ++ '\n' :: rest) := by
  obtain ⟨c, cs, hcs, hc⟩ := exists_rowChars_eq_cons hfields
  have hstep : step (fresh .startRecord [] rows) c = step (fresh .startField [] rows) c := by
    simp [step, fresh, fieldStart, push, endField, hc]
  rw [hcs, List.cons_append, run, run, hstep]

/-- One row is read back. -/
theorem run_row (fields : List String) (rows : List (List String)) (rest : List Char) :
    run (fresh .startRecord [] rows) (rowChars fields ++ '\n' :: rest) =
      if ∀ s ∈ fields, s.length ≤ limit then run (fresh .startRecord [] (fields :: rows)) rest
      else .error .fieldTooLarge := by
  by_cases hfields : fields = []
  · subst hfields
    rfl
  rw [run_startRecord hfields]
  unfold rowChars
  split
  · next h =>
      rw [h]
      rfl
  · exact run_fields hfields []

theorem run_rows (lines rows : List (List String)) :
    run (fresh .startRecord [] rows) (lines.flatMap fun row => rowChars row ++ ['\n']) =
      if ∀ row ∈ lines, ∀ s ∈ row, s.length ≤ limit then
        .ok (fresh .startRecord [] (lines.reverse ++ rows))
      else .error .fieldTooLarge := by
  induction lines generalizing rows with
  | nil => rfl
  | cons row lines ih =>
    rw [List.flatMap_cons, List.append_assoc, List.singleton_append, run_row, ih]
    simp only [List.forall_mem_cons (a := row), List.reverse_cons, List.append_assoc,
      List.singleton_append, ite_and]

end Reader

/-- Rows are read back as they were written, unless a field is too large. -/
theorem parse_render (rows : List (List String)) :
    parse (unifyNewlines (render rows)) =
      if ∀ row ∈ rows, ∀ s ∈ row, (unifyNewlines s).length ≤ Reader.limit then
        .ok (rows.map (List.map unifyNewlines))
      else .error .fieldTooLarge := by
  have hrun := Reader.run_rows (rows.map (List.map unifyNewlines)) []
  rw [← toList_unifyNewlines_render] at hrun
  simp only [List.forall_mem_map] at hrun
  rw [parse]
  change (do let r ← Reader.run (Reader.fresh .startRecord [] []) _; _) = _
  rw [hrun]
  split_ifs
  · simp [Reader.fresh, pure, Except.pure, bind, Except.bind]
  · rfl

end TableScript.Csv
