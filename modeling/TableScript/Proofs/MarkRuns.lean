import TableScript.Proofs.SpacedTokens

/-!
# Marks that stand together

Delimiters that are written without spaces between them should be told apart by longest match: from
left to right, always the longest delimiter that the marks begin with (`LongestSplit`). The scanner
takes the marks of a run two by two instead (`pairs`): a pair that is no delimiter is two delimiters
of one mark each, even if the second mark and the one after it are a delimiter.

`scan_run_iff` says when that makes a difference: the tokens of a run are its longest split iff each
delimiter of two marks stands where a pair begins (`isPaired`). What stands before and after the run
is read as it is read alone.
-/

namespace TableScript

/-! ## Splits of a run -/

/-- Marks are split into delimiters from left to right, and each of them is the longest one that the
marks begin with. -/
inductive LongestSplit : List Char → List Delimiter → Prop
  | nil : LongestSplit [] []
  | cons {run rest : List Char} {d : Delimiter} {ds : List Delimiter}
    (split : d.text.toList ++ rest = run)
    (longest : ∀ e : Delimiter, e.text.toList <+: run → e.text.length ≤ d.text.length)
    (tail : LongestSplit rest ds) : LongestSplit run (d :: ds)

/-- Does a delimiter consist of two marks? -/
def Delimiter.isWide (d : Delimiter) : Bool :=
  d.text.length == 2

/-- Does each delimiter of two marks come after an even number of delimiters of one mark, counted
from the delimiter of two marks before it? -/
def isPaired : List Delimiter → Bool
  | [] => true
  | [_] => true
  | d :: e :: ds => if d.isWide then isPaired (e :: ds) else !e.isWide && isPaired ds

/-- The tokens that the scanner takes the marks of a run for. -/
def pairs : List Char → Option (List Lexeme)
  | [] => some []
  | [c] => (delimitersOf c none).toOption
  | c :: d :: rest => do return (← (delimitersOf c (some d)).toOption) ++ (← pairs rest)

/-! ## Delimiters of one and of two marks -/

variable {d : Delimiter} {c c' : Char}

theorem Delimiter.ofText?_text (d : Delimiter) : Delimiter.ofText? d.text = some d := by
  cases d <;> decide +kernel

theorem delimiterOf_text (h : d.text.toList = [c]) :
    delimiterOf c = .ok (.delimiter d) := by
  have htext : String.singleton c = d.text := String.toList_inj.mp (h ▸ String.toList_singleton c)
  rw [delimiterOf, htext, d.ofText?_text]

theorem delimitersOf_text (h : d.text.toList = [c, c']) :
    delimitersOf c (some c') = .ok [.delimiter d] := by
  rw [delimitersOf, ← h, String.ofList_toList, d.ofText?_text]

theorem delimitersOf_apart (h : ∀ e : Delimiter, e.text.toList ≠ [c, c']) :
    delimitersOf c (some c') = do
      let first ← delimiterOf c
      return [first, ← delimiterOf c'] := by
  have hnone : Delimiter.ofText? (String.ofList [c, c']) = none := by
    cases he : Delimiter.ofText? (String.ofList [c, c']) with
    | none => rfl
    | some e =>
      refine absurd ?_ (h e)
      rw [Delimiter.text_of_ofText? he, String.toList_ofList]
  rw [delimitersOf, hnone]

theorem Delimiter.text_cases (d : Delimiter) :
    (d.isWide = false ∧ ∃ c, d.text.toList = [c]) ∨
      (d.isWide = true ∧ ∃ c c', d.text.toList = [c, c']) := by
  have hspelled := d.isSpelled_eq_true
  rw [isWide, ← String.length_toList]
  unfold isSpelled at hspelled
  split at hspelled
  · next c hd =>
      rw [hd]
      exact .inl ⟨rfl, c, rfl⟩
  · next c c' hd =>
      rw [hd]
      exact .inr ⟨rfl, c, c', rfl⟩
  · cases hspelled

/-! ## Pairs and the longest split -/

theorem not_delimiter_of_longest {rest : List Char} (hd : d.text.toList = [c])
    (longest : ∀ e : Delimiter, e.text.toList <+: c :: c' :: rest →
      e.text.length ≤ d.text.length) :
    ∀ e : Delimiter, e.text.toList ≠ [c, c'] := by
  intro e he
  have hle := longest e (he ▸ ⟨rest, rfl⟩)
  rw [← String.length_toList, ← String.length_toList, hd, he] at hle
  simp at hle

theorem pairs_cons {ls : List Lexeme} (h : delimitersOf c (some c') = .ok ls) (rest : List Char) :
    pairs (c :: c' :: rest) = (pairs rest).map (ls ++ ·) := by
  rw [pairs, h]
  cases pairs rest <;> rfl

theorem map_append_eq_some_iff (ls : List Lexeme) {ms : List Lexeme} {rest : Option (List Lexeme)} :
    rest.map (ls ++ ·) = some (ls ++ ms) ↔ rest = some ms := by
  cases rest <;> simp

theorem pairs_eq_iff {run : List Char} {ds : List Delimiter} (h : LongestSplit run ds) :
    pairs run = some (ds.map .delimiter) ↔ isPaired ds := by
  fun_induction isPaired ds generalizing run with
  | case1 =>
    cases h
    simp [pairs]
  | case2 d =>
    obtain _ | ⟨rfl, -, tail⟩ := h
    cases tail
    rw [List.append_nil]
    rcases d.text_cases with ⟨-, c, hd⟩ | ⟨-, c, c', hd⟩
    · simp [hd, pairs, delimitersOf, delimiterOf_text hd, Except.toOption, bind, Except.bind, pure,
        Except.pure]
    · simp [hd, pairs, delimitersOf_text hd, Except.toOption]
  | case3 d e ds hwide ih =>
    obtain _ | ⟨rfl, -, tail⟩ := h
    rcases d.text_cases with ⟨hnarrow, -⟩ | ⟨-, c, c', hd⟩
    · rw [hwide] at hnarrow
      cases hnarrow
    · rw [hd, List.cons_append, List.singleton_append, pairs_cons (delimitersOf_text hd),
        ← ih tail]
      exact map_append_eq_some_iff [.delimiter d]
  | case4 d e ds hwide ih =>
    obtain _ | ⟨rfl, longest, _ | ⟨rfl, -, tail⟩⟩ := h
    rcases d.text_cases with ⟨-, c, hd⟩ | ⟨hd, -⟩
    swap
    · exact absurd hd hwide
    rw [hd] at longest ⊢
    rcases e.text_cases with ⟨he', c', he⟩ | ⟨he', c', c'', he⟩
    · -- Two delimiters of one mark, which is what the pair is taken for.
      rw [he] at longest ⊢
      have hpair : delimitersOf c (some c') = .ok [.delimiter d, .delimiter e] := by
        rw [delimitersOf_apart (not_delimiter_of_longest hd longest), delimiterOf_text hd,
          delimiterOf_text he]
        rfl
      rw [List.singleton_append, List.singleton_append, pairs_cons hpair, he', Bool.not_false,
        Bool.true_and, ← ih tail]
      exact map_append_eq_some_iff [.delimiter d, .delimiter e]
    · -- The second mark of the pair is taken alone, and it is the first one of `e`.
      rw [he] at longest ⊢
      rw [he', Bool.not_true, Bool.false_and]
      refine iff_of_false (fun hpairs => ?_) Bool.false_ne_true
      rw [List.singleton_append, List.cons_append, pairs,
        delimitersOf_apart (not_delimiter_of_longest hd longest)] at hpairs
      obtain ⟨ls, hls, hrest⟩ := Option.bind_eq_some_iff.mp hpairs
      obtain ⟨ms, -, hall⟩ := Option.bind_eq_some_iff.mp hrest
      rw [delimiterOf_text hd] at hls
      cases hg : delimiterOf c' with
      | error f =>
        rw [hg] at hls
        cases hls
      | ok l =>
        rw [hg] at hls
        cases hls
        have hl : l = .delimiter e := (List.cons.inj (List.cons.inj (Option.some.inj hall)).2).1
        have htext := text_of_delimiterOf hg
        rw [hl, Lexeme.text, he] at htext
        cases htext

/-! ## Reading a run -/

namespace Reading

variable {run : List Char}

theorem mark_nil (ls : List Lexeme) (c : Char) (next : Option Char) :
    ({ lexemes := ls } : Reading).endWord.mark c next =
      (delimitersOf c next).toOption.map fun ms =>
        { skip := next.isSome, lexemes := ls ++ ms } := by
  rw [endWord_nil]
  rfl

theorem reach_run (hrun : ∀ c ∈ run, isMark c) {next : Option Char}
    (hnext : next.filter isMark = none) (ls : List Lexeme) :
    ({ lexemes := ls } : Reading).reach next run =
      (pairs run).map fun ms => { lexemes := ls ++ ms } := by
  fun_induction pairs run generalizing ls with
  | case1 => simp [reach]
  | case2 c =>
    rw [reach, List.head?_nil, Option.none_or, step_of_isMark rfl rfl (hrun c List.mem_cons_self),
      hnext, mark_nil]
    cases delimitersOf c none <;> rfl
  | case3 c d rest ih =>
    obtain ⟨hc, hd, hrest⟩ : isMark c ∧ isMark d ∧
      ∀ c ∈ rest, isMark c := by simpa using hrun
    have hboth : ((d :: rest).head?.or next).filter isMark = some d := by
      rw [List.head?_cons, Option.some_or, Option.filter_some, if_pos hd]
    rw [reach, step_of_isMark rfl rfl hc, hboth, mark_nil]
    cases delimitersOf c (some d) with
    | error f => rfl
    | ok ms =>
      simp only [Except.toOption, Option.map_some, Option.bind_some]
      rw [reach, step_of_skip rfl rfl hd]
      refine (ih hrest (ls ++ ms)).trans ?_
      cases pairs rest <;> simp

theorem reading?_run {before after : List Char} (hzone : before.foldl Zone.after .plain = .plain)
    (hne : run ≠ []) (hrun : ∀ c ∈ run, isMark c)
    (hbefore : ∀ c ∈ before.getLast?, isMark c = false)
    (hafter : ∀ c ∈ after.head?, isMark c = false) :
    reading? (before ++ (run ++ after)) = (reading? before).bind fun r => (pairs run).bind fun ls =>
      (reading? after).map fun t => t.beyond (r.lexemes ++ ls) r.flawed := by
  have hnext : after.head?.filter isMark = none :=
    Option.filter_eq_none_iff.mpr fun c hc => by simp [hafter c hc]
  have hread : reading? (run ++ after) = (pairs run).bind fun ls =>
      (reading? after).map fun t => t.beyond ls false := by
    rw [reading?, read_append, reach_run hrun hnext [], Option.bind_map]
    refine congrArg _ (funext fun ls => ?_)
    have hstart : ({ lexemes := [] ++ ls } : Reading) = ({} : Reading).beyond ls false := by
      simp [beyond]
    rw [Function.comp_apply, hstart, read_beyond]
    rfl
  rw [reading?, read_append, @reach_congr before none _ (.inr hbefore), reading?, read]
  cases hr : ({} : Reading).reach none before with
  | none => rfl
  | some r =>
    obtain ⟨hready, hzone'⟩ := ready_reach (r := {}) (fun h => by cases h) hr
    rw [hzone] at hzone'
    have hskip := hready.skip_eq_false rfl
    obtain ⟨c, marks, rfl⟩ := List.exists_cons_of_ne_nil hne
    rw [Option.bind_some, List.cons_append,
      ← read_of_isMark hzone' hskip (hrun c List.mem_cons_self), endWord_eq_beyond hskip, hzone',
      read_beyond, ← List.cons_append, ← reading?, hread]
    cases pairs (c :: marks) <;> cases reading? after <;> simp [beyond]

end Reading

/-! ## The tokens of a run -/

/-- When marks are told apart by longest match: the tokens of a run of marks, outside of quotation
marks and comments and with no mark before or after it, are its longest split iff the delimiters of
two marks stand where pairs begin, unless what stands before or after the run cannot be scanned. -/
theorem scan_run_iff (debugging : Bool) (console : Console) {before run after : String}
    {ds : List Delimiter} (hzone : before.toList.foldl Zone.after .plain = .plain)
    (hne : run ≠ "")
    (hrun : ∀ c ∈ run.toList, isMark c)
    (hbefore : ∀ c ∈ before.toList.getLast?, isMark c = false)
    (hafter : ∀ c ∈ after.toList.head?, isMark c = false)
    (hsplit : LongestSplit run.toList ds) :
    ((scan debugging (before ++ run ++ after) console).1.map (·.map (·.lexeme)) =
        (lexed before).bind fun ls => (lexed after).map fun ms => ls ++ ds.map .delimiter ++ ms) ↔
      isPaired ds ∨ lexed before = none ∨ lexed after = none := by
  have hne : run.toList ≠ [] := by simpa using hne
  have hds : ds ≠ [] := by
    rintro rfl
    generalize run.toList = marks at hne hsplit
    cases hsplit
    exact hne rfl
  rw [(scan_eq debugging _ console).1, String.toList_append, String.toList_append,
    List.append_assoc, Reading.reading?_run hzone hne hrun hbefore hafter, lexed_eq, lexed_eq,
      ← pairs_eq_iff hsplit]
  cases reading? before.toList with
  | none => simp
  | some r =>
    cases reading? after.toList with
    | none => cases pairs run.toList <;> simp
    | some t =>
      cases pairs run.toList with
      | none => simp
      | some ls =>
        have hsome : (r.lexemes ++ ds.map Lexeme.delimiter ++ t.lexemes).isEmpty = false := by
          simp [hds]
        simp only [Option.bind_some, Option.map_some, Option.filter_eq_some_iff, hsome,
          Reading.beyond, Option.some.injEq, reduceCtorEq, or_false, List.append_cancel_right_eq,
          List.append_cancel_left_eq, Bool.not_false, and_true]

/-- A comparison after brackets: the delimiters are read as if there were spaces. -/
theorem scan_run_pair : (scan false "f(g(x))==y" {}).1.map (·.map (·.lexeme)) =
    some [.ident "f", .delimiter .parenLeft, .ident "g", .delimiter .parenLeft, .ident "x",
      .delimiter .parenRight, .delimiter .parenRight, .delimiter .equal, .ident "y"] := by
  have hsplit : LongestSplit "))==".toList [.parenRight, .parenRight, .equal] := by
    refine @LongestSplit.cons _ ")==".toList _ _ (by decide) (fun e => ?_)
      (@LongestSplit.cons _ "==".toList _ _ (by decide) (fun e => ?_)
        (@LongestSplit.cons _ [] _ _ (by decide) (fun e => ?_) .nil)) <;> cases e <;> decide +kernel
  have htokens := (@scan_run_iff false {} "f(g(x" "))==" "y" _
    (by decide +kernel) (by decide) (List.all_eq_true.mp (by decide +kernel))
    (by simp; decide) (by simp; decide) hsplit).mpr (.inl (by decide +kernel))
  exact htokens.trans (by decide +kernel)

/-- After one bracket the comparison is read as two assignments. -/
theorem scan_run_apart : LongestSplit ")==".toList [.parenRight, .equal] ∧
    (scan false "f(x)==y" {}).1.map (·.map (·.lexeme)) =
      some [.ident "f", .delimiter .parenLeft, .ident "x", .delimiter .parenRight,
        .delimiter .assign, .delimiter .assign, .ident "y"] := by
  constructor
  · refine @LongestSplit.cons _ "==".toList _ _ (by decide) (fun e => ?_)
      (@LongestSplit.cons _ [] _ _ (by decide) (fun e => ?_) .nil) <;> cases e <;> decide +kernel
  · decide +kernel

end TableScript
