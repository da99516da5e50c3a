import TableScript.Proofs.InternedTypes
import TableScript.Proofs.Precedence
import TableScript.Proofs.SpacedTokens

/-!
# Type signatures are read back

The text of a type that a program can write is read as that type (`type_reads_back`). It is made of
`Sign`s: words, marks and gaps. Marks that stand together are read in pairs, none of which is a
delimiter, so each of them is a token (`run_signs`). The tokens are then taken one after the other:
`Takes` says what a rule makes of the tokens that come next, and `takes_type` that the rule of types
makes the type that they are written for, provided that no arrow follows.
-/

namespace TableScript

open ParseState

/-! ## How types are written -/

/-- The marks of types that are delimiters by themselves, in whatever order they stand. -/
def signMarks : List (Char × Delimiter) :=
  [('[', .bracketLeft), (']', .bracketRight), ('(', .parenLeft), (')', .parenRight), (':', .denote),
    (',', .comma)]

/-- A part of the text of a type. -/
inductive Sign where
  | word (k : Keyword)
  | mark (p : { p // p ∈ signMarks })
  | gap
  /-- An arrow with a gap before it and one after it. -/
  | arrow

namespace Sign

def text : Sign → List Char
  | word k => k.text.toList
  | mark p => [p.val.1]
  | gap => [' ']
  | arrow => ' ' :: (Delimiter.arrow.text.toList ++ [' '])

def lexeme? : Sign → Option Lexeme
  | word k => some (.keyword k)
  | mark p => some (.delimiter p.val.2)
  | gap => none
  | arrow => some (.delimiter .arrow)

def isWord : Sign → Bool
  | word _ => true
  | _ => false

/-- The two signs can stand side by side. -/
def Apart (a b : Sign) : Prop :=
  a.isWord = false ∨ b.isWord = false

def bracketLeft : Sign := mark ⟨('[', .bracketLeft), by decide⟩
def bracketRight : Sign := mark ⟨(']', .bracketRight), by decide⟩
def parenLeft : Sign := mark ⟨('(', .parenLeft), by decide⟩
def parenRight : Sign := mark ⟨(')', .parenRight), by decide⟩
def denote : Sign := mark ⟨(':', .denote), by decide⟩
def comma : Sign := mark ⟨(',', .comma), by decide⟩

variable {a b : Sign} {as bs : List Sign}

theorem isChain_cons (ha : a.isWord = false) (has : as.IsChain Apart) : (a :: as).IsChain Apart :=
  List.isChain_cons.mpr ⟨fun _ _ => .inl ha, has⟩

theorem isChain_append (hb : b.isWord = false) (has : as.IsChain Apart)
    (hbs : (b :: bs).IsChain Apart) : (as ++ b :: bs).IsChain Apart :=
  List.isChain_append.mpr ⟨has, hbs, fun _ _ _ hy => by cases hy; exact .inr hb⟩

theorem isChain_word (k : Keyword) (has : as.IsChain Apart) :
    (word k :: bracketLeft :: (as ++ [bracketRight])).IsChain Apart :=
  List.isChain_cons_cons.mpr
    ⟨.inr rfl, isChain_cons rfl (isChain_append rfl has (.singleton _))⟩

end Sign

namespace Shape

mutual

/-- The signs of a type. -/
def signs : Ty → List Sign
  | int => [.word .int]
  | bool => [.word .bool]
  | char => [.word .char]
  | string => [.word .string]
  | none => [.word .none]
  | list a => .word .list :: .bracketLeft :: (signs a ++ [.bracketRight])
  | dict a b => .word .dict :: .bracketLeft :: (signs a ++ .denote :: (signs b ++ [.bracketRight]))
  | union _ as => .word .union :: .bracketLeft :: (listSigns as ++ [.bracketRight])
  | tuple _ as => .word .tuple :: .bracketLeft :: (listSigns as ++ [.bracketRight])
  | func as a => .parenLeft :: (listSigns as ++ .parenRight :: .arrow :: signs a)
  | _ => []

/-- The signs of types with commas between them. -/
def listSigns : List Ty → List Sign
  | [] => []
  | a :: as => signs a ++ moreSigns as

/-- The signs of types with a comma before each. -/
def moreSigns : List Ty → List Sign
  | [] => []
  | a :: as => .comma :: .gap :: (signs a ++ moreSigns as)

end

mutual

/-- Is it a type that a program can write: are there only types of values in it, and members in each
tuple and union and parameters in each function type? -/
def isSignature : Ty → Bool
  | int | bool | char | string | none => true
  | list a => isSignature a
  | dict a b => isSignature a && isSignature b
  | union _ as | tuple _ as => !as.isEmpty && allSignatures as
  | func as a => !as.isEmpty && allSignatures as && isSignature a
  | _ => false

def allSignatures : List Ty → Bool
  | [] => true
  | a :: as => isSignature a && allSignatures as

end

end Shape

/-- Signs as they are written. -/
def signText (signs : List Sign) : List Char :=
  signs.flatMap Sign.text

/-- The tokens of signs. -/
def signLexemes (signs : List Sign) : List Lexeme :=
  signs.filterMap Sign.lexeme?

namespace Shape

theorem signText_append (as bs : List Sign) : signText (as ++ bs) = signText as ++ signText bs :=
  List.flatMap_append

theorem signText_cons (a : Sign) (as : List Sign) : signText (a :: as) = a.text ++ signText as :=
  List.flatMap_cons

theorem toList_bracketed {text : String} {inner : List Sign} (k : Keyword)
    (h : text.toList = signText inner) :
    (k.text ++ "[" ++ text ++ "]").toList =
      signText (.word k :: .bracketLeft :: (inner ++ [.bracketRight])) := by
  rw [signText_cons, signText_cons, signText_append, ← h]
  simp only [String.toList_append, List.append_assoc]
  rfl

mutual

theorem text_eq_signs : ∀ t : Ty, t.isSignature = true →
    ∃ text, t.text = .ok text ∧ text.toList = signText t.signs
  | int, _ => ⟨"int", rfl, by decide⟩
  | bool, _ => ⟨"bool", rfl, by decide⟩
  | char, _ => ⟨"char", rfl, by decide⟩
  | string, _ => ⟨"string", rfl, by decide⟩
  | none, _ => ⟨"none", rfl, by decide⟩
  | list a, h => by
    obtain ⟨text, htext, hsigns⟩ := text_eq_signs a h
    exact ⟨_, by rw [Shape.text, htext]; rfl, toList_bracketed .list hsigns⟩
  | dict a b, h => by
    rw [isSignature, Bool.and_eq_true] at h
    obtain ⟨key, hkey, hkeys⟩ := text_eq_signs a h.1
    obtain ⟨value, hvalue, hvalues⟩ := text_eq_signs b h.2
    refine ⟨"dict[" ++ key ++ ":" ++ value ++ "]", by rw [Shape.text, hkey, hvalue]; rfl, ?_⟩
    rw [signs, signText_cons, signText_cons, signText_append, signText_cons, signText_append,
      ← hkeys, ← hvalues]
    simp only [String.toList_append, List.append_assoc]
    rfl
  | union _ as, h => by
    rw [isSignature, Bool.and_eq_true] at h
    obtain ⟨texts, htexts, -, hsigns⟩ := texts_eq_signs as h.2
    exact ⟨_, by rw [Shape.text, htexts]; rfl, toList_bracketed .union hsigns⟩
  | tuple _ as, h => by
    rw [isSignature, Bool.and_eq_true] at h
    obtain ⟨texts, htexts, -, hsigns⟩ := texts_eq_signs as h.2
    exact ⟨_, by rw [Shape.text, htexts]; rfl, toList_bracketed .tuple hsigns⟩
  | func as a, h => by
    rw [isSignature, Bool.and_eq_true, Bool.and_eq_true] at h
    obtain ⟨texts, htexts, hempty, hsigns⟩ := texts_eq_signs as h.1.2
    obtain ⟨text, htext, hresult⟩ := text_eq_signs a h.2
    rw [← hempty, Bool.not_eq_true'] at h
    refine ⟨"(" ++ ", ".intercalate texts ++ ") -> " ++ text, ?_, ?_⟩
    · rw [Shape.text, htexts, htext]
      show (if texts.isEmpty = true then _ else _) = _
      rw [h.1.1]
      rfl
    · rw [signs, signText_cons, signText_append, signText_cons, signText_cons,
        ← hsigns, ← hresult]
      simp only [String.toList_append, List.append_assoc]
      rfl

theorem texts_eq_signs : ∀ as : List Ty, allSignatures as = true →
    ∃ texts, Shape.texts as = .ok texts ∧ texts.isEmpty = as.isEmpty ∧
      (", ".intercalate texts).toList = signText (listSigns as)
  | [], _ => ⟨[], rfl, rfl, rfl⟩
  | a :: as, h => by
    rw [allSignatures, Bool.and_eq_true] at h
    obtain ⟨text, htext, hsigns⟩ := text_eq_signs a h.1
    obtain ⟨texts, htexts, hempty, hmore⟩ := texts_eq_signs as h.2
    refine ⟨text :: texts, by rw [Shape.texts, htext, htexts]; rfl, rfl, ?_⟩
    rw [listSigns, signText_append, ← hsigns]
    cases as with
    | nil =>
      rw [List.isEmpty_iff.mp hempty, String.intercalate_singleton]
      exact (List.append_nil _).symm
    | cons b bs =>
      obtain ⟨next, more, rfl⟩ := List.exists_cons_of_ne_nil (l := texts) (by
        rintro rfl
        cases hempty)
      have hcons : (", ".intercalate (text :: next :: more)).toList =
          text.toList ++ ", ".toList ++ (", ".intercalate (next :: more)).toList := by
        simp [String.toList_intercalate]
      rw [hcons, hmore, List.append_assoc]
      rfl

end

mutual

theorem isChain_signs : ∀ t : Ty, t.signs.IsChain Sign.Apart
  | list a => Sign.isChain_word _ (isChain_signs a)
  | dict a b => List.isChain_cons_cons.mpr ⟨.inr rfl, Sign.isChain_cons rfl
      (Sign.isChain_append rfl (isChain_signs a) (Sign.isChain_cons rfl
        (Sign.isChain_append rfl (isChain_signs b) (.singleton _))))⟩
  | union _ as | tuple _ as => Sign.isChain_word _ (isChain_listSigns as)
  | func as a => Sign.isChain_cons rfl (Sign.isChain_append rfl (isChain_listSigns as)
      (Sign.isChain_cons rfl (Sign.isChain_cons rfl (isChain_signs a))))
  | int | bool | char | string | none => .singleton _
  | any | unknown | literal | iterable | schema _ _ | table _ _ | absent | dangling => .nil

theorem isChain_listSigns : ∀ as : List Ty, (listSigns as).IsChain Sign.Apart
  | [] => .nil
  | [a] => by
    rw [listSigns, moreSigns, List.append_nil]
    exact isChain_signs a
  | a :: b :: bs => Sign.isChain_append rfl (isChain_signs a) (isChain_moreSigns (b :: bs))

theorem isChain_moreSigns : ∀ as : List Ty, (moreSigns as).IsChain Sign.Apart
  | [] => .nil
  | a :: as => by
    refine Sign.isChain_cons rfl (Sign.isChain_cons rfl ?_)
    cases as with
    | nil =>
      rw [moreSigns, List.append_nil]
      exact isChain_signs a
    | cons b bs => exact Sign.isChain_append rfl (isChain_signs a) (isChain_moreSigns (b :: bs))

end

end Shape

/-! ## Reading the signs -/

theorem delimitersOf_signMarks (p : { p // p ∈ signMarks }) :
    isMark p.val.1 = true ∧ delimitersOf p.val.1 none = .ok [.delimiter p.val.2] ∧
      ∀ q : { q // q ∈ signMarks },
        delimitersOf p.val.1 (some q.val.1) = .ok [.delimiter p.val.2, .delimiter q.val.2] := by
  have hall : signMarks.all (fun p => isMark p.1 &&
      decide (delimitersOf p.1 none = .ok [.delimiter p.2]) && signMarks.all fun q =>
        decide (delimitersOf p.1 (some q.1) = .ok [.delimiter p.2, .delimiter q.2])) = true := by
    decide +kernel
  have hp := List.all_eq_true.mp hall p.val p.property
  simp only [Bool.and_eq_true, decide_eq_true_eq] at hp
  exact ⟨hp.1.1, hp.1.2, fun q =>
    of_decide_eq_true (List.all_eq_true.mp hp.2 q.val q.property)⟩

namespace Reading

variable {r : Reading} {ls : List Lexeme}

/-- Before signs one is between two tokens, or after a word that the next sign ends, or at a mark
that has been read together with the mark before. -/
inductive Before (ls : List Lexeme) : List Sign → Reading → Prop
  | between {signs : List Sign} : Before ls signs { lexemes := ls }
  | pending {ls' : List Lexeme} {signs : List Sign} {word : List Char}
    (h : ({ lexemes := ls', word } : Reading).endWord = { lexemes := ls })
    (hfirst : ∀ a ∈ signs.head?, a.isWord = false) : Before ls signs { lexemes := ls', word }
  | within {p : { p // p ∈ signMarks }} {signs : List Sign} :
    Before ls (.mark p :: signs) { lexemes := ls ++ [.delimiter p.val.2], skip := true }

theorem read_mark (hr : r.zone = .plain ∧ r.skip = false) (hend : r.endWord = { lexemes := ls })
    (p : { p // p ∈ signMarks }) (signs : List Sign) :
    ∃ r', r.read (p.val.1 :: signText signs) = r'.read (signText signs) ∧
      Before (ls ++ [.delimiter p.val.2]) signs r' := by
  obtain ⟨hp, halone, htwo⟩ := delimitersOf_signMarks p
  have hnone (hnext : (signText signs).head?.filter isMark = none) :
      ∃ r', r.read (p.val.1 :: signText signs) = r'.read (signText signs) ∧
        Before (ls ++ [.delimiter p.val.2]) signs r' := by
    refine ⟨_, ?_, .between⟩
    rw [read_cons, step_of_isMark hr.1 hr.2 hp, hend, hnext, mark, halone]
    rfl
  cases signs with
  | nil => exact hnone rfl
  | cons a signs =>
    cases a with
    | mark q =>
      have hnext : (signText (.mark q :: signs)).head?.filter isMark = some q.val.1 := by
        rw [signText, List.flatMap_cons]
        exact Option.filter_eq_some_iff.mpr ⟨rfl, (delimitersOf_signMarks q).1⟩
      refine ⟨_, ?_, .within⟩
      rw [read_cons, step_of_isMark hr.1 hr.2 hp, hend, hnext, mark, htwo q]
      simp [Except.toOption]
    | word k =>
      refine hnone (Option.filter_eq_none_iff.mpr fun c hc => ?_)
      obtain ⟨d, cs, htext⟩ := List.exists_cons_of_ne_nil (l := k.text.toList) (by
        intro hnil
        have hstart := k.isWordChar_text.2
        rw [hnil] at hstart
        cases hstart)
      rw [signText, List.flatMap_cons, Sign.text, htext] at hc
      obtain rfl : d = c := by simpa using hc
      have hword := List.all_eq_true.mp k.isWordChar_text.1 d (htext ▸ List.mem_cons_self)
      simp [(sorts_of_isWordChar hword).1.2.1]
    | gap | arrow => exact hnone rfl

theorem read_space (hzone : r.zone = .plain) (hend : r.endWord = { lexemes := ls })
    (rest : List Char) :
    r.read (' ' :: rest) = ({ lexemes := ls } : Reading).read rest := by
  rw [read_cons, step_of_ends (by decide) (by rw [hzone]; rfl), move_of_after (by rw [hzone]; rfl),
    hend]
  rfl

variable {signs : List Sign}

theorem Before.settled (h : Before ls signs r) (hmark : ∀ p, signs.head? ≠ some (.mark p)) :
    (r.zone = .plain ∧ r.skip = false) ∧ r.endWord = { lexemes := ls } := by
  cases h with
  | between => exact ⟨⟨rfl, rfl⟩, endWord_nil⟩
  | pending h _ => exact ⟨⟨rfl, rfl⟩, h⟩
  | within => exact absurd rfl (hmark _)

theorem Before.read_sign {a : Sign} (h : Before ls (a :: signs) r)
    (hchain : (a :: signs).IsChain Sign.Apart) :
    ∃ r', r.read (signText (a :: signs)) = r'.read (signText signs) ∧
      Before (ls ++ a.lexeme?.toList) signs r' := by
  rw [signText, List.flatMap_cons, ← signText]
  cases a with
  | word k =>
    have hk : lexemeOf? (String.ofList k.text.toList) = some (.keyword k) := by
      rw [String.ofList_toList, lexemeOf?, Keyword.ofText?_text]
    cases h with
    | between =>
      refine ⟨_, read_word k.isWordChar_text.1 _,
        .pending (endWord_of_lexeme hk) fun b hb => ?_⟩
      exact ((List.isChain_cons.mp hchain).1 b hb).resolve_left (by simp [Sign.isWord])
    | pending _ hfirst => exact absurd (hfirst _ rfl) (by simp [Sign.isWord])
  | mark p =>
    cases h with
    | between => exact read_mark ⟨rfl, rfl⟩ endWord_nil p signs
    | pending h _ => exact read_mark ⟨rfl, rfl⟩ h p signs
    | within =>
      refine ⟨_, ?_, .between⟩
      rw [Sign.text, List.singleton_append, read_cons,
        step_of_skip rfl rfl (delimitersOf_signMarks p).1]
      rfl
  | gap =>
    obtain ⟨hr, hend⟩ := h.settled fun p hp => by cases hp
    refine ⟨_, read_space hr.1 hend _, ?_⟩
    rw [Sign.lexeme?, Option.toList_none, List.append_nil]
    exact .between
  | arrow =>
    obtain ⟨hr, hend⟩ := h.settled fun p hp => by cases hp
    refine ⟨{ lexemes := ls ++ [.delimiter .arrow] }, ?_, .between⟩
    rw [Sign.text, List.cons_append, List.append_assoc, List.singleton_append,
      read_space hr.1 hend, read_delimiter .arrow (by rfl), read_space rfl endWord_nil]

theorem Before.read_signs (h : Before ls signs r) (hchain : signs.IsChain Sign.Apart) :
    r.read (signText signs) = some { lexemes := ls ++ signLexemes signs } := by
  induction signs generalizing r ls with
  | nil =>
    rw [signLexemes, List.filterMap_nil, List.append_nil]
    exact congrArg some (h.settled fun p hp => by cases hp).2
  | cons a signs ih =>
    obtain ⟨t, hread, ht⟩ := h.read_sign hchain
    have hlexemes : signLexemes (a :: signs) = a.lexeme?.toList ++ signLexemes signs := by
      rw [signLexemes, List.filterMap_cons]
      cases a.lexeme? <;> rfl
    rw [hread, ih ht hchain.tail, hlexemes, List.append_assoc]

end Reading

/-! ## Taking the tokens -/

namespace Parser

open ParseM

variable {α β : Type} {P Q : List Lexeme → Prop} {x y : ParseM α} {l : Lexeme}
  {ls ls' : List Lexeme} {f : TypeStore → α × TypeStore} {g : Grammar} {n : Nat}

/-- The rule takes the tokens, if `P` holds of those that follow, and makes `f` in the store of
types. -/
def Takes (P : List Lexeme → Prop) (x : ParseM α) (ls : List Lexeme)
    (f : TypeStore → α × TypeStore) : Prop :=
  ∀ s rest, s.lexemes = ls ++ rest → P rest →
    x.exec s = (.ok (f s.types).1, { s.skip ls.length with types := (f s.types).2 })

theorem takes_pure (a : α) : Takes P (pure a) [] fun types => (a, types) :=
  fun _ _ _ _ => rfl

theorem takes_makeType (f : TypeStore → TypeRef × TypeStore) : Takes P (makeType f) [] f :=
  fun _ _ _ _ => rfl

namespace Takes

theorem bind {z : α → ParseM β} {r : TypeStore → β × TypeStore}
    (k : α → TypeStore → β × TypeStore)
    (hx : Takes P x ls f) (hz : ∀ a, Takes Q (z a) ls' (k a))
    (hfollow : ∀ rest, Q rest → P (ls' ++ rest))
    (hr : ∀ types, r types = k (f types).1 (f types).2) :
    Takes Q (x >>= z) (ls ++ ls') r := by
  intro s rest hs hrest
  rw [List.append_assoc] at hs
  have hs' : ({ s.skip ls.length with types := (f s.types).2 } : ParseState).lexemes =
    ls' ++ rest :=
    lexemes_skip hs
  rw [exec_bind_of (hx s _ hs (hfollow rest hrest)), hz _ _ rest hs' hrest, hr]
  simp only [skip, List.drop_drop, List.length_append, Nat.add_assoc]

theorem map (k : α → β) (hx : Takes P x ls f) :
    Takes P (x >>= fun a => pure (k a)) ls fun types => (k (f types).1, (f types).2) :=
  fun s rest hs hrest => exec_bind_of (hx s rest hs hrest)

theorem past {z : Bool → ParseM α} (h : Takes P (z true) ls f) :
    Takes P (accept l >>= z) (l :: ls) f := by
  intro s rest hs hrest
  rw [exec_bind_of (exec_accept_skip hs), h _ rest (lexemes_skip_one hs) hrest]
  simp only [skip, List.drop_drop, List.length_cons, Nat.add_assoc, Nat.add_comm 1]

theorem past_if (h : Takes P x ls f) :
    Takes P (accept l >>= fun b => if b = true then x else y) (l :: ls) f :=
  .past h

theorem absent_if (hne : ∀ rest, (ls ++ rest).head? ≠ some l) (h : Takes P y ls f) :
    Takes P (accept l >>= fun b => if b = true then x else y) ls f := by
  intro s rest hs hrest
  have hnext : s.next? ≠ some l := by
    rw [next?_eq, hs]
    exact hne rest
  rw [exec_bind_of (exec_accept_ne hnext)]
  exact h s rest hs hrest

theorem absent_cons {l' : Lexeme} (hne : l' ≠ l) (h : Takes P y (l' :: ls) f) :
    Takes P (accept l >>= fun b => if b = true then x else y) (l' :: ls) f :=
  .absent_if (fun _ hhead => hne (Option.some.inj hhead)) h

end Takes

/-- No arrow follows. -/
def NoArrow (rest : List Lexeme) : Prop :=
  rest.head? ≠ some (.delimiter .arrow)

/-- Neither an arrow nor a comma follows. -/
def Closes (rest : List Lexeme) : Prop :=
  NoArrow rest ∧ rest.head? ≠ some (.delimiter .comma)

theorem takes_typeRule {f : TypeStore → TypeRef × TypeStore}
    (h : Takes NoArrow (namedType g) ls fun types => (some (f types).1, (f types).2)) :
    Takes NoArrow (typeRule g) ls f := by
  intro s rest hs hrest
  have hnext : ({ s.skip ls.length with types := (f s.types).2 } : ParseState).next? ≠
      some (.delimiter .arrow) := by
    rw [next?_eq]
    exact (lexemes_skip hs).symm ▸ hrest
  rw [typeRule, exec_bind_here, exec_bind_of (h s rest hs hrest)]
  exact exec_bind_of (exec_accept_ne hnext)

theorem signLexemes_append (as bs : List Sign) :
    signLexemes (as ++ bs) = signLexemes as ++ signLexemes bs :=
  List.filterMap_append

theorem head_signLexemes {t : Ty} (h : t.isSignature = true) (rest : List Lexeme) :
    (signLexemes t.signs ++ rest).head? ≠ some (.delimiter .parenRight) := by
  intro hhead
  cases t <;> first | cases hhead | cases h

theorem noArrow_moreSigns (as : List Ty) {rest : List Lexeme} (h : Closes rest) :
    NoArrow (signLexemes (Shape.moreSigns as) ++ rest) := by
  cases as with
  | nil => exact h.1
  | cons a as => exact fun hhead => by cases hhead

variable {d : Delimiter}

theorem closes_delimiter (hd : d ∈ [.bracketRight, .parenRight]) (rest : List Lexeme) :
    Closes (.delimiter d :: rest) := by
  constructor <;> rintro ⟨⟩ <;> exact absurd hd (by decide)

/-- The type is taken by rules that nest as often as it has tokens. -/
def TakesType (t : Ty) : Prop :=
  ∀ n, (signLexemes t.signs).length ≤ n →
    Takes NoArrow (typeRule (grammar false n)) (signLexemes t.signs) (·.internPlain t)

/-- Types that each follow a comma are taken, in as many rounds as they have tokens. -/
def TakesMore (as : List Ty) : Prop :=
  ∀ n rounds, (signLexemes (Shape.moreSigns as)).length ≤ n →
    (signLexemes (Shape.moreSigns as)).length < rounds →
    Takes Closes (itemsAfter .comma (typeRule (grammar false n)) rounds)
      (signLexemes (Shape.moreSigns as)) (·.internAll (Shape.mapMarksAll (fun _ => none) as))

theorem takesMore_nil : TakesMore [] := by
  intro n rounds _ hrounds
  obtain ⟨rounds, rfl⟩ : ∃ k, rounds = k + 1 := ⟨rounds - 1, by omega⟩
  intro s rest hs hrest
  have hnext : s.next? ≠ some (.delimiter .comma) := by
    rw [next?_eq, hs]
    exact hrest.2
  exact exec_bind_of (exec_accept_ne hnext)

variable {as : List Ty} {a : Ty}

section

variable (ha : TakesType a) (has : TakesMore as)

include ha has

theorem takesMore_cons : TakesMore (a :: as) := by
  intro n rounds hn hrounds
  have hlexemes : signLexemes (Shape.moreSigns (a :: as)) =
      .delimiter .comma :: (signLexemes a.signs ++ signLexemes (Shape.moreSigns as)) :=
    congrArg (List.cons _) (signLexemes_append _ _)
  rw [hlexemes, List.length_cons, List.length_append] at hn hrounds
  rw [hlexemes]
  obtain ⟨rounds, rfl⟩ : ∃ k, rounds = k + 1 := ⟨rounds - 1, by omega⟩
  exact .past_if (.bind (fun t types => (t :: (types.internAll _).1, (types.internAll _).2))
    (ha n (by omega)) (fun t => (has n rounds (by omega) (by omega)).map (t :: ·))
    (fun _ => noArrow_moreSigns as) fun _ => rfl)

/-- Types up to the mark that closes them. -/
theorem takes_listSigns (hd : d ∈ [.bracketRight, .parenRight])
    (hn : (signLexemes (Shape.listSigns (a :: as))).length ≤ n) :
    Takes P (do
      let first ← (grammar false (n + 1)).type
      let more ← followers (grammar false (n + 1)) .comma (grammar false (n + 1)).type
      let _ ← acceptDelimiter d
      return first :: more)
      (signLexemes (Shape.listSigns (a :: as)) ++ [.delimiter d])
      (·.internAll (Shape.mapMarksAll (fun _ => none) (a :: as))) := by
  rw [Shape.listSigns, signLexemes_append] at hn ⊢
  rw [List.length_append] at hn
  rw [List.append_assoc]
  have hrounds : (signLexemes (Shape.moreSigns as)).length < (grammar false (n + 1)).rounds := by
    rw [rounds_grammar]
    omega
  refine .bind (fun t types => (t :: (types.internAll _).1, (types.internAll _).2))
    (ha n (by omega)) (fun t => ?_) (fun rest _ => ?_) fun _ => rfl
  · refine .bind (fun ts types => (t :: ts, types)) (has n _ (by omega) hrounds)
      (fun ts => .past (takes_pure _)) (fun rest _ => closes_delimiter hd rest) fun _ => rfl
  · rw [List.append_assoc]
    exact noArrow_moreSigns as (closes_delimiter hd rest)

theorem takes_bracketed (hn : (signLexemes (Shape.listSigns (a :: as))).length ≤ n) :
    Takes P (bracketed (grammar false (n + 1)))
      (.delimiter .bracketLeft ::
        (signLexemes (Shape.listSigns (a :: as)) ++ [.delimiter .bracketRight]))
      (·.internAll (Shape.mapMarksAll (fun _ => none) (a :: as))) :=
  .past (takes_listSigns ha has (by decide) hn)

theorem takes_parameterTypes (hsign : a.isSignature = true)
    (hn : (signLexemes (Shape.listSigns (a :: as))).length ≤ n) :
    Takes P (parameterTypes (grammar false (n + 1)))
      (signLexemes (Shape.listSigns (a :: as)) ++ [.delimiter .parenRight])
      (·.internAll (Shape.mapMarksAll (fun _ => none) (a :: as))) := by
  refine .absent_if (fun rest => ?_) (takes_listSigns ha has (by decide) hn)
  rw [Shape.listSigns, signLexemes_append, List.append_assoc, List.append_assoc]
  exact head_signLexemes hsign _

end

theorem takesType_list (ha : TakesType a) : TakesType (.list a) := by
  intro n hn
  have hlexemes : signLexemes (Shape.list a : Ty).signs = .keyword .list ::
      .delimiter .bracketLeft :: (signLexemes a.signs ++ [.delimiter .bracketRight]) :=
    congrArg (List.cons _ <| List.cons _ ·) (signLexemes_append _ _)
  rw [hlexemes, List.length_cons, List.length_cons, List.length_append] at hn
  rw [hlexemes]
  obtain ⟨n, rfl⟩ : ∃ k, n = k + 1 := ⟨n - 1, by omega⟩
  refine takes_typeRule ?_
  iterate 6 refine .absent_cons (by decide) ?_
  refine .past_if (.past (.bind (fun t types => (some (.list t), types)) (ha n (by omega))
    (fun t => .past (takes_pure _)) (fun rest _ hhead => ?_) fun _ => rfl))
  cases hhead

theorem takesType_dict {b : Ty} (ha : TakesType a) (hb : TakesType b) : TakesType (.dict a b) := by
  intro n hn
  have hlexemes : signLexemes (Shape.dict a b : Ty).signs = .keyword .dict ::
      .delimiter .bracketLeft :: (signLexemes a.signs ++
        .delimiter .denote :: (signLexemes b.signs ++ [.delimiter .bracketRight])) := by
    change _ :: _ :: signLexemes (_ ++ _ :: (_ ++ _)) = _
    rw [signLexemes_append]
    change _ :: _ :: (_ ++ _ :: signLexemes (_ ++ _)) = _
    rw [signLexemes_append]
    rfl
  rw [hlexemes] at hn ⊢
  simp only [List.length_cons, List.length_append] at hn
  obtain ⟨n, rfl⟩ : ∃ k, n = k + 1 := ⟨n - 1, by omega⟩
  refine takes_typeRule ?_
  iterate 7 refine .absent_cons (by decide) ?_
  refine .past_if (.past (.bind (fun t types => (some (.dict t (types.internPlain b).1),
    (types.internPlain b).2)) (ha n (by omega)) (fun t => .past ?_) (fun rest _ hhead => ?_)
    fun _ => rfl))
  · refine .bind (fun u types => (some (.dict t u), types)) (hb n (by omega))
      (fun u => .past (takes_pure _)) (fun rest _ hhead => ?_) fun _ => rfl
    cases hhead
  · cases hhead

section

variable {a : Ty} {as : List Ty}

theorem signLexemes_members (k : Keyword) :
    signLexemes (.word k :: .bracketLeft :: (Shape.listSigns as ++ [.bracketRight])) =
      .keyword k :: .delimiter .bracketLeft ::
        (signLexemes (Shape.listSigns as) ++ [.delimiter .bracketRight]) :=
  congrArg (List.cons _ <| List.cons _ ·) (signLexemes_append _ _)

theorem takesType_members (ha : TakesType a) (has : TakesMore as) :
    TakesType (.union () (a :: as)) ∧ TakesType (.tuple () (a :: as)) := by
  refine ⟨fun n hn => ?_, fun n hn => ?_⟩
  all_goals
    rw [Shape.signs, signLexemes_members] at hn ⊢
    simp only [List.length_cons, List.length_append] at hn
    obtain ⟨n, rfl⟩ : ∃ k, n = k + 1 := ⟨n - 1, by omega⟩
    refine takes_typeRule ?_
    repeat refine .absent_cons (by decide) ?_
    rw [← List.append_nil (_ :: (_ ++ _))]
    exact .past_if (.bind _ (takes_bracketed (P := fun _ => True) ha has (by omega))
      (fun ts => (takes_makeType _).map some) (fun _ _ => trivial) fun _ => rfl)

theorem takesType_func {b : Ty} (hsign : a.isSignature = true) (ha : TakesType a)
    (has : TakesMore as) (hb : TakesType b) : TakesType (.func (a :: as) b) := by
  intro n hn
  have hlexemes : signLexemes (Shape.func (a :: as) b : Ty).signs = .delimiter .parenLeft ::
      ((signLexemes (Shape.listSigns (a :: as)) ++ [.delimiter .parenRight]) ++
        .delimiter .arrow :: signLexemes b.signs) := by
    change _ :: signLexemes (_ ++ _ :: _ :: _) = _
    rw [signLexemes_append, List.append_assoc]
    rfl
  rw [hlexemes] at hn ⊢
  simp only [List.length_cons, List.length_append] at hn
  obtain ⟨n, rfl⟩ : ∃ k, n = k + 1 := ⟨n - 1, by omega⟩
  refine takes_typeRule ?_
  iterate 11 refine .absent_cons (by decide) ?_
  exact .past_if (.bind (fun ts types => (some (.func ts (types.internPlain b).1),
      (types.internPlain b).2)) (takes_parameterTypes (P := fun _ => True) ha has hsign (by omega))
    (fun ts => .past ((hb n (by omega)).map fun t => some (TypeRef.func ts t)))
    (fun _ _ => trivial) fun _ => rfl)

end

mutual

/-- The grammar takes a signature for its type. -/
theorem takes_type : ∀ t : Ty, t.isSignature = true → TakesType t
  | .int, _ => fun _ _ => takes_typeRule (.past_if (takes_pure _))
  | .bool, _ => fun _ _ => takes_typeRule (.absent_cons (by decide) (.past_if (takes_pure _)))
  | .char, _ => fun _ _ => takes_typeRule (by
      iterate 2 refine .absent_cons (by decide) ?_
      exact .past_if (takes_pure _))
  | .string, _ => fun _ _ => takes_typeRule (by
      iterate 3 refine .absent_cons (by decide) ?_
      exact .past_if (takes_pure _))
  | .none, _ => fun _ _ => takes_typeRule (by
      iterate 4 refine .absent_cons (by decide) ?_
      exact .past_if (takes_pure _))
  | .list a, h => takesType_list (takes_type a h)
  | .dict a b, h => by
    rw [Shape.isSignature, Bool.and_eq_true] at h
    exact takesType_dict (takes_type a h.1) (takes_type b h.2)
  | .union _ (a :: as), h => by
    rw [Shape.isSignature, Shape.allSignatures, Bool.and_eq_true, Bool.and_eq_true] at h
    exact (takesType_members (takes_type a h.2.1) (takes_more as h.2.2)).1
  | .tuple _ (a :: as), h => by
    rw [Shape.isSignature, Shape.allSignatures, Bool.and_eq_true, Bool.and_eq_true] at h
    exact (takesType_members (takes_type a h.2.1) (takes_more as h.2.2)).2
  | .func (a :: as) b, h => by
    rw [Shape.isSignature, Shape.allSignatures] at h
    simp only [Bool.and_eq_true] at h
    exact takesType_func h.1.2.1 (takes_type a h.1.2.1) (takes_more as h.1.2.2)
      (takes_type b h.2)

theorem takes_more : ∀ as : List Ty, Shape.allSignatures as = true → TakesMore as
  | [], _ => takesMore_nil
  | a :: as, h => by
    rw [Shape.allSignatures, Bool.and_eq_true] at h
    exact takesMore_cons (takes_type a h.1) (takes_more as h.2)

end

end Parser

theorem Shape.signLexemes_ne_nil {t : Ty} (h : t.isSignature = true) :
    signLexemes t.signs ≠ [] := by
  cases t <;> first | exact List.cons_ne_nil _ _ | cases h

theorem TypeStore.interns_internPlain (s : TypeStore) (t : Ty) :
    (s.internPlain t).2.ends (s.internPlain t).1 = true ∧
      ((s.internPlain t).2.read (s.internPlain t).1).plain = t := by
  have htells : s.Tells (t.mapMarks fun _ => none) := by
    have hfresh := s.tells_fresh (t.mapMarks fun _ => none)
    rwa [Shape.fresh, Shape.mapMarks_mapMarks] at hfresh
  obtain ⟨-, hends, hplain⟩ := interns_intern _ s htells
  refine ⟨hends, hplain.trans ?_⟩
  rw [Shape.plain, Shape.mapMarks_mapMarks, Shape.mapMarks_unit]

/-- The text of a type is scanned without an error, and its tokens are all read as that type. -/
theorem type_reads_back (t : Ty) (h : t.isSignature = true) (debugging : Bool) (console : Console)
    (types : TypeStore) :
    ∃ text tokens, t.text = .ok text ∧ (scan debugging text console).1 = some tokens ∧
      (scan debugging text console).2.hasErrors = false ∧
      ∀ n, tokens.length < n → ∃ r s, ParseM.exec (Parser.grammar false n).type
          (.start debugging types console tokens) = (.ok r, s) ∧
        s.rest = [] ∧ s.used = tokens.length ∧ s.console.hasErrors = false ∧
        s.types.ends r = true ∧ (s.types.read r).plain = t := by
  obtain ⟨text, htext, hsigns⟩ := t.text_eq_signs h
  have hread : reading? text.toList = some { lexemes := signLexemes t.signs } := by
    rw [reading?, hsigns]
    exact Reading.Before.between.read_signs t.isChain_signs
  obtain ⟨tokens, hscan, hlexemes, hclean⟩ :=
    scan_of_reading? hread (Shape.signLexemes_ne_nil h) rfl debugging console
  have hlength : (signLexemes t.signs).length = tokens.length := by
    simpa using congrArg List.length hlexemes.symm
  refine ⟨text, tokens, htext, hscan, hclean, fun n hn => ?_⟩
  obtain ⟨n, rfl⟩ : ∃ k, n = k + 1 := ⟨n - 1, by omega⟩
  have hread := Parser.takes_type t h n (by omega) (.start debugging types console tokens) []
    (hlexemes.trans (List.append_nil _).symm) (fun hhead => by cases hhead)
  refine ⟨_, _, hread, ?_, ?_, rfl, types.interns_internPlain t⟩
  · rw [hlength]
    exact List.drop_length
  · rw [hlength]
    exact Nat.zero_add _

/-- A type that all the others stand in. -/
def nestedSignature : Ty :=
  .dict .string (.list (.func [.func [.int] .bool, .union () [.char, .none]]
    (.func [.tuple () [.int]] (.tuple () [.list .char, .dict .int .bool]))))

theorem nestedSignature_reads_back : nestedSignature.isSignature = true ∧
    nestedSignature.text = .ok ("dict[string:list[((int) -> bool, union[char, none]) -> " ++
      "(tuple[int]) -> tuple[list[char], dict[int:bool]]]]") ∧
    ∃ text tokens, nestedSignature.text = .ok text ∧ (scan false text {}).1 = some tokens ∧
      (scan false text {}).2.hasErrors = false ∧
      ∀ n, tokens.length < n → ∃ r s, ParseM.exec (Parser.grammar false n).type
          (.start false {} {} tokens) = (.ok r, s) ∧
        s.rest = [] ∧ s.used = tokens.length ∧ s.console.hasErrors = false ∧
        s.types.ends r = true ∧ (s.types.read r).plain = nestedSignature :=
  ⟨rfl, by decide +kernel, type_reads_back nestedSignature rfl false {} {}⟩

end TableScript
