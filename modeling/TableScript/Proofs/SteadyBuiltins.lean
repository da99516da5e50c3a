import TableScript.Proofs.Congruence

/-!
# Built-in functions and congruences

A congruence holds of operators and built-in functions: none of them counts evaluations, binds a
name in the scope around it or checks the elements of a collection. Of those that call functions it
holds if it holds of the evaluations of the bodies (`together_run`).
-/

namespace TableScript

namespace EvalM.Congruence

variable {K : Congruence}

/-! ## Operators -/

variable (position : Option Position) (op : Operator) (left right : Ref)

theorem steady_arithmetic (left right : Content) :
    K.Steady (arithmetic position op left right) := by
  unfold arithmetic
  split
  case h_8 a b =>
    split
    · exact .report _ _
    · cases roundedQuotient a b with
      | some q => exact .pure _
      | none => exact .fault _ rfl
  case h_9 =>
    split
    · exact .fault _ rfl
    · exact .pure _
  all_goals exact .pure _

theorem steady_boolean : K.Steady (boolean op left right) := by
  unfold boolean
  split
  · exact .bind (.same left right) fun _ => .pure _
  · exact .bind (.same left right) fun _ => .pure _
  · exact .bind (.content left) fun _ => .bind (.content right) fun _ => .pure _

theorem steady_copySequence (place : Nat) : K.Steady (copySequence place) :=
  .bind (.sequence place) .copyAll

theorem steady_copyMembers (cell : Nat) : K.Steady (copyMembers cell) :=
  .bind .store fun _ => .make fun s => s.extends_addRegion _

theorem steady_concat : K.Steady (concat position left right) := by
  refine .bind (.object left) fun a => .bind (.object right) fun b => ?_
  refine .bind (.conforms position a.type b.type) fun fits => ?_
  split
  · split
    · exact .bind (steady_copySequence _) fun _ => .bind (steady_copySequence _) fun _ =>
        .bind (.newList _ _) fun _ => .pure _
    · refine .bind (steady_copySequence _) fun _ => .bind (steady_copySequence _) fun _ => ?_
      split
      · exact .bind (steady_copyMembers _) fun _ => .bind (steady_copyMembers _) fun _ =>
          .bind (.addTuple _) fun _ => .bind (.newTuple _ _) fun _ => .pure _
      · exact .pure _
    · exact .pure _
  · exact .pure _

theorem steady_operate : K.Steady (operate position op left right) := by
  unfold operate
  dsimp only
  split
  · refine .bind (.content left) fun a => .bind (.content right) fun b => ?_
    refine .bind (steady_arithmetic position op a b) fun c => ?_
    split
    · exact .bind (.map (.newInt _) _) (.option .pure (.report _ _))
    · exact .bind (.map (.newString _) _) (.option .pure (.report _ _))
    · exact .bind (.pure _) (.option .pure (.report _ _))
  · split
    · refine .bind (steady_boolean op left right) fun b => ?_
      cases b with
      | some b => exact .bind (.map (.newBool b) _) (.option .pure (.report _ _))
      | none => exact .bind (.pure _) (.option .pure (.report _ _))
    · split
      · exact .bind (steady_concat position left right) (.option .pure (.report _ _))
      · exact .bind (.report _ _) (.option .pure (.report _ _))

/-! ## Arguments -/

theorem steady_argument (name : String) : K.Steady (Primitive.argument name position) :=
  .lookup name name position

namespace Steady

variable {α : Type} {name : String} {position : Option Position}

theorem argument {f : Ref → EvalM α} (hf : ∀ r, K.Steady (f r)) :
    K.Steady (Primitive.argument name position >>= f) :=
  bind (steady_argument position name) hf

theorem argumentContent {f : Content → EvalM α} (hf : ∀ c, K.Steady (f c)) :
    K.Steady (Primitive.argumentContent name position >>= f) :=
  bind (argument content) hf

theorem listArgument? {f : Option (TypeRef × Nat) → EvalM α}
    (hf : ∀ list, K.Steady (f list)) :
    K.Steady (Primitive.listArgument? name position >>= f) := by
  refine bind (argument fun r => bind (object r) fun o => ?_) hf
  split <;> exact pure _

theorem table? {r : Ref} {f : Option Primitive.TableView → EvalM α}
    (hf : ∀ table, K.Steady (f table)) :
    K.Steady (Primitive.table? r >>= f) := by
  refine bind (bind (object r) fun o => ?_) hf
  split <;> exact pure _

end Steady

end EvalM.Congruence

namespace Primitive

open EvalM Congruence

variable {K : Congruence} (query : String) (members : Nat) (r : Ref)

theorem steady_textContent? : K.Steady (textContent? r) := by
  refine .bind (.content r) fun c => ?_
  cases c <;> first | exact .pure _ | exact .fault _ rfl

theorem steady_bindParameters (parameters : List (String × TypeRef)) (values : List Ref)
    (scope : Scope Ref TypeRef) : K.Steady (bindParameters scope parameters values) := by
  induction values generalizing parameters scope with
  | nil => cases parameters <;> exact .pure scope
  | cons r rest ih =>
    cases parameters with
    | nil => exact .fault _ rfl
    | cons p parameters =>
      refine .bind (.content r) fun c => ?_
      split
      · exact .bind (.typeOf _) fun _ => .bind (.typeOf _) fun _ => .bind (.addTuple _) fun _ =>
          .bind (.newTuple _ _) fun pair => ih parameters _
      · exact ih parameters _

/-! ## Input and output -/

theorem steady_readLine : K.Steady readLine := by
  refine .get (fun _ _ => rfl) fun m => ?_
  split
  · exact .fault _ rfl
  · exact .bind (.aside (fun _ _ => rfl) fun _ => ⟨_, _, _, _, rfl⟩) fun _ => .pure _

theorem steady_runReadln : K.Steady runReadln :=
  .bind steady_readLine fun line => .newString line

theorem steady_runPrint (after : String) (position : Option Position) :
    K.Steady (runPrint after position) := by
  refine .argument fun r => .bind (.text r) fun shown => ?_
  split
  · exact .fault _ rfl
  · exact .bind (.printCodes _) fun _ => .bind (.print after) fun _ => .newNone

variable (position : Option Position)

theorem steady_runType : K.Steady (runType position) :=
  .argument fun r => .bind (.typeOf r) fun t => .bind (.typeText t) fun text => .newString text

theorem steady_runRand : K.Steady (runRand position) := by
  refine .argumentContent fun lower => .argumentContent fun upper => ?_
  split
  · split
    · exact .fault _ rfl
    · exact .bind (.aside (fun _ _ => rfl) fun _ => ⟨_, _, _, _, rfl⟩) fun n => .newInt _
  · exact .newNone

/-! ## Texts and numbers -/

theorem steady_runSubstr : K.Steady (runSubstr position) := by
  refine .argumentContent fun whole => .argumentContent fun start => .argumentContent fun stop => ?_
  split
  · dsimp only
    split
    · exact .report _ _
    · exact .newString _
  · exact .newNone

theorem steady_runToStr : K.Steady (runToStr position) :=
  .argument fun r => .bind (.text r) fun text => .newString text

theorem steady_runJoinStr : K.Steady (runJoinStr position) := by
  refine .argumentContent fun list => .argumentContent fun joiner => ?_
  split
  · exact .bind (.sequence _) fun refs => .bind (.mapM .text refs) fun texts => .newString _
  · exact .fault _ rfl

theorem steady_runChange (f : String → String) : K.Steady (runChange f position) := by
  refine .argumentContent fun c => ?_
  split
  · exact .newString _
  · exact .newNone

theorem steady_runTest (f : List Char → List Char → Bool) : K.Steady (runTest f position) := by
  refine .argumentContent fun first => .argumentContent fun second => ?_
  split <;> exact .newBool _

theorem steady_runToInt : K.Steady (runToInt position) := by
  refine .argumentContent fun c => ?_
  split
  · split
    · exact .newInt _
    · exact .fault _ rfl
  · exact .newNone

theorem steady_runTotal (f : Int → Int → Int) (start : Int) :
    K.Steady (runTotal f start position) := by
  refine .argumentContent fun c => ?_
  split
  · refine .bind (.sequence _) fun refs => ?_
    split
    · exact .newNone
    · exact .bind .store fun s => .newInt _
  · exact .newNone

theorem steady_runBest (beats : Int → Int → Bool) : K.Steady (runBest beats position) := by
  refine .argumentContent fun c => ?_
  split
  · refine .bind .store fun s => ?_
    split
    · exact .newNone
    · split
      · exact .pure _
      · exact .newNone
  · exact .newNone

theorem steady_sortKey : K.Steady (sortKey r) := by
  refine .bind (.content r) fun c => ?_
  cases c <;> first | exact .pure _ | exact .fault _ rfl

theorem steady_runSort : K.Steady (runSort position) := by
  refine .argument fun list => .bind (.content list) fun c => ?_
  split
  · refine .bind (.sequence _) fun refs => ?_
    split
    · exact .pure _
    · refine .bind (.mapM (fun r => .bind (steady_sortKey r) fun _ => .pure _) refs)
        fun items => ?_
      split
      · exact .newList _ _
      · exact .fault _ rfl
  · exact .newNone

/-! ## Lists -/

theorem steady_editList {f : List Ref → EvalM (List Ref)} (hf : ∀ refs, K.Steady (f refs))
    (type : TypeRef) (place : Nat) : K.Steady (editList type place f) :=
  .bind (.sequence place) fun _ => .bind (.copyAll _) fun copies => .bind (hf copies) fun refs =>
    .newList type refs

theorem steady_runInsert : K.Steady (runInsert position) := by
  refine .listArgument? fun list => .argument fun value => .argumentContent fun index => ?_
  split
  · refine steady_editList (fun refs => ?_) _ _
    split
    · exact .pure _
    · exact .fault _ rfl
  · exact .newNone

theorem steady_runRemove : K.Steady (runRemove position) := by
  refine .listArgument? fun list => .argumentContent fun index => ?_
  split
  · refine steady_editList (fun refs => ?_) _ _
    split
    · split
      · exact .pure _
      · exact .fault _ rfl
    · exact .fault _ rfl
  · exact .newNone

theorem steady_runReplace : K.Steady (runReplace position) := by
  refine .listArgument? fun list => .argumentContent fun index => .argument fun value => ?_
  split
  · refine steady_editList (fun refs => ?_) _ _
    split
    · exact .pure _
    · exact .fault _ rfl
  · exact .newNone

theorem steady_runPick (pick : List Ref → Option Ref) : K.Steady (runPick pick position) := by
  refine .listArgument? fun list => ?_
  split
  · refine .bind (.sequence _) fun refs => ?_
    split
    · exact .pure _
    · exact .newNone
  · exact .newNone

theorem steady_runCut (cut : List Ref → List Ref) : K.Steady (runCut cut position) := by
  refine .listArgument? fun list => ?_
  split
  · refine .bind (.sequence _) fun refs => ?_
    split
    · exact .newNone
    · exact steady_editList (fun refs => .pure _) _ _
  · exact .newNone

theorem steady_runSlice : K.Steady (runSlice position) := by
  refine .listArgument? fun list => .argumentContent fun start => .argumentContent fun stop => ?_
  split
  · refine .bind (.sequence _) fun refs => ?_
    dsimp only
    split
    · exact .report _ _
    · exact .fault _ rfl
  · exact .newNone

theorem steady_runContains : K.Steady (runContains position) := by
  refine .listArgument? fun list => .argument fun value => ?_
  split
  · exact .bind .store fun s => .newBool _
  · exact .newBool _

theorem steady_runFind : K.Steady (runFind position) := by
  refine .listArgument? fun list => .argument fun value => ?_
  split
  · refine .bind .store fun s => ?_
    split <;> exact .newInt _
  · exact .newInt _

theorem steady_runFill : K.Steady (runFill position) := by
  refine .argumentContent fun count => .argument fun value => ?_
  split
  · split
    · exact .report _ _
    · exact .bind (.checkSize _) fun _ => .bind (.typeOf value) fun t => .newList _ _
  · exact .newNone

theorem steady_runReverse : K.Steady (runReverse position) := by
  refine .listArgument? fun list => ?_
  split
  · exact steady_editList (fun refs => .pure _) _ _
  · exact .newNone

theorem steady_twoLists {f : TypeRef → List Ref → List Ref → EvalM Ref}
    (hf : ∀ type as bs, K.Steady (f type as bs)) : K.Steady (twoLists position f) := by
  refine .argument fun r => .bind (.object r) fun first => .argument fun r =>
    .bind (.object r) fun second => .bind (.conforms position first.type second.type) fun fits => ?_
  split
  · split
    · exact .bind (.sequence _) fun as => .bind (.sequence _) fun bs => hf _ as bs
    · exact .newNone
  · exact .newNone

theorem steady_runSet : K.Steady (runSet position) :=
  steady_twoLists position fun type _ _ =>
    .bind (.copyAll _) fun _ => .bind .store fun _ => .newList type _

theorem steady_runIntersect : K.Steady (runIntersect position) :=
  steady_twoLists position fun type _ _ =>
    .bind (.copyAll _) fun _ => .bind (.copyAll _) fun _ => .bind .store fun _ => .newList type _

/-! ## Collections -/

theorem steady_runZip : K.Steady (runZip position) := by
  refine .argument fun first => .argument fun second => .bind (.elements _ first _) fun p =>
    .bind (.sequence p) fun as => .bind (.elements _ second _) fun q =>
    .bind (.sequence q) fun bs => ?_
  split
  · exact .newNone
  · split
    · exact .report _ _
    · exact .bind (.elementType first) fun _ => .bind (.elementType second) fun _ =>
        .bind (.addTuple _) fun type => .bind (.mapM (fun p => .newTuple type _) _) fun pairs =>
        .newList _ pairs

theorem steady_runLen : K.Steady (runLen position) :=
  .argument fun r => .bind (.elements _ r _) fun place => .bind (.sequence place) fun _ => .newInt _

theorem steady_runIsEmpty : K.Steady (runIsEmpty position) :=
  .argument fun r => .bind (.elements _ r _) fun place => .bind (.sequence place) fun _ =>
    .newBool _

/-! ## Tables -/

theorem steady_columnsOf (t : TableView) : K.Steady (columnsOf t) :=
  .bind .store fun _ => .pure _

theorem steady_cells? (row : Ref) : K.Steady (cells? row) := by
  refine .bind (.content row) fun c => ?_
  split
  · exact .bind (.sequence _) fun _ => .pure _
  · exact .pure _

theorem steady_newMembers (types : List TypeRef) : K.Steady (newMembers types) :=
  .makeType fun s => s.extends_addList types

theorem steady_newRowType : K.Steady (newRowType members) :=
  .makeType fun s => s.extends_addCell members

theorem steady_newSchema (columns : List (String × TypeRef)) :
    K.Steady (newSchema members columns) :=
  .bind (.make fun s => s.extends_addColumns columns) fun _ => .new _ _

theorem steady_newTable (schema : Ref) (rows : List Ref) :
    K.Steady (newTable members schema rows) :=
  .bind (.addSequence rows) fun _ => .new _ _

theorem steady_cellsConform (cells : List Ref) (columns : List (String × TypeRef)) :
    K.Steady (cellsConform position cells columns) := by
  induction cells generalizing columns with
  | nil => exact .pure true
  | cons cell cells ih =>
    cases columns with
    | nil => exact .pure true
    | cons column columns =>
      refine .bind (.typeOf cell) fun type => .bind (.conforms position type column.2)
        fun fits => ?_
      split
      · exact ih columns
      · exact .pure false

theorem steady_rowsConform (columns : List (String × TypeRef)) (rows : List Ref) :
    K.Steady (rowsConform position columns rows) := by
  induction rows with
  | nil => exact .pure true
  | cons row rows ih =>
    refine .bind (steady_cells? row) fun cells => ?_
    cases cells with
    | none => exact ih
    | some cells =>
      refine .bind (steady_cellsConform position cells columns) fun fits => ?_
      split
      · exact ih
      · exact .pure false

theorem steady_runCreateTable : K.Steady (runCreateTable position) := by
  refine .argument fun schema => .argument fun rows => .bind (.object schema) fun o =>
    .bind (.content rows) fun c => ?_
  split
  · refine .bind .store fun s => .bind (.sequence _) fun refs =>
      .bind (steady_rowsConform position _ refs) fun fits => ?_
    split
    · split
      · exact .new _ _
      · exact .newNone
    · exact .newNone
  · exact .newNone

theorem steady_runColumn : K.Steady (runColumn position) := by
  refine .argumentContent fun list => .argumentContent fun name => ?_
  split
  · refine .bind (.sequence _) fun refs => ?_
    split
    · exact .report _ _
    · exact .bind (.typeOf _) fun type => .bind (steady_newMembers _) fun members =>
        .bind (steady_newSchema _ _) fun schema => .bind (.mapM (fun r =>
        .bind (steady_newMembers _) fun _ => .bind (steady_newRowType _) fun _ =>
          .newTuple _ _) _) fun rows =>
        steady_newTable members schema rows
  · exact .newNone

theorem steady_columnNames (place : Nat) : K.Steady (columnNames place) :=
  .bind (.sequence place) fun refs => .mapM steady_textContent? refs

theorem steady_namedCells (tableName : String) (columns : List (String × TypeRef)) (row : Ref) :
    K.Steady (namedCells tableName columns row) := by
  refine .bind (steady_cells? row) fun cells => ?_
  cases cells <;> exact .pure _

theorem steady_holds (cells : List (String × Ref)) : K.Steady (holds query position cells) := by
  refine .bind .store fun s => .bind (.ofExcept (Query.unmixed_ask _ _)) fun answer => ?_
  cases answer with
  | holds b => exact .pure _
  | fails e => exact .report _ _

theorem steady_selectRow (columns : List (String × TypeRef)) (selected : List Selected)
    (members : Nat) (row : Ref) :
    K.Steady (selectRow position query columns selected members row) := by
  refine .bind (steady_namedCells _ _ row) fun cells => .bind (steady_holds _ _ cells) fun b => ?_
  split
  · refine .bind (steady_cells? row) fun cells => ?_
    split
    · exact .bind (steady_newRowType _) fun _ => .map (.newTuple _ _) _
    · exact .pure _
  · exact .pure _

theorem steady_runSelect : K.Steady (runSelect position) := by
  refine .argument fun r => .table? fun table => .argumentContent fun columns =>
    .argumentContent fun condition => ?_
  split
  · exact .bind (steady_columnsOf _) fun all => .bind (steady_columnNames _) fun names =>
      .bind (steady_newMembers _) fun members => .bind (.sequence _) fun rows =>
      .bind (.filterMapM (steady_selectRow _ _ _ _ _) rows) fun kept =>
      .bind (steady_newSchema _ _) fun schema => steady_newTable _ _ _
  · exact .fault _ rfl

theorem steady_joinRows (left right : List Selected)
    (leftColumns rightColumns : List (String × TypeRef)) (leftRow rightRow : Ref) :
    K.Steady (joinRows position query members left right leftColumns rightColumns leftRow
      rightRow) := by
  refine .bind (steady_namedCells _ _ leftRow) fun leftCells =>
    .bind (steady_namedCells _ _ rightRow) fun rightCells =>
    .bind (steady_holds query position _) fun b => ?_
  split
  · refine .bind (steady_cells? leftRow) fun as => .bind (steady_cells? rightRow) fun bs => ?_
    split
    · exact .bind (steady_newRowType _) fun _ => .map (.newTuple _ _) _
    · exact .pure _
  · exact .pure _

theorem steady_runJoin : K.Steady (runJoin position) := by
  refine .argument fun l => .table? fun left => .argument fun r => .table? fun right =>
    .argumentContent fun columns => .argumentContent fun condition => ?_
  split
  · refine .bind (steady_columnNames _) fun names => .bind (steady_columnsOf _) fun leftColumns =>
      .bind (steady_columnsOf _) fun rightColumns => .bind (steady_newMembers _) fun members =>
      .bind (.sequence _) fun rightRows => .bind (.sequence _) fun leftRows =>
      .bind (.mapM (fun leftRow => .filterMapM (steady_joinRows _ _ _ _ _ _ _ leftRow) _) _)
        fun rows => ?_
    dsimp only
    split
    · exact .report _ _
    · exact .bind (steady_newSchema _ _) fun schema => steady_newTable _ _ _
  · exact .newNone

theorem steady_pickRow (all : List (String × TypeRef)) (given : List String) (members : Nat)
    (row : Ref) : K.Steady (pickRow all given members row) := by
  refine .bind (steady_cells? row) fun cells => ?_
  split
  · exact .bind (steady_newRowType _) fun _ => .map (.newTuple _ _) _
  · exact .pure _

theorem steady_runGetColumns : K.Steady (runGetColumns position) := by
  refine .argument fun r => .table? fun table => .argumentContent fun given => ?_
  split
  · refine .bind (steady_columnsOf _) fun all => .bind .store fun s => ?_
    dsimp only
    split
    · exact .report _ _
    · exact .bind (steady_newMembers _) fun members => .bind (steady_newSchema _ _) fun schema =>
        .bind (.sequence _) fun rows => .bind (.filterMapM (steady_pickRow _ _ _) rows) fun kept =>
        steady_newTable _ _ _
  · exact .newNone

theorem steady_runGetColumn : K.Steady (runGetColumn position) := by
  refine .argument fun r => .table? fun table => .argumentContent fun name => ?_
  split
  · refine .bind (steady_columnsOf _) fun columns => ?_
    split
    · exact .report _ _
    · exact .report _ _
    · refine .bind (.sequence _) fun rows => .bind (.filterMapM (fun row => ?_) rows) fun cells =>
        .newList _ _
      refine .bind (steady_cells? row) fun cells => ?_
      split
      · split
        · exact .pure _
        · exact .fault _ rfl
      · exact .pure _
  · exact .newNone

theorem steady_runCollect : K.Steady (runCollect position) := by
  refine .argument fun r => .table? fun table => ?_
  split
  · refine .bind (.object _) fun o => ?_
    split
    · exact .bind (steady_newRowType _) fun _ => .new _ _
    · exact .newNone
  · exact .newNone

theorem steady_runCount : K.Steady (runCount position) := by
  refine .argument fun r => .table? fun table => ?_
  split
  · exact .bind (.sequence _) fun rows => .newInt _
  · exact .newNone

/-! ### Changing tables -/

section

variable (hedits : K.Edits)
include hedits

theorem steady_extendRow (type : TypeRef) (value row : Ref) :
    K.Steady (extendRow type value row) := by
  refine .bind (.typeOf row) fun t => ?_
  dsimp only
  split
  · refine .bind (.change hedits _) fun _ => .bind (.content row) fun c => ?_
    split
    · exact .change hedits _
    · exact .pure _
  · refine .bind (.content row) fun c => ?_
    split
    · exact .change hedits _
    · exact .pure _

variable (t : TableView)

theorem steady_extendSchema (name : String) (type : TypeRef) :
    K.Steady (extendSchema t name type) := by
  unfold extendSchema
  split
  · refine .bind (.change hedits _) fun _ => .bind (.content _) fun c => ?_
    split
    · exact .change hedits _
    · exact .pure _
  · exact .pure _

variable (position : Option Position)

theorem steady_runWith : K.Steady (runWith position) := by
  refine .argument fun r => .argumentContent fun name => .argumentContent fun values =>
    .table? fun table => ?_
  split
  · refine .bind (.sequence _) fun rows => .bind (.sequence _) fun values => ?_
    split
    · exact .report _ _
    · split
      · exact .report _ _
      · refine .bind (.typeOf _) fun type => .bind (steady_extendSchema hedits _ _ type) fun _ =>
          .bind (.forM fun p _ => ?_) fun _ => .pure r
        cases p with
        | mk value row => exact steady_extendRow hedits type value row
  · exact .newNone

theorem steady_adoptRow (row : Ref) : K.Steady (adoptRow t row) := by
  refine .bind (.object row) fun o => ?_
  split
  · exact .change hedits _
  · exact .pure _

theorem steady_appendRows (source turns index : Nat) :
    K.Steady (appendRows position t source turns index) := by
  induction turns generalizing index with
  | zero => exact .fault _ rfl
  | succ turns ih =>
    refine .bind (.element? source index) fun row => ?_
    cases row with
    | none => exact .pure true
    | some row =>
      refine .bind (steady_cells? row) fun cells => ?_
      cases cells with
      | none => exact ih _
      | some cells =>
        refine .bind (steady_columnsOf t) fun columns => ?_
        split
        · exact .report _ _
        · refine .bind (steady_cellsConform position cells columns) fun fits => ?_
          split
          · exact .bind (steady_adoptRow hedits t row) fun _ => .bind (.change hedits _) fun _ =>
              ih _
          · exact .pure false

theorem steady_runAppend : K.Steady (runAppend position) := by
  refine .argument fun r => .argumentContent fun rows =>
    .table? fun table => ?_
  split
  · refine .bind (.sequence _) fun refs =>
      .bind (steady_appendRows hedits _ position _ _ _) fun done => ?_
    split
    · exact .pure r
    · exact .newNone
  · exact .newNone

theorem steady_dropMember (members index : Nat) : K.Steady (dropMember members index) := by
  refine .bind .store fun s => ?_
  split
  · exact .change hedits _
  · exact .fault _ rfl

theorem steady_dropFromSchema (schema : Ref) (index : Nat) :
    K.Steady (dropFromSchema schema index) := by
  refine .bind (.make fun s => s.extends_addRegion _) fun copy => .bind (.content copy) fun c => ?_
  dsimp only
  split
  · refine .bind (.change hedits _) fun _ => .bind (.object copy) fun o => ?_
    split
    · exact .bind (steady_dropMember hedits _ _) fun _ => .pure copy
    · exact .pure copy
  · refine .bind (.object copy) fun o => ?_
    split
    · exact .bind (steady_dropMember hedits _ _) fun _ => .pure copy
    · exact .pure copy

theorem steady_dropFromRow (type : TypeRef) (index : Nat) (row : Ref) :
    K.Steady (dropFromRow type index row) := by
  refine .bind (.content row) fun c => ?_
  split
  · refine .bind (.new _ _) fun dropped => .bind (.sequence _) fun cells => ?_
    split
    · exact .bind (.change hedits _) fun _ => .pure _
    · exact .fault _ rfl
  · exact .pure _

theorem steady_runDrop : K.Steady (runDrop position) := by
  refine .argument fun r => .table? fun table => .argumentContent fun column => ?_
  split
  · refine .bind (steady_columnsOf _) fun columns => ?_
    split
    · exact .report _ _
    · refine .bind (steady_dropFromSchema hedits _ _) fun schema => ?_
      split
      · exact .bind (steady_dropMember hedits _ _) fun _ => .bind (steady_newRowType _) fun row =>
          .bind (.sequence _) fun rows =>
          .bind (.filterMapM (steady_dropFromRow hedits row _) rows) fun kept =>
            steady_newTable _ _ _
      · exact .newNone
  · exact .newNone

end

/-! ## Files -/

theorem steady_fieldValue (field : String) : K.Steady (fieldValue field) := by
  unfold fieldValue
  split
  · exact .newNone
  · split
    · split
      · exact .newInt _
      · exact .fault _ rfl
    · split
      · exact .newBool _
      · split
        · exact .newBool _
        · exact .newString _

theorem steady_readRow (type : TypeRef) (columns : List (String × TypeRef))
    (fields : List String) :
    K.Steady (readRow position type columns fields) := by
  refine .bind (.mapM steady_fieldValue fields) fun cells =>
    .bind (steady_cellsConform position cells columns) fun fits => ?_
  split
  · exact .map (.newTuple _ _) _
  · exact .pure _

theorem steady_runReadCsv (hinside : K.Inside) (hedits : K.Edits) (p : Position) :
    K.Steady (runReadCsv (some p)) := by
  refine .argument fun schema => .argumentContent fun name => .argumentContent fun header =>
    .bind (.content schema) fun c => ?_
  split
  · unfold readTable
    refine K.holds_readingFile p _ hinside hedits fun file => ?_
    refine Steady.bind (.ofExcept (Csv.unmixed_parse _)) fun lines => .bind .store fun s =>
      .bind (.object schema) fun o => ?_
    split
    · split
      · exact .report _ _
      · exact .bind (steady_newRowType _) fun row =>
          .bind (.filterMapM (steady_readRow _ row _) _) fun rows => steady_newTable _ _ _
    · exact .newNone
  · exact .newNone

theorem steady_cellItem : K.Steady (cellItem r) := by
  refine .bind (.content r) fun c => ?_
  cases c <;> first | exact .pure _ | exact .fault _ rfl

theorem steady_runWriteCsv (hinside : K.Inside) (hedits : K.Edits) :
    K.Steady (runWriteCsv position) := by
  refine .argument fun r => .table? fun table => .argumentContent fun name =>
    .argumentContent fun header => ?_
  split
  · refine .bind (steady_columnsOf _) fun columns => .bind (.sequence _) fun rows =>
      .bind (.filterMapM (fun row => ?_) rows) fun lines => K.holds_writingFile _ _ _ hinside hedits
    refine .bind (steady_cells? row) fun cells => ?_
    split
    · exact .map (.mapM steady_cellItem _) _
    · exact .pure _
  · exact .newNone

/-! ## Functions on functions -/

section

variable {eval eval' : Evaluator}

section

variable (h : ∀ e t, K.Together (eval e t) (eval' e t))
include h

variable (c : Closure)

theorem together_callWith (scope : Scope Ref TypeRef) (values : List Ref) (expected : TypeRef) :
    K.Together (callWith eval c scope values expected)
      (callWith eval' c scope values expected) :=
  .bind (steady_bindParameters _ _ _) fun scope => .inScope scope fun _ => h c.body expected

theorem together_mapElements (result : TypeRef) (place : Nat) :
    K.Together (mapElements eval c result place) (mapElements eval' c result place) :=
  .bind (.visit (fun r => together_callWith h c c.scope [r] result) place) fun values =>
    Steady.newList _ values

theorem together_filterElements (parameters : List TypeRef) (place : Nat) :
    K.Together (filterElements eval c parameters place)
      (filterElements eval' c parameters place) := by
  cases parameters with
  | nil => exact Steady.fault _ rfl
  | cons first _ =>
    refine .bind (.visit (fun r => ?_) place) fun tested => Steady.newList _ _
    refine .bind (together_callWith h c c.scope [r] .bool) fun b =>
      Steady.bind (.content b) fun content => ?_
    split <;> exact .pure _

end

theorem together_runElements {f g : Closure → List TypeRef → TypeRef → Nat → EvalM Ref}
    (h : ∀ c parameters result place,
      K.Together (f c parameters result place) (g c parameters result place)) (name : String) :
    K.Together (runElements name position f) (runElements name position g) := by
  refine .bind (steady_argument _ _) fun iterable => .bind (steady_argument _ _) fun r =>
    .bind (Steady.object r) fun function => ?_
  obtain ⟨type, content⟩ := function
  cases type with
  | func parameters result =>
    cases content with
    | func c =>
      exact .bind (Steady.elements name iterable position) fun place =>
        .bind (Steady.sequence place) fun refs =>
        .ite _ Steady.newNone (h c parameters result place)
    | _ => exact Steady.newNone
  | _ => exact Steady.newNone

theorem steady_foldConforms (start first second result : TypeRef) :
    K.Steady (foldConforms position start first second result) := by
  unfold foldConforms
  split
  · exact .pure true
  · refine .bind (.conforms _ _ _) fun fits => ?_
    split
    · refine .bind (.conforms _ _ _) fun fits => ?_
      split
      · exact .conforms _ _ _
      · exact .pure false
    · exact .pure false

theorem together_runFold (hedits : K.Edits) (h : ∀ e t, K.Together (eval e t) (eval' e t))
    (reverse : Bool) :
    K.Together (runFold eval reverse position) (runFold eval' reverse position) := by
  refine .bind (steady_argument _ _) fun iterable => .bind (steady_argument _ _) fun start =>
    .bind (steady_argument _ _) fun r => .bind (Steady.object r) fun function =>
    .bind (Steady.content iterable) fun collection => ?_
  obtain ⟨type, content⟩ := function
  cases type with
  | func parameters result =>
    cases collection with
    | list place =>
      cases parameters with
      | nil => exact Steady.fault _ rfl
      | cons first rest =>
        cases rest with
        | nil => exact Steady.fault _ rfl
        | cons second _ =>
          refine .bind (Steady.typeOf start) fun startType =>
            .bind (steady_foldConforms position startType first second result) fun fits =>
            .ite _ ?_ Steady.newNone
          cases content with
          | func c =>
            refine .bind (Steady.sequence place) fun refs => .bind (Steady.copyAll _) fun copies =>
              .get (fun _ _ => rfl) fun m => .bind (.foldlM (fun acc r =>
              together_callWith h c m.scope [acc, r] result) _ start)
                fun r => Steady.bind (.change hedits _) fun _ => .pure r
          | _ => exact Steady.newNone
    | _ => exact Steady.newNone
  | _ => exact Steady.newNone

/-- Built-in functions follow every congruence. -/
theorem together_run (hinside : K.Inside) (hedits : K.Edits)
    (h : ∀ e t, K.Together (eval e t) (eval' e t)) (p : Position) (b : Builtin) :
    K.Together (run eval (some p) b) (run eval' (some p) b) := by
  unfold run
  cases b with
  | readln => exact steady_runReadln
  | print | println => exact steady_runPrint _ _
  | map => exact together_runElements _ (fun c _ => together_mapElements h c) _
  | filter =>
    exact together_runElements _ (fun c parameters _ => together_filterElements h c parameters) _
  | foldl | foldr => exact together_runFold _ hedits h _
  | zip => exact steady_runZip _
  | len => exact steady_runLen _
  | isEmpty => exact steady_runIsEmpty _
  | insert => exact steady_runInsert _
  | remove => exact steady_runRemove _
  | replace => exact steady_runReplace _
  | front | back => exact steady_runPick _ _
  | head | tail => exact steady_runCut _ _
  | slice => exact steady_runSlice _
  | contains => exact steady_runContains _
  | find => exact steady_runFind _
  | fill => exact steady_runFill _
  | reverse => exact steady_runReverse _
  | set => exact steady_runSet _
  | intersect => exact steady_runIntersect _
  | substr => exact steady_runSubstr _
  | toStr => exact steady_runToStr _
  | joinStr => exact steady_runJoinStr _
  | toUpper | toLower => exact steady_runChange _ _
  | startsWith | endsWith => exact steady_runTest _ _
  | toInt => exact steady_runToInt _
  | sum | product => exact steady_runTotal _ _ _
  | max | min => exact steady_runBest _ _
  | sort => exact steady_runSort _
  | createTable => exact steady_runCreateTable _
  | column => exact steady_runColumn _
  | readCsv => exact steady_runReadCsv hinside hedits p
  | writeCsv => exact steady_runWriteCsv _ hinside hedits
  | join => exact steady_runJoin _
  | «with» => exact steady_runWith hedits _
  | select => exact steady_runSelect _
  | drop => exact steady_runDrop hedits _
  | getColumns => exact steady_runGetColumns _
  | getColumn => exact steady_runGetColumn _
  | collect => exact steady_runCollect _
  | count => exact steady_runCount _
  | append => exact steady_runAppend hedits _
  | type => exact steady_runType _
  | rand => exact steady_runRand _

end

end Primitive

end TableScript
