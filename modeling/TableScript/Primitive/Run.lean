import TableScript.Primitive.Collection
import TableScript.Primitive.File
import TableScript.Primitive.Io
import TableScript.Primitive.List
import TableScript.Primitive.Number
import TableScript.Primitive.Text

/-!
The built-in functions by name.
-/

namespace TableScript.Primitive

/-- The value of a built-in function on the arguments in the scope; `eval` evaluates the bodies of
functions that are passed to it. -/
def run (eval : Evaluator) (position : Option Position) : Builtin → EvalM Ref
  | .readln => runReadln
  | .print => runPrint "" position
  | .println => runPrint "\n" position
  | .map => runMap eval position
  | .filter => runFilter eval position
  | .foldl => runFold eval false position
  | .foldr => runFold eval true position
  | .zip => runZip position
  | .len => runLen position
  | .isEmpty => runIsEmpty position
  | .insert => runInsert position
  | .remove => runRemove position
  | .replace => runReplace position
  | .front => runFront position
  | .back => runBack position
  | .head => runHead position
  | .tail => runTail position
  | .slice => runSlice position
  | .contains => runContains position
  | .find => runFind position
  | .fill => runFill position
  | .reverse => runReverse position
  | .set => runSet position
  | .intersect => runIntersect position
  | .substr => runSubstr position
  | .toStr => runToStr position
  | .joinStr => runJoinStr position
  | .toUpper => runChange Text.upper position
  | .toLower => runChange Text.lower position
  | .startsWith => runTest (fun s t => t.isPrefixOf s) position
  | .endsWith => runTest (fun s t => t.isSuffixOf s) position
  | .toInt => runToInt position
  | .sum => runTotal (· + ·) 0 position
  | .product => runTotal (· * ·) 1 position
  | .max => runBest (fun m n => decide (n < m)) position
  | .min => runBest (fun m n => decide (m < n)) position
  | .sort => runSort position
  | .createTable => runCreateTable position
  | .column => runColumn position
  | .readCsv => runReadCsv position
  | .writeCsv => runWriteCsv position
  | .join => runJoin position
  | .with => runWith position
  | .select => runSelect position
  | .drop => runDrop position
  | .getColumns => runGetColumns position
  | .getColumn => runGetColumn position
  | .collect => runCollect position
  | .count => runCount position
  | .append => runAppend position
  | .type => runType position
  | .rand => runRand position

end TableScript.Primitive
