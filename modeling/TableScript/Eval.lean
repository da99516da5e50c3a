import TableScript.Eval.Step

/-!
Evaluation. Evaluations may nest a thousand levels deep; a deeper one is an error, so that a program
without end is stopped.
-/

namespace TableScript

namespace EvalM

def depthLimit : Nat := 1000

/-- Counts an evaluation in progress; one too many is an error at the expression. -/
def descend (e : Expr) : EvalM Unit := do
  modify fun m => { m with depth := m.depth + 1 }
  if depthLimit < (← get).depth then
    report "Maximum expression depth exceeded, possible infinite recursion" (← noteOf e).position

def ascend : EvalM Unit :=
  modify fun m => { m with depth := m.depth - 1 }

/-- The value of an expression where a type is expected, to a depth of evaluations within
evaluations. -/
def eval : Nat → Primitive.Evaluator
  | 0, _, _ => fault .tooDeep
  | depth + 1, e, expected => do
    descend e
    let r ← step (eval depth) e expected
    ascend
    return r

/-- What comes of a program that halts. It gives none, after a fault has been reported; but one that
goes on for ever gives nothing at all. -/
def halted : Halt → StateM Machine (Except Fault Ref)
  | .reported => giveNone
  | .fault f => do
    if f.ends then
      modify fun m => { m with
        console := m.console.errorFault "Unhandled exception while interpreting: " f }
      giveNone
    else return .error f
where
  giveNone := modifyGet fun m =>
    let (r, store) := m.store.add ⟨.none, .none⟩
    (.ok r, { m with store })

/-- The value of a program. The limit on the depth ends a run before the levels run out. -/
def interpret (root : Expr) : StateM Machine (Except Fault Ref) := do
  match ← (eval (depthLimit + 1) root .any).run with
  | .ok r => return .ok r
  | .error halt => halted halt

end EvalM

end TableScript
