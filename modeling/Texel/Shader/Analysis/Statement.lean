import Texel.Shader.Analysis.Declaration
import Texel.Shader.Grammar

/-!
# Analysis of statements and functions

Statements are analysed in order. Behind the end of a block, by a jump or a return, expressions are
still read, but calls and writes are left out.
-/

namespace Texel.Shader.Analyze

/-- Analyses an expression for its effects. -/
def effect (e : Expression) : Analyze Unit := do
  let _ ← value true e

/-- Runs an analysis after which reaching is as it was before. -/
def apart {α : Type} (x : Analyze α) : Analyze α := do
  let reachable := (← get).reachable
  let result ← x
  modify fun a => { a with reachable }
  return result

mutual

/-- Analyses a statement, and answers whether it ends the block it stands in. -/
def statement : Statement → Analyze Bool
  | .declare d => do
    declareWithin d
    return false
  | .evaluate e => do
    effect e
    return false
  | .block body => do apart (enclosed (statements (← get).reachable false body))
  | .branch condition accept reject => do
    effect condition
    let _ ← apart (statement accept)
    let _ ← apart (statement reject)
    return false
  | .select selector body => do
    effect selector
    let _ ← apart (enclosed (statements (← get).reachable false body))
    return false
  | .label e => do
    e.forM effect
    return false
  | .loop first condition step body => do
    enclosed do
      let _ ← statement first
      condition.forM effect
      let _ ← apart (statement body)
      step.forM effect
    return false
  | .leave e => do
    e.forM effect
    return true
  | .jump => return true

/-- Analyses the statements of a block, and answers whether the block has ended before or in them.
What follows a label can be reached if the block can. -/
def statements (reachable ended : Bool) : List Statement → Analyze Bool
  | [] => return ended
  | s :: rest => do
    let ends ← statement s
    match s with
    | .label _ => modify fun a => { a with reachable }
    | _ => if ends then modify fun a => { a with reachable := false }
    statements reachable (ended || ends) rest

end

/-- Analyses a function with its body. -/
def function (s : Signature) (body : List Statement) : Analyze Unit := do
  let r ← routineOf s
  let before ← get
  let parameters := (s.parameters.zip r.parameters).filterMap fun (p, type) =>
    p.name.map fun name => (name, ({ type := type.type } : Entry))
  set { before with scopes := [parameters.reverse], uses := [], calls := [], reachable := true }
  let _ ← statement (.block body)
  let after ← get
  set { after with
    scopes := before.scopes
    uses := before.uses
    calls := before.calls
    reachable := before.reachable }
  defineRoutine { r with defined := true, uses := after.uses, calls := after.calls }

def item : Item → Analyze Unit
  | .declaration d => declareOuter d
  | .function s body => function s body

def items : List Item → Analyze Unit
  | [] => return
  | i :: rest => do
    item i
    items rest

end Texel.Shader.Analyze
