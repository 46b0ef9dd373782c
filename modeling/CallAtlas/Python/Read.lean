import CallAtlas.Python.Grammar.Statement
/-!
# Reading a file

`read` gives the concrete tree of a source text. A text that the grammar does not accept gets a
tree that ends in an `error` node on the row of the statement that is to blame, which is the
outermost one unless a smaller one is known.
-/

namespace CallAtlas.Python

open Scan (Found)

/-- The grammar's rules, nested at most `depth` deep. -/
def rules (fuel : Nat) : (depth : Nat) → Goal → Parse (List Tree)
  | 0, _ => do fault (← peek .fixed)
  | depth + 1, goal =>
    let g : Grammar := ⟨rules fuel depth, fuel⟩
    match goal with
    | .expression start context level => g.expressionAt start context level
    | .operand start context level => g.operand start context level
    | .type start context bounded => g.typeAt start context bounded
    | .interpolation kind => g.interpolation kind
    | .assigned => g.assigned
    | .lambdaParameters => g.lambdaParameters
    | .casePattern start context => g.casePattern start context
    | .simplePattern start context => g.simplePattern start context
    | .statement outer => g.statement outer
    | .suite => g.suite

/-- The mode between the statements of a file. -/
def fileMode : Mode := { string := true }

/-- Reads the statements up to the end of the source, and the comments there. -/
def statements (rule : Goal → Parse (List Tree)) :
    (fuel : Nat) → Scan → (before : List (List Tree)) → List Tree
  | 0, s, before => before.reverse.flatten ++ [.leaf .error s.row [] []]
  | fuel + 1, s, before =>
    let f := s.next fileMode
    match f.lexeme with
    | .finish => before.reverse.flatten ++ f.extras
    | _ =>
      match rule (.statement fileMode) s with
      | .ok (parts, s') => statements rule fuel s' (parts :: before)
      | .error e =>
        before.reverse.flatten ++ [.leaf .error (e.origin.getD f.start.row) [] []]

/-- The concrete tree of a source text. Every nesting of rules passes a token after a few steps, so
that a multiple of the length bounds the depth. -/
def read (source : String) : Tree :=
  let text := source.toList
  let text := if text.head? == some '\ufeff' then text.drop 1 else text
  let fuel := text.length + 2
  .branch .module (statements (rules fuel (16 * fuel)) fuel { rest := text } [])

end CallAtlas.Python
