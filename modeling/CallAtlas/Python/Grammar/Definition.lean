import CallAtlas.Python.Grammar.Expression
/-!
# Parameters, types and patterns

The rules for the parameters of functions and lambdas, for types of names and results, and for the
patterns of `case` clauses.
-/

namespace CallAtlas.Python

open Scan (Found)

namespace Grammar

variable (g : Grammar)

/-! ### Types -/

/-- The type arguments between square brackets. -/
def typeParameter (start : Mode) : Parse (List Tree) := do
  let opening ← mark start "["
  let first ← g.rule (.type .operand bracketed true)
  let more ← furtherItems bracketed.after bracketed.optional
    (fun f => !f.startsExpression && !f.isMark "**")
    (g.rule (.type bracketed.optional bracketed true)) g.fuel []
  return Tree.wrap .typeParameter (opening ++ first ++ more ++ (← mark bracketed.after "]"))

def startsGeneric (f : Found) (context : Context) : Bool :=
  match f.lexeme with
  | .word text =>
    !f.isOneOf ["not", "lambda", "True", "False", "None", "print", "exec", "async", "await",
      "match"] && ((f.start.advance text.length).next context.after).isMark "["
  | _ => false

/-- Whether a token is a star with a lone name behind it. -/
def startsSplat (f : Found) (context : Context) : Bool :=
  f.isMark "**" ||
    (f.isMark "*" &&
      let inner := (f.start.advance 1).next .operand
      match inner.lexeme with
      | .word text =>
        let after := (inner.start.advance text.length).next context.after
        !after.isMark "[" && !after.isMark "(" && (binaryStrength after.mark).isNone
      | _ => false)

/-- A type without the operators on types. -/
def typeHead (start : Mode) (context : Context) : Parse (List Tree) := do
  let f ← peek start
  if startsSplat f context then
    let star ← consumeMark f
    return Tree.wrap .typeExpression (Tree.wrap .splatType (star ++ (← name .fixed)))
  else if startsGeneric f context then
    let word ← consumeWord f .identifier
    return Tree.wrap .typeExpression
      (Tree.wrap .genericType (word ++ (← g.typeParameter context.after)))
  else return Tree.wrap .typeExpression (← g.expression start context)

/-- A type; `bounded` lets a bound follow after a colon. -/
def typeAt (start : Mode) (context : Context) (bounded : Bool) : Parse (List Tree) := do
  let head ← g.typeHead start context
  extendBy (fun left => do
    let f ← peek context.after
    if f.isMark "|" then
      let bar ← consumeMark f
      let right ← g.typeHead .operand context
      return some (Tree.wrap .typeExpression (Tree.wrap .unionType (left ++ bar ++ right)))
    else if f.isMark "." then
      let dot ← consumeMark f
      return some (Tree.wrap .typeExpression
        (Tree.wrap .memberType (left ++ dot ++ (← name .fixed))))
    else if bounded && f.isMark ":" then
      let colon ← consumeMark f
      let bound ← g.rule (.type .operand context true)
      return some (Tree.wrap .typeExpression
        (Tree.wrap .constrainedType (left ++ colon ++ bound)))
    else return none) g.fuel head

/-! ### Parameters -/

/-- A star or two stars in front of a parameter. A lone star separates. -/
def starParameter (start : Mode) (context : Context) :
    Parse (List Tree) := do
  let f ← peek start
  let double := f.isMark "**"
  let star ← consumeMark f
  let next ← peek context.optional
  if !double && !next.startsExpression then
    return Tree.wrap .keywordSeparator star
  else
    let operand ← g.postfixes context (← g.atom context.optional context)
    let plain := operand.dropWhile (·.kind.isExtra)
    if plain.all (fun t => [.identifier, .attribute, .subscript].contains t.kind) then
      let kind := if double then Kind.dictionarySplatPattern else .listSplatPattern
      return Tree.wrap kind (star ++ operand)
    else fault f

/-- One parameter; `typed` tells whether a type may follow, as it may not in a lambda. -/
def parameter (typed : Bool) (start : Mode)
    (context : Context) : Parse (List Tree) := do
  let f ← peek start
  let typeOf : Parse (List Tree) := g.rule (.type .operand context true)
  let value : Parse (List Tree) := g.expression .operand context
  if f.isMark "*" || f.isMark "**" then
    let star ← g.starParameter start context
    let separates := star.any (·.kind == .keywordSeparator)
    match ← (if typed && !separates then mark? context.after ":" else pure none) with
    | some colon => return Tree.wrap .typedParameter (star ++ colon ++ (← typeOf))
    | none => return star
  else if f.isMark "/" then
    return Tree.wrap .positionalSeparator (← consumeMark f)
  else
    let isName := match f.lexeme with
      | .word _ => true
      | _ => false
    let target ← if isName then consumeWord f .identifier
      else if f.isMark "(" then do
        let group ← g.parenthesized start
        if areTargets group then pure group else fault f
      else fault f
    match ← (if typed && isName then mark? context.after ":" else pure none) with
    | some colon =>
      let type ← typeOf
      match ← mark? context.after "=" with
      | some equals =>
        return Tree.wrap .typedDefaultParameter (target ++ colon ++ type ++ equals ++ (← value))
      | none => return Tree.wrap .typedParameter (target ++ colon ++ type)
    | none =>
      match ← mark? context.after "=" with
      | some equals => return Tree.wrap .defaultParameter (target ++ equals ++ (← value))
      | none => return target

def startsParameter (f : Found) : Bool :=
  match f.lexeme with
  | .word _ => true
  | _ => ["(", "*", "**", "/"].any f.isMark

/-- The parameters of a lambda; they bear no types. -/
def lambdaParameters : Parse (List Tree) := do
  let first ← g.parameter false .fixed {}
  let more ← furtherItems .fixed .fixed (!startsParameter ·) (g.parameter false .fixed {}) g.fuel []
  return Tree.wrap .lambdaParameters (first ++ more)

/-- The parameters of a function in their parentheses. -/
def parameters (start : Mode) : Parse (List Tree) := do
  let opening ← mark start "("
  let inside : Mode := bracketed.after
  match ← mark? inside ")" with
  | some closing => return Tree.wrap .parameters (opening ++ closing)
  | none =>
    let item := g.parameter true inside bracketed
    let first ← item
    let more ← furtherItems inside inside (!startsParameter ·) item g.fuel []
    return Tree.wrap .parameters (opening ++ first ++ more ++ (← mark inside ")"))

/-! ### Patterns of `case` clauses -/

def dottedName (start : Mode) (context : Context) : Parse (List Tree) := do
  let first ← name start
  let more ← readMany (do
    match ← mark? context.after "." with
    | some dot => return some (dot ++ (← name .fixed))
    | none => return none) g.fuel []
  return Tree.wrap .dottedName (first ++ more)

/-- The items of a bracketed pattern and the closing bracket. -/
def patternItems (close : String) (item : Mode → Parse (List Tree)) : Parse (List Tree) := do
  let inside := bracketed.optional
  match ← mark? inside close with
  | some closing => return closing
  | none =>
    let first ← item inside
    let more ← furtherItems bracketed.after inside (·.isMark close) (item inside) g.fuel []
    return first ++ more ++ (← mark bracketed.after close)

/-- A number, with a sign or as a sum of two numbers. -/
def numberPattern (start : Mode) (context : Context) : Parse (List Tree) := do
  let f ← peek start
  let sign ← if f.isMark "-" then consumeMark f else pure []
  let number (m : Mode) : Parse (List Tree) := do
    let f ← peek m
    match f.number with
    | some (kind, n) => consume f kind n
    | none => fault f
  let first ← number (if sign.isEmpty then start else .fixed)
  let f ← peek context.after
  if f.isMark "+" || f.isMark "-" then
    let operator ← consumeMark f
    return Tree.wrap .complexPattern (sign ++ first ++ operator ++ (← number .fixed))
  else return sign ++ first

def splatPattern (start : Mode) : Parse (List Tree) := do
  let star ← consumeMark (← peek start)
  let f ← peek .fixed
  let kind := if f.isWord "_" then Kind.symbol else .identifier
  return Tree.wrap .splatPattern (star ++ (← consumeWord f kind))

/-- A pattern without alternatives. -/
def closedPattern (start : Mode) (context : Context) : Parse (List Tree) := do
  let f ← peek start
  let inner (m : Mode) : Parse (List Tree) := g.rule (.casePattern m bracketed)
  match f.lexeme with
  | .quote .. => g.literals start context
  | .word _ =>
    if f.isWord "True" then consumeWord f .trueLiteral
    else if f.isWord "False" then consumeWord f .falseLiteral
    else if f.isWord "None" then consumeWord f .noneLiteral
    else if f.isWord "_" then consumeWord f .symbol
    else
      let dotted ← g.dottedName start context
      match ← mark? context.after "(" with
      | some opening =>
        return Tree.wrap .classPattern (dotted ++ opening ++ (← g.patternItems ")" inner))
      | none => return dotted
  | _ =>
    if f.isMark "*" || f.isMark "**" then splatPattern start
    else if f.isMark "-" || f.number.isSome then numberPattern start context
    else if f.isMark "[" then
      let opening ← consumeMark f
      return Tree.wrap .sequencePattern (opening ++ (← g.patternItems "]" inner))
    else if f.isMark "(" then
      let opening ← consumeMark f
      return Tree.wrap .groupPattern (opening ++ (← g.patternItems ")" inner))
    else if f.isMark "\x7b" then
      let opening ← consumeMark f
      let item (m : Mode) : Parse (List Tree) := do
        let f ← peek m
        if f.isMark "*" || f.isMark "**" then splatPattern m
        else
          let key ← g.rule (.simplePattern m {})
          let colon ← mark .fixed ":"
          return key ++ colon ++ (← inner .operand)
      return Tree.wrap .dictPattern (opening ++ (← g.patternItems "\x7d" item))
    else fault f

/-- Alternatives between bars. -/
def simplePattern (start : Mode) (context : Context) : Parse (List Tree) := do
  let first ← g.closedPattern start context
  let more ← readMany (do
    match ← mark? context.after "|" with
    | some bar => return some (bar ++ (← g.closedPattern .operand context))
    | none => return none) g.fuel []
  return if more.isEmpty then first else Tree.wrap .unionPattern (first ++ more)

/-- Whether a token is a name with an equals sign behind it. -/
def startsKeywordPattern (f : Found) (context : Context) : Bool :=
  match f.lexeme with
  | .word text =>
    !f.isOneOf ["True", "False", "None", "_"] &&
      ((f.start.advance text.length).next context.after).isMark "="
  | _ => false

/-- A pattern, perhaps bound to a name. -/
def casePattern (start : Mode) (context : Context) : Parse (List Tree) := do
  let f ← peek start
  let head ←
    if startsKeywordPattern f context then do
      let word ← consumeWord f .identifier
      let equals ← mark context.after "="
      pure (Tree.wrap .keywordPattern (word ++ equals ++ (← g.simplePattern .operand context)))
    else g.simplePattern start context
  extendBy (fun left => do
    let f ← peek context.after
    if f.isWord "as" then
      let word ← consumeWord f .symbol
      return some (Tree.wrap .casePattern
        (Tree.wrap .asPattern (left ++ word ++ (← name .fixed))))
    else return none) g.fuel (Tree.wrap .casePattern head)

end Grammar

end CallAtlas.Python
