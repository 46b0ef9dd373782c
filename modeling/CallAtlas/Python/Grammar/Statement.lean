import CallAtlas.Python.Grammar.Definition
/-!
# Statements

The rules for simple and compound statements and for blocks. A block may be indented, may share the
line of its header, or may be empty. Words such as `print`, `match` and `type` open statements of
their own only where they cannot be read as names.
-/

namespace CallAtlas.Python

open Scan (Found)

def lineContext : Context := { newline := true }

def augmentedMarks : List String :=
  ["+=", "-=", "*=", "/=", "@=", "//=", "%=", "**=", ">>=", "<<=", "&=", "^=", "|="]

namespace Grammar

variable (g : Grammar)

/-! ### Assignments and expressions -/

/-- The rest of an assignment behind its targets, if one follows. -/
def assignmentTail (targets : List Tree) (several : Bool) :
    Parse (Option (List Tree)) := do
  let f ← peek lineContext.after
  let left := if several then Tree.wrap .patternList targets else targets
  let augmented := augmentedMarks.any f.isMark
  if f.isMark "=" || f.isMark ":" || augmented then
    if !areTargets targets then fault f
    else if f.isMark ":" then
      let colon ← consumeMark f
      let type ← g.rule (.type .operand lineContext true)
      match ← mark? lineContext.after "=" with
      | some equals =>
        return some (Tree.wrap .assignment
          (left ++ colon ++ type ++ equals ++ (← g.rule .assigned)))
      | none => return some (Tree.wrap .assignment (left ++ colon ++ type))
    else
      let sign ← consumeMark f
      let kind := if augmented then Kind.augmentedAssignment else .assignment
      return some (Tree.wrap kind (left ++ sign ++ (← g.rule .assigned)))
  else return none

/-- A value behind an assignment sign, or a further assignment. -/
def assigned : Parse (List Tree) := do
  if (← peek .operand).isWord "yield" then g.yieldForm .operand lineContext
  else
    let first ← g.expression .operand lineContext
    let more ← g.moreExpressions lineContext (g.expression lineContext.optional lineContext)
    match ← g.assignmentTail (first ++ more) (!more.isEmpty) with
    | some parts => return parts
    | none => return if more.isEmpty then first else Tree.wrap .expressionList (first ++ more)

/-- An expression, several expressions, an assignment or a `yield`. -/
def expressionStatement (start : Mode) : Parse (List Tree) := do
  if (← peek start).isWord "yield" then
    return Tree.wrap .expressionStatement (← g.yieldForm start lineContext)
  else
    let first ← g.expression start lineContext
    let more ← g.moreExpressions lineContext (g.expression lineContext.optional lineContext)
    match ← g.assignmentTail (first ++ more) (!more.isEmpty) with
    | some parts => return Tree.wrap .expressionStatement parts
    | none => return Tree.wrap .expressionStatement (first ++ more)

def endsStatement (f : Found) : Bool :=
  match f.lexeme with
  | .newline => true
  | _ => f.isMark ";"

/-- A simple statement that must reach its end. -/
def complete (statement : Parse (List Tree)) : Parse (List Tree) := do
  let parts ← statement
  let f ← peek lineContext.after
  if endsStatement f then return parts else fault f

/-! ### Imports -/

def importedName (start : Mode) (context : Context) : Parse (List Tree) := do
  let dotted ← g.dottedName start context
  let f ← peek context.after
  if f.isWord "as" then
    let word ← consumeWord f .symbol
    return Tree.wrap .aliasedImport (dotted ++ word ++ (← name .fixed))
  else return dotted

def isNoWord (f : Found) : Bool :=
  match f.lexeme with
  | .word _ => false
  | _ => true

def importList (context : Context) : Parse (List Tree) := do
  let first ← g.importedName .fixed context
  let more ← furtherItems context.after context.after isNoWord
    (g.importedName context.after context) g.fuel []
  return first ++ more

def importItems : Parse (List Tree) := do
  match ← mark? .fixed "(" with
  | some opening =>
    return opening ++ (← g.importList bracketed) ++ (← mark bracketed.after ")")
  | none => g.importList lineContext

/-- The dots of a relative import; each dot is a token. -/
def importDots : Parse (List Tree) :=
  readMany (do
    let f ← peek .fixed
    match f.lexeme, f.start.rest with
    | .mark, '.' :: _ => some <$> consume f .symbol 1
    | _, _ => return none) g.fuel []

def importFrom (word : List Tree) : Parse (List Tree) := do
  let f ← peek .fixed
  if f.isWord "__future__" then
    let future ← consumeWord f .symbol
    let verb ← keyword .fixed "import"
    return Tree.wrap .futureImportStatement (word ++ future ++ verb ++ (← g.importItems))
  else
    let dots ← g.importDots
    let module ←
      if dots.isEmpty then g.dottedName .fixed {}
      else if (← peek .fixed).isWord "import" then
        pure (Tree.wrap .relativeImport (Tree.wrap .importDots dots))
      else
        let dotted ← g.dottedName .fixed {}
        pure (Tree.wrap .relativeImport (Tree.wrap .importDots dots ++ dotted))
    let verb ← keyword .fixed "import"
    let items ←
      match ← mark? .fixed "*" with
      | some star => pure (Tree.wrap .wildcardImport star)
      | none => g.importItems
    return Tree.wrap .importFromStatement (word ++ module ++ verb ++ items)

/-! ### Statements that may be names -/

def printStatement (start : Mode) : Parse (List Tree) := do
  let word ← keyword start "print"
  let f ← peek lineContext.optional
  let item := g.expression lineContext.optional lineContext
  let first ←
    if f.isMark ">>" then do
      let arrow ← consumeMark f
      pure (Tree.wrap .chevron (arrow ++ (← g.expression .operand lineContext)))
    else item
  return Tree.wrap .printStatement (word ++ first ++ (← g.moreExpressions lineContext item))

/-- A `print` statement, or an expression that begins with the name `print`. -/
def printOrName (start : Mode) : Parse (List Tree) := do
  let f ← peek start
  if ((f.start.advance 5).next lineContext.optional).isMark ">>" then g.printStatement start
  else orElse (complete (g.expressionStatement start)) (g.printStatement start)

/-- Names and strings that an `exec` statement can take stand before it at a token. -/
def startsExecuted (f : Found) : Bool :=
  match f.lexeme with
  | .quote .. => true
  | .word _ => !f.isOneOf ["and", "or", "in", "is", "not", "if", "as"]
  | _ => false

/-- An `exec` statement, or an expression that begins with the name `exec`. -/
def execOrName (start : Mode) : Parse (List Tree) := do
  let f ← peek start
  let next := (f.start.advance 4).next lineContext.optional
  if startsExecuted next then
    let word ← consumeWord f .symbol
    let code ←
      match next.lexeme with
      | .quote .. => g.literal lineContext.optional
      | _ => name lineContext.optional
    let f ← peek lineContext.after
    if f.isWord "in" then
      let within ← consumeWord f .symbol
      let first ← g.expression .operand lineContext
      let more ← furtherItems lineContext.after .operand (fun _ => false)
        (g.expression .operand lineContext) g.fuel []
      return Tree.wrap .execStatement (word ++ code ++ within ++ first ++ more)
    else return Tree.wrap .execStatement (word ++ code)
  else g.expressionStatement start

def typeAlias (start : Mode) : Parse (List Tree) := do
  let word ← keyword start "type"
  let left ← g.rule (.type .operand {} true)
  let equals ← mark .fixed "="
  let right ← g.rule (.type .operand lineContext true)
  return Tree.wrap .typeAliasStatement (word ++ left ++ equals ++ right)

/-! ### Simple statements -/

/-- A statement of a keyword and names between commas. -/
def namesStatement (kind : Kind) (word : List Tree) : Parse (List Tree) := do
  let first ← name .fixed
  let more ← furtherItems lineContext.after .fixed (fun _ => false) (name .fixed) g.fuel []
  return Tree.wrap kind (word ++ first ++ more)

def simple (start : Mode) : Parse (List Tree) := do
  let f ← peek start
  let word : Parse (List Tree) := consumeWord f .symbol
  let optional : Parse (List Tree) := do
    if (← peek lineContext.optional).startsExpression then
      g.expressions lineContext.optional lineContext
    else return []
  if f.isWord "import" then
    return Tree.wrap .importStatement ((← word) ++ (← g.importList lineContext))
  else if f.isWord "from" then g.importFrom (← word)
  else if f.isWord "print" then g.printOrName start
  else if f.isWord "exec" then g.execOrName start
  else if f.isWord "type" then
    orElse (complete (g.typeAlias start)) (g.expressionStatement start)
  else if f.isWord "assert" then
    let head ← word
    let first ← g.expression .operand lineContext
    let more ← furtherItems lineContext.after .operand (fun _ => false)
      (g.expression .operand lineContext) g.fuel []
    return Tree.wrap .assertStatement (head ++ first ++ more)
  else if f.isWord "return" then return Tree.wrap .returnStatement ((← word) ++ (← optional))
  else if f.isWord "del" then
    return Tree.wrap .deleteStatement ((← word) ++ (← g.expressions .operand lineContext))
  else if f.isWord "raise" then
    let head ← word
    let fromNext : Parse Bool := return (← peek lineContext.optional).isWord "from"
    let raised ←
      if ← fromNext then pure []
      else if (← peek lineContext.optional).startsExpression then do
        let first ← g.expression lineContext.optional lineContext
        let more ← furtherItems lineContext.after lineContext.optional
          (fun f => f.isWord "from" || !f.startsExpression)
          (g.expression lineContext.optional lineContext) g.fuel []
        pure (if more.isEmpty then first else Tree.wrap .expressionList (first ++ more))
      else pure []
    let f ← peek (if raised.isEmpty then lineContext.optional else lineContext.after)
    if f.isWord "from" then
      let link ← consumeWord f .symbol
      let cause ← g.expression .operand lineContext
      return Tree.wrap .raiseStatement (head ++ raised ++ link ++ cause)
    else return Tree.wrap .raiseStatement (head ++ raised)
  else if f.isWord "pass" then return Tree.wrap .passStatement (← word)
  else if f.isWord "break" then return Tree.wrap .breakStatement (← word)
  else if f.isWord "continue" then return Tree.wrap .continueStatement (← word)
  else if f.isWord "global" then g.namesStatement .globalStatement (← word)
  else if f.isWord "nonlocal" then g.namesStatement .nonlocalStatement (← word)
  else g.expressionStatement start

def lineEnd : Parse (List Tree) := do
  let f ← peek lineContext.after
  match f.lexeme with
  | .newline => consume f .symbol 0
  | _ => fault f

/-- Simple statements on one line, with the end of the line. -/
def simpleStatements (start : Mode) : Parse (List Tree) := do
  let first ← g.simple start
  let more ← readMany (do
    match ← mark? lineContext.after ";" with
    | none => return none
    | some semicolon =>
      match (← peek lineContext.optional).lexeme with
      | .newline => return some semicolon
      | _ => return some (semicolon ++ (← g.simple lineContext.optional))) g.fuel []
  return first ++ more ++ (← lineEnd)

/-! ### Blocks -/

def closeBlock (f : Found) : Parse (List Tree) := do
  modify fun s => { s with indents := s.indents.drop 1 }
  return f.leaf .symbol 0

/-- Statements up to the end of a block, with that end. -/
def blockStatements : Parse (List Tree) := do
  let inside : Mode := { dedent := true, string := true }
  let body ← readMany (do
    match (← peek inside).lexeme with
    | .dedent => return none
    | _ => some <$> g.rule (.statement inside)) g.fuel []
  let f ← peek inside
  match f.lexeme with
  | .dedent => return body ++ (← closeBlock f)
  | _ => fault f

/-- The mode behind the colon of a compound statement. -/
def suiteMode : Mode := { newline := true, indent := true, string := true }

def openBlock (f : Found) (width : Nat) : Parse (List Tree) := do
  modify fun s => { s with indents := width :: s.indents }
  return f.leaf .symbol 0

/-- What follows the colon of a compound statement: an indented block, statements on the same line,
or nothing. -/
def suite : Parse (List Tree) := do
  let f ← peek suiteMode
  match f.lexeme with
  | .indent width =>
    let opening ← openBlock f width
    return opening ++ Tree.wrap .block (← g.blockStatements)
  | .newline => consume f .block 0
  | _ => return Tree.wrap .block (← g.simpleStatements suiteMode)

def body : Parse (List Tree) := do
  return (← mark .fixed ":") ++ (← g.rule .suite)

/-! ### Compound statements -/

/-- A keyword, a condition and a block. -/
def conditioned (kind : Option Kind) (f : Found) : Parse (List Tree) := do
  let word ← consumeWord f .symbol
  let condition ← g.expression .operand {}
  let parts := word ++ condition ++ (← g.body)
  return match kind with
    | some k => Tree.wrap k parts
    | none => parts

def elseClause (outer : Mode) : Parse (List Tree) := do
  let f ← peek outer
  if f.isWord "else" then
    let word ← consumeWord f .symbol
    return Tree.wrap .elseClause (word ++ (← g.body))
  else return []

def ifStatement (outer : Mode) (f : Found) : Parse (List Tree) := do
  let head ← g.conditioned none f
  let alternatives ← readMany (do
    let f ← peek outer
    if f.isWord "elif" then some <$> g.conditioned (some .elifClause) f
    else return none) g.fuel []
  return Tree.wrap .ifStatement (head ++ alternatives ++ (← g.elseClause outer))

def whileStatement (outer : Mode) (f : Found) : Parse (List Tree) := do
  let head ← g.conditioned none f
  return Tree.wrap .whileStatement (head ++ (← g.elseClause outer))

/-- A `for` statement behind its optional `async`. -/
def forStatement (outer : Mode) (async : List Tree) (start : Mode) : Parse (List Tree) := do
  let word ← keyword start "for"
  let left ← g.loopTargets
  let within ← keyword .fixed "in"
  let right ← g.expressions .operand {}
  let head := async ++ word ++ left ++ within ++ right ++ (← g.body)
  return Tree.wrap .forStatement (head ++ (← g.elseClause outer))

def withItem (start : Mode) (context : Context) : Parse (List Tree) := do
  return Tree.wrap .withItem (← g.expression start context)

/-- Several items of a `with` statement in parentheses, and the colon. -/
def withGroup : Parse (List Tree) := do
  let opening ← mark .operand "("
  let inside := bracketed.optional
  let first ← g.withItem inside bracketed
  let more ← furtherItems bracketed.after inside (!·.startsExpression)
    (g.withItem inside bracketed) g.fuel []
  let closing ← mark bracketed.after ")"
  let colon ← mark .fixed ":"
  if more.any (·.kind == .withItem) then
    return Tree.wrap .withClause (opening ++ first ++ more ++ closing) ++ colon
  else fault (← peek .fixed)

/-- The items of a `with` statement, and the colon. -/
def withClause : Parse (List Tree) := do
  let plain : Parse (List Tree) := do
    let first ← g.withItem .operand {}
    let more ← furtherItems .fixed .operand (!·.startsExpression)
      (g.withItem .operand {}) g.fuel []
    return Tree.wrap .withClause (first ++ more) ++ (← mark .fixed ":")
  if (← peek .operand).isMark "(" then orElse g.withGroup plain else plain

/-- A `with` statement behind its optional `async`. -/
def withStatement (async : List Tree) (start : Mode) : Parse (List Tree) := do
  let word ← keyword start "with"
  let clause ← g.withClause
  return Tree.wrap .withStatement (async ++ word ++ clause ++ (← g.rule .suite))

def exceptClause (f : Found) : Parse (List Tree) := do
  let word ← consumeWord f .symbol
  let value ←
    if (← peek .operand).isMark ":" then pure []
    else do
      let value ← g.expression .operand {}
      match ← mark? .fixed "," with
      | some comma => pure (value ++ comma ++ (← g.expression .operand {}))
      | none => pure value
  return Tree.wrap .exceptClause (word ++ value ++ (← g.body))

def exceptGroupClause (f : Found) : Parse (List Tree) := do
  let word ← consume f .symbol 7
  return Tree.wrap .exceptGroupClause
    (word ++ (← g.expression .operand {}) ++ (← g.body))

/-- Whether a token is `except` with a star right behind it. -/
def isGroupHandler (f : Found) : Bool :=
  f.isWord "except" && (f.start.rest.drop 6).head? == some '*'

def finallyClause (f : Found) : Parse (List Tree) := do
  let word ← consumeWord f .symbol
  return Tree.wrap .finallyClause (word ++ (← g.body))

def tryStatement (outer : Mode) (f : Found) : Parse (List Tree) := do
  let row := f.start.row
  let word ← consumeWord f .symbol
  let head := word ++ (← g.body)
  let f ← peek { handler := true }
  if f.isWord "finally" then return Tree.wrap .tryStatement (head ++ (← g.finallyClause f))
  else if !f.isWord "except" then faultOf row f
  else
    let groups := isGroupHandler f
    let handler (f : Found) : Parse (List Tree) :=
      if groups then g.exceptGroupClause f else g.exceptClause f
    let behind : Mode := { outer with handler := true }
    let first ← handler f
    let more ← readMany (do
      let f ← peek behind
      if f.isWord "except" && isGroupHandler f == groups then some <$> handler f
      else return none) g.fuel []
    let other ← g.elseClause outer
    let f ← peek outer
    let last ← if f.isWord "finally" then g.finallyClause f else pure []
    return Tree.wrap .tryStatement (head ++ first ++ more ++ other ++ last)

/-- A function behind its decorators and its optional `async`. -/
def functionDefinition (async : List Tree) (start : Mode) : Parse (List Tree) := do
  let word ← keyword start "def"
  let title ← name .fixed
  let typed ← if (← peek .fixed).isMark "[" then g.typeParameter .fixed else pure []
  let parameters ← g.parameters .fixed
  let result ←
    match ← mark? .fixed "->" with
    | some arrow => do pure (arrow ++ (← g.rule (.type .operand {} false)))
    | none => pure []
  return Tree.wrap .functionDefinition
    (async ++ word ++ title ++ typed ++ parameters ++ result ++ (← g.body))

def classDefinition (start : Mode) : Parse (List Tree) := do
  let word ← keyword start "class"
  let title ← name .fixed
  let typed ← if (← peek .fixed).isMark "[" then g.typeParameter .fixed else pure []
  let bases ← if (← peek .fixed).isMark "(" then g.arguments false .fixed else pure []
  return Tree.wrap .classDefinition (word ++ title ++ typed ++ bases ++ (← g.body))

/-- A function or class behind decorators. -/
def decorated (start : Mode) : Parse (List Tree) := do
  let decorator (m : Mode) : Parse (Option (List Tree)) := do
    match ← mark? m "@" with
    | some sign =>
      let value ← g.expression .operand lineContext
      return some (Tree.wrap .decorator (sign ++ value ++ (← lineEnd)))
    | none => return none
  let first ← decorator start
  let more ← readMany (decorator .fixed) g.fuel []
  let f ← peek .fixed
  let definition ←
    if f.isWord "class" then g.classDefinition .fixed
    else
      let async ← if f.isWord "async" then consumeWord f .symbol else pure []
      g.functionDefinition async .fixed
  return Tree.wrap .decoratedDefinition (first.getD [] ++ more ++ definition)

def caseClause (f : Found) : Parse (List Tree) := do
  let word ← consumeWord f .symbol
  let first ← g.rule (.casePattern .operand {})
  let more ← furtherItems .fixed .operand (fun f => f.isMark ":" || f.isWord "if")
    (g.rule (.casePattern .operand {})) g.fuel []
  let f ← peek .fixed
  let guard ←
    if f.isWord "if" then do
      let word ← consumeWord f .symbol
      pure (Tree.wrap .ifClause (word ++ (← g.expression .operand {})))
    else pure []
  return Tree.wrap .caseClause (word ++ first ++ more ++ guard ++ (← g.body))

/-- The subjects and the colon of a `match` statement, and whether its clauses can follow. -/
def matchHead (start : Mode) : Parse (List Tree) := do
  let word ← keyword start "match"
  let first ← g.expression .operand {}
  let more ← furtherItems .fixed .operand (·.isMark ":") (g.expression .operand {}) g.fuel []
  let colon ← mark .fixed ":"
  let f ← peek { newline := true, indent := true }
  match f.lexeme with
  | .newline => return word ++ first ++ more ++ colon
  | .indent width =>
    let s ← get
    let _ ← openBlock f width
    let inside ← peek { dedent := true }
    set s
    match inside.lexeme with
    | .dedent => return word ++ first ++ more ++ colon
    | _ => if inside.isWord "case" then return word ++ first ++ more ++ colon else fault inside
  | _ => fault f

/-- A `match` statement behind its head. -/
def matchStatement (head : List Tree) : Parse (List Tree) := do
  let f ← peek { newline := true, indent := true }
  match f.lexeme with
  | .indent width =>
    let opening ← openBlock f width
    let inside : Mode := { dedent := true }
    let clauses ← readMany (do
      let f ← peek inside
      if f.isWord "case" then some <$> g.caseClause f else return none) g.fuel []
    let f ← peek inside
    match f.lexeme with
    | .dedent =>
      return Tree.wrap .matchStatement
        (head ++ Tree.wrap .block (opening ++ clauses ++ (← closeBlock f)))
    | _ => fault f
  | _ => return Tree.wrap .matchStatement (head ++ (← consume f .block 0))

/-- A statement of any kind that begins with a token. -/
def statementAt (outer : Mode) (f : Found) : Parse (List Tree) := do
  if f.isWord "if" then g.ifStatement outer f
  else if f.isWord "for" then g.forStatement outer [] outer
  else if f.isWord "while" then g.whileStatement outer f
  else if f.isWord "try" then g.tryStatement outer f
  else if f.isWord "with" then g.withStatement [] outer
  else if f.isWord "def" then g.functionDefinition [] outer
  else if f.isWord "class" then g.classDefinition outer
  else if f.isMark "@" then g.decorated outer
  else if f.isWord "async" then
    let next := (f.start.advance 5).next lineContext.after
    if next.isWord "def" then g.functionDefinition (← consumeWord f .symbol) lineContext.after
    else if next.isWord "for" then g.forStatement outer (← consumeWord f .symbol) lineContext.after
    else if next.isWord "with" then g.withStatement (← consumeWord f .symbol) lineContext.after
    else g.simpleStatements outer
  else if f.isWord "match" then
    match ← orElse (some <$> g.matchHead outer) (return none) with
    | some head => g.matchStatement head
    | none => g.simpleStatements outer
  else g.simpleStatements outer

def statement (outer : Mode) : Parse (List Tree) := do
  let f ← peek outer
  blaming f.start.row (g.statementAt outer f)

end Grammar

end CallAtlas.Python
