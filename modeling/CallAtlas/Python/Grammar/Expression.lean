import CallAtlas.Python.Grammar.Basic
/-!
# Expressions

The rules for operands, operators, calls, displays, comprehensions, lambdas and string literals.
A word is a keyword only where the grammar has a use for it; elsewhere it is a name.

Binding strengths, loosest first: `if` 1, `as` 2, `or` 3, `and` 4, `not` 5; and among the operators
on operands `|` 14, `&` 15, `^` 16, `<<` 17, `+` 18, `*` 19, unary operators and `await` 20,
`**` 21. Level 0 admits every operator.
-/

namespace CallAtlas.Python

open Scan (Found)

/-- Binding strength of a binary operator and the level of its right operand. -/
def binaryStrength (operator : List Char) : Option (Nat × Nat) :=
  match String.ofList operator with
  | "|" => some (14, 15)
  | "&" => some (15, 16)
  | "^" => some (16, 17)
  | "<<" | ">>" => some (17, 18)
  | "+" | "-" => some (18, 19)
  | "*" | "@" | "/" | "%" | "//" => some (19, 20)
  | "**" => some (21, 21)
  | _ => none

/-- Words that are keywords behind a complete operand. -/
def operatorWords : List String :=
  ["and", "or", "in", "is", "not", "if", "as", "else", "for", "async", "from"]

namespace Grammar

variable (g : Grammar)

def expression (start : Mode) (context : Context) : Parse (List Tree) :=
  g.rule (.expression start context 0)

/-- Further items behind commas, where a comma may close the list. -/
def moreExpressions (context : Context) (item : Parse (List Tree)) : Parse (List Tree) :=
  furtherItems context.after context.optional (!·.startsExpression) item g.fuel []

def expressions (start : Mode) (context : Context) : Parse (List Tree) := do
  let first ← g.expression start context
  let more ← g.moreExpressions context (g.expression context.optional context)
  return if more.isEmpty then first else Tree.wrap .expressionList (first ++ more)

def yieldForm (start : Mode) (context : Context) : Parse (List Tree) := do
  let word ← keyword start "yield"
  let f ← peek context.optional
  if f.isWord "from" then
    let source ← consumeWord f .symbol
    return Tree.wrap .yieldForm (word ++ source ++ (← g.expression .operand context))
  else if f.startsExpression then
    return Tree.wrap .yieldForm (word ++ (← g.expressions context.optional context))
  else return Tree.wrap .yieldForm word

/-! ### String literals -/

/-- Ends the run of plain text and escapes read so far. -/
def closeText (run : List Tree) : List Tree :=
  if run.isEmpty then [] else Tree.wrap .stringContent run.reverse

/-- Reads the inside and the end of a string literal. `run` is the current run of plain text and
escapes and `before` what stands before it, both backwards. -/
def literalParts (q : Quote) : (fuel : Nat) → (run before : List Tree) → Parse (List Tree)
  | 0, _, _ => do fault (← peek .fixed)
  | fuel + 1, run, before => do
    let s ← get
    let here (kind : Kind) (n : Nat) : Tree := .leaf kind s.row [] (s.rest.take n)
    match content q s.rest with
    | some (.text n) =>
      set (s.advance n)
      literalParts q fuel (here .symbol n :: run) before
    | some (.close n) =>
      set { s.advance n with quotes := s.quotes.drop 1, inFormat := false }
      return before.reverse ++ closeText run ++ [here .stringEnd n]
    | none =>
      match s.rest with
      | '\\' :: _ =>
        let (kind, n) := match escapeLength s.rest with
          | some n => (Kind.escapeSequence, n)
          | none => (Kind.symbol, 1)
        set (s.advance n)
        literalParts q fuel (here kind n :: run) before
      | c :: d :: _ =>
        if q.format && (c == '\x7b' || c == '\x7d') && c == d then
          set (s.advance 2)
          literalParts q fuel (here .escapeInterpolation 2 :: run) before
        else
          let part ← g.rule (.interpolation .interpolation)
          literalParts q fuel [] (part.reverse ++ (closeText run).reverse ++ before)
      | _ => do fault (← peek .fixed)

def literal (start : Mode) : Parse (List Tree) := do
  let f ← peek start
  match f.lexeme with
  | .quote q n =>
    let opening ← consume f .stringStart n
    modify fun s => { s with quotes := q :: s.quotes, inFormat := q.format }
    return Tree.wrap .string (opening ++ (← g.literalParts q g.fuel [] []))
  | _ => fault f

/-- One string literal, or several in a row as one string. -/
def literals (start : Mode) (context : Context) : Parse (List Tree) := do
  let first ← g.literal start
  let more ← readMany (do
    match (← peek context.optional).lexeme with
    | .quote .. => some <$> g.literal context.optional
    | _ => return none) g.fuel []
  return if more.isEmpty then first else Tree.wrap .concatenatedString (first ++ more)

/-- The text and the nested interpolations of a format specifier. -/
def formatParts : (fuel : Nat) → (before : List Tree) → Parse (List Tree)
  | 0, before => return before.reverse
  | fuel + 1, before => do
    let s ← get
    let n := (s.rest.takeWhile fun c => c != '\x7b' && c != '\x7d' && c != '\n').length
    if 0 < n then
      set (s.advance n)
      formatParts fuel (.leaf .symbol s.row [] (s.rest.take n) :: before)
    else
      match s.rest with
      | '\n' :: _ =>
        set (s.advance 1)
        formatParts fuel (.leaf .symbol s.row [] (s.rest.take 1) :: before)
      | '\x7b' :: _ =>
        let part ← g.rule (.interpolation .formatExpression)
        formatParts fuel (part.reverse ++ before)
      | _ => return before.reverse

/-- An interpolated expression with its conversion and its format. -/
def interpolation (kind : Kind) : Parse (List Tree) := do
  let context : Context := { closer := true }
  let brace ← mark .fixed "\x7b"
  let value ←
    if (← peek .operand).isWord "yield" then g.yieldForm .operand context
    else g.expressions .operand context
  let equals ← mark? context.after "="
  let f ← peek context.after
  let conversion ←
    match f.lexeme, f.start.rest with
    | .mark, '!' :: c :: _ =>
      if 'a' ≤ c && c ≤ 'z' then consume f .typeConversion 2 else pure []
    | _, _ => pure []
  let specifier ←
    match ← mark? context.after ":" with
    | some colon => do
      let parts ← g.formatParts g.fuel []
      pure (Tree.wrap .formatSpecifier (colon ++ parts))
    | none => pure []
  let close ← mark context.after "\x7d"
  return Tree.wrap kind (brace ++ value ++ equals.getD [] ++ conversion ++ specifier ++ close)

/-! ### Comprehensions -/

/-- The postfix part of operands that can be assigned to: members, items and calls. -/
def isTarget : Tree → Bool
  | .leaf kind .. => kind == .identifier
  | .missing .. => false
  | .branch kind children => kind == .attribute || kind == .subscript ||
    ((kind == .tuple || kind == .list || kind == .parenthesizedExpression) &&
        targets children) ||
    ((kind == .listSplat || kind == .listSplatPattern) && splatTarget children)
where
  /-- Whether all named nodes are targets. -/
  targets : List Tree → Bool
    | [] => true
    | t :: ts => (!t.kind.named || t.kind.isExtra || isTarget t) && targets ts
  /-- Whether the starred node is a name, a member or an item. -/
  splatTarget : List Tree → Bool
    | [] => true
    | t :: ts => (!t.kind.named || t.kind.isExtra || t.kind == .identifier ||
        t.kind == .attribute || t.kind == .subscript) && splatTarget ts

/-- Whether the nodes of an expression list can all be assigned to. -/
def areTargets (parts : List Tree) : Bool :=
  parts.all fun t => !t.kind.named || t.kind.isExtra || isTarget t

def loopTarget (start : Mode) : Parse (List Tree) := do
  let f ← peek start
  let parts ← g.rule (.operand start {} 22)
  if areTargets parts then return parts else fault f

def loopTargets : Parse (List Tree) := do
  let first ← g.loopTarget .operand
  let more ← furtherItems .fixed .operand (fun f => f.isWord "in" || !f.startsExpression)
    (g.loopTarget .operand) g.fuel []
  return if more.isEmpty then first else Tree.wrap .patternList (first ++ more)

/-- The parameters and the colon of a lambda, as far as they are present. -/
def lambdaHead (start : Mode) : Parse (List Tree) := do
  let word ← keyword start "lambda"
  match ← mark? .fixed ":" with
  | some colon => return word ++ colon
  | none => return word ++ (← g.rule .lambdaParameters) ++ (← mark .fixed ":")

/-- A source of a comprehension: an expression to which a following `if` does not belong. -/
def comprehensionSource : (fuel : Nat) → (start : Mode) → Parse (List Tree)
  | 0, start => do fault (← peek start)
  | fuel + 1, start => do
    if (← peek start).isWord "lambda" then
      let head ← g.lambdaHead start
      return Tree.wrap .lambda (head ++ (← comprehensionSource fuel .operand))
    else g.expression start { closer := true, conditional := false }

def startsClause (f : Found) : Bool := f.isOneOf ["for", "async", "if"]

def forClause : Parse (List Tree) := do
  let context : Context := { closer := true }
  let f ← peek context.after
  let async ← if f.isWord "async" then consumeWord f .symbol else pure []
  let word ← keyword (if async.isEmpty then context.after else .fixed) "for"
  let left ← g.loopTargets
  let within ← keyword .fixed "in"
  let first ← g.comprehensionSource g.fuel .operand
  let more ← furtherItems context.after context.optional
    (fun f => startsClause f || !f.startsExpression)
    (g.comprehensionSource g.fuel context.optional) g.fuel []
  return Tree.wrap .forInClause (async ++ word ++ left ++ within ++ first ++ more)

def clauses : Parse (List Tree) := do
  let context : Context := { closer := true }
  let first ← g.forClause
  let more ← readMany (do
    let f ← peek context.after
    if f.isWord "if" then
      let word ← consumeWord f .symbol
      let condition ← g.expression .operand { context with conditional := false }
      return some (Tree.wrap .ifClause (word ++ condition))
    else if f.isOneOf ["for", "async"] then some <$> g.forClause
    else return none) g.fuel []
  return first ++ more

/-! ### Displays -/

/-- The context inside brackets. -/
def bracketed : Context := { closer := true }

def startsComprehension (f : Found) : Bool := f.isOneOf ["for", "async"]

/-- A starred element. In front of a comprehension the star binds to a name only. -/
def starred (start : Mode) : Parse (List Tree) := do
  let before ← get
  let star ← mark start "*"
  let value ← g.expression .operand bracketed
  if startsComprehension (← peek bracketed.after) then
    set before
    g.expression start bracketed
  else return Tree.wrap .listSplat (star ++ value)

def element (start : Mode) : Parse (List Tree) := do
  let f ← peek start
  if f.isWord "yield" then g.yieldForm start bracketed
  else if f.isMark "*" then g.starred start
  else g.expression start bracketed

def moreElements (item : Parse (List Tree)) : Parse (List Tree) :=
  furtherItems bracketed.after bracketed.optional (!·.startsExpression) item g.fuel []

/-- Whether an element may be the body of a comprehension or a key; a `yield` may be neither. -/
def isBody (parts : List Tree) : Bool :=
  !(parts.any (·.kind == .yieldForm))

/-- Whether a single element is an expression, so that parentheses around it only group. -/
def groups (parts : List Tree) : Bool :=
  !(parts.any (·.kind == .listSplat))

/-- What parentheses hold: a tuple, one grouped expression or a generator. -/
def parenthesized (start : Mode) : Parse (List Tree) := do
  let opening ← mark start "("
  match ← mark? bracketed.optional ")" with
  | some closing => return Tree.wrap .tuple (opening ++ closing)
  | none =>
    let first ← g.element bracketed.optional
    if isBody first && startsComprehension (← peek bracketed.after) then
      let body := opening ++ first ++ (← g.clauses)
      return Tree.wrap .generatorExpression (body ++ (← mark bracketed.after ")"))
    else
      let more ← g.moreElements (g.element bracketed.optional)
      let closing ← mark bracketed.after ")"
      let kind := if more.isEmpty && groups first then Kind.parenthesizedExpression else .tuple
      return Tree.wrap kind (opening ++ first ++ more ++ closing)

def listDisplay (start : Mode) : Parse (List Tree) := do
  let opening ← mark start "["
  match ← mark? bracketed.optional "]" with
  | some closing => return Tree.wrap .list (opening ++ closing)
  | none =>
    let first ← g.element bracketed.optional
    if isBody first && startsComprehension (← peek bracketed.after) then
      let body := opening ++ first ++ (← g.clauses)
      return Tree.wrap .listComprehension (body ++ (← mark bracketed.after "]"))
    else
      let more ← g.moreElements (g.element bracketed.optional)
      return Tree.wrap .list (opening ++ first ++ more ++ (← mark bracketed.after "]"))

/-- A mapping unpacked into a dictionary or into arguments. -/
def unpackedMapping (start : Mode) : Parse (List Tree) := do
  let stars ← mark start "**"
  return Tree.wrap .dictionarySplat (stars ++ (← g.expression .operand bracketed))

def keyed (key : List Tree) : Parse (List Tree) := do
  let colon ← mark bracketed.after ":"
  return Tree.wrap .pair (key ++ colon ++ (← g.expression .operand bracketed))

def entry (start : Mode) : Parse (List Tree) := do
  if (← peek start).isMark "**" then g.unpackedMapping start
  else
    let key ← g.expression start {}
    g.keyed key

def startsEntry (f : Found) : Bool := f.startsExpression || f.isMark "**"

/-- What braces hold: a dictionary, a set or a comprehension of either. -/
def braced (start : Mode) : Parse (List Tree) := do
  let opening ← mark start "\x7b"
  let inside := bracketed.optional
  let close : Parse (List Tree) := mark bracketed.after "\x7d"
  let dictionary (first : List Tree) : Parse (List Tree) := do
    let more ← furtherItems bracketed.after inside (!startsEntry ·) (g.entry inside) g.fuel []
    return Tree.wrap .dictionary (opening ++ first ++ more ++ (← close))
  let set (first : List Tree) : Parse (List Tree) := do
    let more ← g.moreElements (g.element inside)
    return Tree.wrap .set (opening ++ first ++ more ++ (← close))
  let f ← peek inside
  if f.isMark "\x7d" then return Tree.wrap .dictionary (opening ++ (← consumeMark f))
  else if f.isMark "," then
    let comma ← consumeMark f
    return Tree.wrap .dictionary (opening ++ comma ++ (← close))
  else if f.isMark "**" then dictionary (← g.unpackedMapping inside)
  else
    let first ← g.element inside
    let f ← peek bracketed.after
    if isBody first && f.isMark ":" then
      let pair ← g.keyed first
      if startsComprehension (← peek bracketed.after) then
        let body := opening ++ pair ++ (← g.clauses)
        return Tree.wrap .dictionaryComprehension (body ++ (← close))
      else dictionary pair
    else if isBody first && startsComprehension f then
      let body := opening ++ first ++ (← g.clauses)
      return Tree.wrap .setComprehension (body ++ (← close))
    else set first

/-! ### Calls and items -/

def startsKeywordArgument (f : Found) : Bool :=
  match f.lexeme with
  | .word text =>
    !f.isOneOf ["not", "lambda", "True", "False", "None"] &&
      ((f.start.advance text.length).next bracketed.after).isMark "="
  | _ => false

def argument (start : Mode) : Parse (List Tree) := do
  let f ← peek start
  if f.isMark "**" then g.unpackedMapping start
  else if f.isMark "*" then g.starred start
  else if startsKeywordArgument f then
    let word ← consumeWord f .identifier
    let equals ← mark bracketed.after "="
    return Tree.wrap .keywordArgument
      (word ++ equals ++ (← g.expression .operand bracketed))
  else g.expression start bracketed

/-- The arguments of a call; `generators` admits a bare comprehension in their place. -/
def arguments (generators : Bool) (start : Mode) :
    Parse (List Tree) := do
  let opening ← mark start "("
  let inside := bracketed.optional
  let f ← peek inside
  if f.isMark ")" then return Tree.wrap .argumentList (opening ++ (← consumeMark f))
  else if f.isMark "," then
    let comma ← consumeMark f
    return Tree.wrap .argumentList (opening ++ comma ++ (← mark bracketed.after ")"))
  else
    let first ← g.argument inside
    if generators && startsComprehension (← peek bracketed.after) then
      let body := opening ++ first ++ (← g.clauses)
      return Tree.wrap .generatorExpression (body ++ (← mark bracketed.after ")"))
    else
      let more ← furtherItems bracketed.after inside (!startsEntry ·) (g.argument inside) g.fuel []
      return Tree.wrap .argumentList (opening ++ first ++ more ++ (← mark bracketed.after ")"))

def subscriptItem (start : Mode) : Parse (List Tree) := do
  let f ← peek start
  let lower ← if f.isMark ":" then pure [] else g.expression start bracketed
  match ← mark? (if lower.isEmpty then start else bracketed.after) ":" with
  | none => return lower
  | some colon =>
    let bound : Parse (List Tree) := do
      if (← peek bracketed.optional).startsExpression then
        g.expression bracketed.optional bracketed
      else return []
    let upper ← bound
    let step ←
      match ← mark? (if upper.isEmpty then bracketed.optional else bracketed.after) ":" with
      | some colon => do pure (colon ++ (← bound))
      | none => pure []
    return Tree.wrap .slice (lower ++ colon ++ upper ++ step)

def subscripts (start : Mode) : Parse (List Tree) := do
  let opening ← mark start "["
  let first ← g.subscriptItem .operand
  let more ← furtherItems bracketed.after bracketed.optional
    (fun f => !f.startsExpression && !f.isMark ":") (g.subscriptItem bracketed.optional) g.fuel []
  return opening ++ first ++ more ++ (← mark bracketed.after "]")

/-! ### Operands -/

/-- An operand without operators and postfixes. -/
def atom (start : Mode) (context : Context) :
    Parse (List Tree) := do
  let f ← peek start
  match f.lexeme with
  | .quote .. => g.literals start context
  | .word _ =>
    if f.isWord "True" then consumeWord f .trueLiteral
    else if f.isWord "False" then consumeWord f .falseLiteral
    else if f.isWord "None" then consumeWord f .noneLiteral
    else consumeWord f .identifier
  | .mark =>
    match f.number with
    | some (kind, n) => consume f kind n
    | none =>
      if f.isMark "(" then g.parenthesized start
      else if f.isMark "[" then g.listDisplay start
      else if f.isMark "\x7b" then g.braced start
      else if f.isMark "..." then consume f .ellipsis 3
      else fault f
  | _ => fault f

/-- Members, calls and items behind an operand. -/
def postfixes (context : Context) (base : List Tree) :
    Parse (List Tree) :=
  extendBy (fun left => do
    let f ← peek context.after
    if f.isMark "." then
      let dot ← consumeMark f
      return some (Tree.wrap .attribute (left ++ dot ++ (← name .fixed)))
    else if f.isMark "(" then
      return some (Tree.wrap .call (left ++ (← g.arguments true context.after)))
    else if f.isMark "[" then
      return some (Tree.wrap .subscript (left ++ (← g.subscripts context.after)))
    else return none) g.fuel base

/-- Puts a star in front of the longest part of an operand that can be assigned to; calls around
that part are calls of the starred value. -/
def starTarget (star : List Tree) : Tree → Option Tree
  | .branch kind children =>
    if kind == .attribute || kind == .subscript then
      some (.branch .listSplat (star ++ [.branch kind children]))
    else if kind == .call then
      match children with
      | callee :: rest => (starTarget star callee).map fun t => .branch .call (t :: rest)
      | [] => none
    else none
  | t => if t.kind == .identifier then some (.branch .listSplat (star ++ [t])) else none

/-- Whether an operand of `await` begins at a token, so that the word is no name. -/
def startsAwaited (f : Found) : Bool :=
  f.startsExpression && !f.isOneOf operatorWords

/-- A unary operator, an awaited or starred operand, or a plain one with its postfixes. -/
def unary (start : Mode) (context : Context) :
    Parse (List Tree) := do
  let f ← peek start
  let plain : Parse (List Tree) := do
    g.postfixes context (← g.atom start context)
  if ["-", "+", "~"].any f.isMark && f.number.isNone then
    let sign ← consumeMark f
    return Tree.wrap .unaryOperator (sign ++ (← g.rule (.operand .operand context 20)))
  else if f.isMark "*" then
    let star ← consumeMark f
    let operand ← g.postfixes context (← g.atom .operand context)
    let extras := operand.takeWhile (·.kind.isExtra)
    match operand.dropWhile (·.kind.isExtra) with
    | [t] =>
      match starTarget (star.dropWhile (·.kind.isExtra) ++ extras) t with
      | some splat => return star.takeWhile (·.kind.isExtra) ++ [splat]
      | none => fault f
    | _ => fault f
  else if f.isWord "await" then
    if startsAwaited ((f.start.advance 5).next context.optional) then
      let word ← consumeWord f .symbol
      return Tree.wrap .await (word ++ (← g.rule (.operand context.optional context 20)))
    else plain
  else plain

/-- Operands joined by binary operators that bind at least as tightly as `level`. -/
def operand (start : Mode) (context : Context) (level : Nat) :
    Parse (List Tree) := do
  let head ← g.unary start context
  extendBy (fun left => do
    let f ← peek context.after
    match binaryStrength f.mark with
    | some (strength, right) =>
      if level ≤ strength then
        let operator ← consumeMark f
        return some (Tree.wrap .binaryOperator
          (left ++ operator ++ (← g.rule (.operand .operand context right))))
      else return none
    | none => return none) g.fuel head

/-! ### Expressions -/

/-- A comparison operator of one or two tokens. -/
def comparator (context : Context) : Parse (Option (List Tree)) := do
  let f ← peek context.after
  if ["<", "<=", "==", "!=", ">=", ">", "<>"].any f.isMark then some <$> consumeMark f
  else if f.isWord "in" then some <$> consumeWord f .symbol
  else if f.isWord "not" then
    let word ← consumeWord f .symbol
    return some (word ++ (← keyword .fixed "in"))
  else if f.isWord "is" then
    let word ← consumeWord f .symbol
    let f ← peek .operand
    if f.isWord "not" then return some (word ++ (← consumeWord f .symbol))
    else return some word
  else return none

def comparison (start : Mode) (context : Context) : Parse (List Tree) := do
  let first ← g.rule (.operand start context 14)
  let more ← readMany (do
    match ← comparator context with
    | some operator => do
      return some (operator ++ (← g.rule (.operand .operand context 14)))
    | none => return none) g.fuel []
  return if more.isEmpty then first else Tree.wrap .comparisonOperator (first ++ more)

/-- A word with a walrus sign behind it binds a name inside an expression. -/
def startsNamed (f : Found) (context : Context) : Bool :=
  match f.lexeme with
  | .word text =>
    !f.isOneOf ["True", "False", "None"] &&
      (let sign := (f.start.advance text.length).next context.after
       sign.isMark ":" && sign.start.rest.take 2 == [':', '='])
  | _ => false

/-- What an expression begins with: a negation, a lambda, a binding or a comparison. -/
def expressionHead (start : Mode) (context : Context) :
    Parse (List Tree) := do
  let f ← peek start
  if f.isWord "not" then
    let word ← consumeWord f .symbol
    return Tree.wrap .notOperator (word ++ (← g.rule (.expression .operand context 5)))
  else if f.isWord "lambda" then
    let head ← g.lambdaHead start
    let body ← g.expression .operand { context with conditional := true }
    return Tree.wrap .lambda (head ++ body)
  else if startsNamed f context then
    let word ← consumeWord f .identifier
    let sign ← consume (← peek context.after) .symbol 2
    return Tree.wrap .namedExpression
      (word ++ sign ++ (← g.rule (.expression .operand context 2)))
  else g.comparison start context

/-- An expression whose operators bind at least as tightly as `level`. -/
def expressionAt (start : Mode) (context : Context)
    (level : Nat) : Parse (List Tree) := do
  let head ← g.expressionHead start context
  extendBy (fun left => do
    let f ← peek context.after
    let join (kind : Kind) (right : Nat) : Parse (Option (List Tree)) := do
      let word ← consumeWord f .symbol
      return some (Tree.wrap kind
        (left ++ word ++ (← g.rule (.expression .operand context right))))
    if f.isWord "and" && level ≤ 4 then join .booleanOperator 5
    else if f.isWord "or" && level ≤ 3 then join .booleanOperator 4
    else if f.isWord "as" && level ≤ 2 then
      let word ← consumeWord f .symbol
      let target ← g.rule (.expression .operand context 3)
      return some (Tree.wrap .asPattern (left ++ word ++ Tree.wrap .asPatternTarget target))
    else if f.isWord "if" && level ≤ 1 && context.conditional then
      let word ← consumeWord f .symbol
      let condition ← g.expression .operand {}
      let other ← keyword .fixed "else"
      return some (Tree.wrap .conditionalExpression (left ++ word ++ condition ++ other ++
        (← g.rule (.expression .operand context 1))))
    else return none) g.fuel head

end Grammar

end CallAtlas.Python
