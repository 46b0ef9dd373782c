/-!
# Kinds of syntax node

The closed set of node kinds that a concrete Python tree distinguishes. Grammatical nodes and
the literal tokens that carry content are *named*; punctuation, keywords and the zero-width marks
of the line structure are not.
-/

namespace CallAtlas.Python

/-- What a node of a concrete syntax tree is. -/
inductive Kind where
  -- the file and its simple statements
  | module | importStatement | importDots | relativeImport | futureImportStatement
  | importFromStatement | aliasedImport | wildcardImport | dottedName | printStatement | chevron
  | assertStatement | expressionStatement | returnStatement | deleteStatement | raiseStatement
  | passStatement | breakStatement | continueStatement | globalStatement | nonlocalStatement
  | execStatement | typeAliasStatement
  -- compound statements and their clauses
  | ifStatement | elifClause | elseClause | matchStatement | caseClause | forStatement
  | whileStatement | tryStatement | exceptClause | exceptGroupClause | finallyClause
  | withStatement | withClause | withItem | functionDefinition | classDefinition
  | decoratedDefinition | decorator | block
  -- parameters and types
  | parameters | lambdaParameters | defaultParameter | typedParameter | typedDefaultParameter
  | listSplatPattern | dictionarySplatPattern | keywordSeparator | positionalSeparator
  | typeParameter | typeExpression | splatType | genericType | unionType | constrainedType | memberType
  -- patterns of `match`
  | casePattern | asPattern | asPatternTarget | keywordPattern | classPattern | splatPattern
  | unionPattern | sequencePattern | groupPattern | dictPattern | complexPattern
  -- assignment targets and expressions
  | patternList | assignment | augmentedAssignment | namedExpression | expressionList | yieldForm
  | lambda | conditionalExpression | booleanOperator | notOperator | comparisonOperator
  | binaryOperator | unaryOperator | await | attribute | subscript | slice | call | argumentList
  | keywordArgument | listSplat | dictionarySplat | list | set | tuple | dictionary | pair
  | listComprehension | setComprehension | dictionaryComprehension | generatorExpression
  | forInClause | ifClause | parenthesizedExpression
  -- tokens with content
  | identifier | integer | float | trueLiteral | falseLiteral | noneLiteral | ellipsis
  | concatenatedString | string | stringStart | stringContent | stringEnd | escapeSequence
  | escapeInterpolation | interpolation | typeConversion | formatSpecifier | formatExpression
  | comment | lineContinuation
  -- everything else
  | symbol
  | error
deriving DecidableEq, Repr

namespace Kind

/-- Whether nodes of this kind count as children in the lowered outline. -/
def named : Kind → Bool
  | symbol => false
  | _ => true

/-- Comments and explicit line joins may stand between any two tokens. -/
def isExtra : Kind → Bool
  | comment | lineContinuation => true
  | _ => false

end Kind

end CallAtlas.Python
