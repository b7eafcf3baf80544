import BracketSpacing.Script.Element
import BracketSpacing.Script.Function

/-!
Expressions. Operands between operators are kept side by side, since no bracket depends on how
strongly operators bind; what matters is where member accesses and parentheses begin and end.
-/

set_option autoImplicit false
set_option relaxedAutoImplicit false

namespace BracketSpacing.Script

open BracketSpacing.Tree

/-! ### Parentheses and arrow functions -/

/-- Something between parentheses: an expression, or a parameter if an arrow follows. -/
structure CoverItem where
  nodes : List Node
  /-- The item where it is an expression and nothing more. -/
  expression : Option Node

def coverItem : Read CoverItem := do
  let dots ← optional? (punct "...")
  let e ← reach (.assignment {})
  let question ← optional? do
    inTypes
    punct "?"
  let annotation ← optionalNodes typeAnnotation
  let default ← optionalNodes (initializer {})
  let extra := question.toList ++ annotation ++ default
  return { nodes := dots.toList ++ [e] ++ extra
           expression := if dots.isNone && extra.isEmpty then some e else none }

/-- Items in parentheses: all their nodes, and the expression they are if they are one. -/
structure Cover where
  nodes : List Node
  expression : Option Node

def coverBody : Read Cover := do
  match ← optional? coverItem with
  | none => return ⟨[], none⟩
  | some first =>
    let rest ← many do
      let comma ← punct ","
      let item ← coverItem
      return (comma, item)
    let last ← optional? (punct ",")
    let nodes := first.nodes ++ (rest.map fun r ↦ r.1 :: r.2.nodes).flatten ++ last.toList
    let plain := first.expression.isSome && rest.all (·.2.expression.isSome) && last.isNone
    let expression :=
      if !plain then none
      else if rest.isEmpty then first.expression
      else some (branch "sequence_expression" nodes)
    return ⟨nodes, expression⟩

/-- The arrow and the body of a function. -/
def arrowBody (l : Limits) : Read (List Node) := do
  sameLine
  let arrow ← punct "=>"
  let body ← if ← looksAt (punct "\x7b") then reach .block else reach (.assignment l)
  return [arrow, body]

/-- What follows the parameters of an arrow function. -/
def arrowTail (l : Limits) : Read (List Node) := do
  let result ← if l.noResultType then pure [] else optionalNodes resultType
  let body ← arrowBody l
  return result ++ body

def parenthesized (l : Limits) : Read Node := do
  let opening ← punct "("
  let cover ← coverBody
  let closing ← punct ")"
  match ← optional? (arrowTail l) with
  | some tail =>
    let params := branch "formal_parameters" ([opening] ++ cover.nodes ++ [closing])
    return branch "arrow_function" (params :: tail)
  | none =>
    match cover.expression with
    | some e => return branch "parenthesized_expression" [opening, e, closing]
    | none => fail

/-- An arrow function with its parameters in parentheses. -/
def arrowFunction (l : Limits) (head : List Node) : Read Node := do
  let generic ← optional? typeParameters
  let opening ← punct "("
  let cover ← coverBody
  let closing ← punct ")"
  let tail ← arrowTail l
  let params := branch "formal_parameters" ([opening] ++ cover.nodes ++ [closing])
  return branch "arrow_function" (head ++ generic.toList ++ [params] ++ tail)

/-- A name, or an arrow function with it as the parameter. -/
def nameOrArrow (l : Limits) (head : List Node) : Read Node := do
  let name ← identifier
  match ← optional? (arrowBody l) with
  | some tail => return branch "arrow_function" (head ++ [name] ++ tail)
  | none =>
    require head.isEmpty
    return name

def asyncArrow (l : Limits) : Read Node := do
  let a ← word "async"
  sameLine
  nameOrArrow l [a] <|> arrowFunction l [a]

def genericArrow (l : Limits) : Read Node := do
  let _ ← ahead typeParameters
  arrowFunction l []

/-! ### Operands -/

def plainWords : List String := ["this", "null", "true", "false", "super", "import"]

def wordOperand (l : Limits) : Read Node := do
  let w ← wordAhead
  if w == "function" then functionExpression
  else if w == "class" then classWith "class"
  else if w == "new" then reach .construction
  else if w == "async" then functionExpression <|> asyncArrow l <|> nameOrArrow l []
  else if plainWords.contains w then word w
  else nameOrArrow l []

def elementOperand : Read Node := do
  require (← dialect).elements
  reach .element

def operand (l : Limits) : Read Node := do
  match (← upcoming).head? with
  | none => fail
  | some '(' => parenthesized l
  | some '[' => arrayLiteral
  | some '{' => objectLiteral
  | some '`' => template "template_string" (reach (.expression {}))
  | some '/' => regex
  | some '#' => privateName
  | some '<' => genericArrow l <|> elementOperand
  | some '@' => classWith "class"
  | some c =>
    if c = '"' || c = '\'' then string
    else if isDigit c || c = '.' then number
    else wordOperand l

/-! ### Member accesses and calls -/

def memberAccess (object : Node) : Read Node := do
  let dot ← punct "."
  let name ← anyWord "property_identifier" <|> privateName
  return branch "member_expression" [object, dot, name]

def subscript (object : Node) (chain : List Node) : Read Node := do
  let opening ← punct "["
  let index ← reach (.expression {})
  let closing ← punct "]"
  return branch "subscript_expression"
    ([object] ++ chain ++ [opening, inField "index" index, closing])

def call (function : Node) (chain : List Node) : Read Node := do
  let generic ← optional? typeArguments
  let args ← arguments <|> template "template_string" (reach (.expression {}))
  return branch "call_expression" ([function] ++ chain ++ generic.toList ++ [args])

/-- An access through `?.`. -/
def chained (object : Node) : Read Node := do
  let mark ← punct "?."
  let chain := [branch "optional_chain" [mark]]
  subscript object chain <|> call object chain <|> (do
    let name ← anyWord "property_identifier" <|> privateName
    return branch "member_expression" ([object] ++ chain ++ [name]))

def nonNull (e : Node) : Read Node := do
  inTypes
  sameLine
  let mark ← punct "!"
  return branch "non_null_expression" [e, mark]

/-- Type arguments with no call, before something that cannot go on as an operand. -/
def instantiation (e : Node) : Read Node := do
  let generic ← typeArguments
  let cs ← upcoming
  let stops := match cs.head? with
    | none => true
    | some c => [')', ']', ',', ';', ':', '.', '?', '}', '{', '=', '!', '&', '|'].contains c
  require (stops || (← newlineAhead))
  return branch "instantiation_expression" [e, generic]

def suffix (e : Node) : Read Node :=
  memberAccess e <|> chained e <|> subscript e [] <|> call e [] <|> nonNull e <|> instantiation e

def leftHandSide (l : Limits) : Read Node := do
  let e ← operand l
  grow suffix e

/-- The suffixes that belong to what `new` builds. -/
def constructorSuffix (e : Node) : Read Node :=
  memberAccess e <|> subscript e [] <|> nonNull e

def construction : Read Node := do
  let n ← word "new"
  match ← optional? (punct ".") with
  | some dot =>
    let target ← word "target"
    return branch "meta_property" [n, dot, target]
  | none =>
    let callee ← if (← wordAhead) == "new" then reach .construction else operand {}
    let callee ← grow constructorSuffix callee
    let generic ← optional? typeArguments
    let args ← optional? arguments
    return branch "new_expression" ([n, callee] ++ generic.toList ++ args.toList)

/-! ### Operators -/

def typeAssertion (l : Limits) : Read Node := do
  require !(← dialect).elements
  let generic ← typeArguments
  let e ← reach (.unary l)
  return branch "type_assertion" [generic, e]

def postfixed (l : Limits) : Read Node := do
  let e ← reach (.leftHandSide l)
  match ← optional? (do sameLine; punctOf ["++", "--"]) with
  | some op => return branch "update_expression" [e, op]
  | none => return e

def prefixed (l : Limits) : Read Node := do
  let op ← punctOf ["!", "~", "+", "-", "++", "--"] <|>
    wordOf ["typeof", "void", "delete", "await"]
  let e ← reach (.unary l)
  return branch "unary_expression" [op, e]

def unary (l : Limits) : Read Node := prefixed l <|> postfixed l <|> typeAssertion l

def binaryOperators : List String :=
  ["||", "&&", "??", "|", "^", "&", "==", "!=", "===", "!==", "<", ">", "<=", ">=", "<<", ">>",
    ">>>", "+", "-", "*", "/", "%", "**"]

def binaryTail (l : Limits) : Read (List Node) :=
  (do
    let op ← punctOf binaryOperators <|>
      wordOf (if l.noIn then ["instanceof"] else ["instanceof", "in"])
    let e ← reach (.unary l)
    return [op, e]) <|>
  (do
    inTypes
    sameLine
    let op ← wordOf ["as", "satisfies"]
    let t ← word "const" <|> reach .type
    return [op, t])

def binary (l : Limits) : Read Node := do
  let first ← reach (.unary l)
  let rest ← many (binaryTail l)
  return if rest.isEmpty then first else branch "binary_expression" (first :: rest.flatten)

/-- The question mark of a choice; the mark of an optional parameter is none. -/
def questionMark : Read Node := do
  let q ← punct "?"
  let cs ← upcoming
  require !((← dialect).types && cs.head?.any [':', ',', ')', '='].contains)
  return q

/-- The two branches of a choice, the first one under given limits. -/
def branches (first l : Limits) : Read (List Node) := do
  let yes ← reach (.assignment first)
  let colon ← punct ":"
  let no ← reach (.assignment l)
  return [yes, colon, no]

def choice (l : Limits) (test : Node) : Read Node := do
  let q ← questionMark
  let rest ← branches { noResultType := l.noResultType } l <|>
    branches { noResultType := true } l
  return branch "ternary_expression" ([test, q] ++ rest)

def assignmentOperators : List String :=
  ["=", "+=", "-=", "*=", "/=", "%=", "**=", "<<=", ">>=", ">>>=", "&=", "|=", "^=", "&&=", "||=",
    "??="]

def yielding (l : Limits) : Read Node := do
  let y ← word "yield"
  let rest ← optionalNodes do
    sameLine
    let delegate ← optional? star
    let e ← reach (.assignment l)
    return delegate.toList ++ [e]
  return branch "yield_expression" (y :: rest)

def assignment (l : Limits) : Read Node :=
  yielding l <|> (do
    let target ← binary l
    choice l target <|> (do
      let op ← punctOf assignmentOperators
      let e ← reach (.assignment l)
      return branch "assignment_expression" [target, op, e]) <|> pure target)

def expression (l : Limits) : Read Node := do
  let first ← reach (.assignment l)
  let rest ← many do
    let comma ← punct ","
    let e ← reach (.assignment l)
    return [comma, e]
  return if rest.isEmpty then first else branch "sequence_expression" (first :: rest.flatten)

end BracketSpacing.Script
