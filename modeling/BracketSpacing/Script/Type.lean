import BracketSpacing.Script.Signature

/-!
Types. A type yields no brackets of its own, but the expressions in its computed names do, and so
does a query such as `typeof a["b"]`.
-/

set_option autoImplicit false
set_option relaxedAutoImplicit false

namespace BracketSpacing.Script

open BracketSpacing.Tree

/-! ### Object types -/

/-- `[key: K]: V` -/
def indexSignature : Read (List Node) := do
  let opening ← punct "["
  let name ← identifier
  let colon ← punct ":"
  let key ← reach .type
  let closing ← punct "]"
  let annotation ← optionalNodes typeAnnotation
  return [opening, name, colon, key, closing] ++ annotation

/-- `[K in T as U]?: V` -/
def mappedSignature : Read (List Node) := do
  let opening ← punct "["
  let name ← identifier
  let op ← word "in"
  let source ← reach .type
  let renamed ← optionalNodes do
    let a ← word "as"
    let t ← reach .type
    return [a, t]
  let closing ← punct "]"
  let sign ← optional? (punctOf ["+", "-"])
  let question ← optional? (punct "?")
  let annotation ← optionalNodes typeAnnotation
  return [opening, name, op, source] ++ renamed ++ [closing] ++ sign.toList ++
    question.toList ++ annotation

def bracketSignature : Read Node := do
  let sign ← optional? (punctOf ["+", "-"])
  let readonly ← optional? do
    let r ← word "readonly"
    let _ ← ahead (punct "[")
    return r
  let body ← mappedSignature <|> indexSignature
  return branch "index_signature" (sign.toList ++ readonly.toList ++ body)

def constructSignature : Read Node := do
  let n ← word "new"
  let s ← callSignature
  return branch "construct_signature" (n :: s)

def propertySignature : Read Node := do
  let marks ← many (propertyMark ["readonly", "get", "set", "static"])
  let name ← propertyName
  let question ← optional? (punct "?")
  match ← optional? callSignature with
  | some s => return branch "method_signature" (marks ++ [name] ++ question.toList ++ s)
  | none =>
    let annotation ← optionalNodes typeAnnotation
    return branch "property_signature" (marks ++ [name] ++ question.toList ++ annotation)

def memberSignature : Read Node :=
  bracketSignature <|> (do return branch "call_signature" (← callSignature)) <|>
    constructSignature <|> propertySignature

def objectType : Read Node := do
  let opening ← punct "\x7b"
  let members ← many do
    match ← optional? (punctOf [";", ","]) with
    | some separator => return separator
    | none => memberSignature
  let closing ← punct "\x7d"
  return branch "object_type" ([opening] ++ members ++ [closing])

/-! ### Simple types -/

def tupleMember : Read (List Node) := do
  let dots ← optional? (punct "...")
  let label ← optionalNodes do
    let name ← anyWord "identifier"
    let question ← optional? (punct "?")
    let colon ← punct ":"
    return [name] ++ question.toList ++ [colon]
  let t ← reach .type
  let question ← optional? (punct "?")
  return dots.toList ++ label ++ [t] ++ question.toList

def tupleType : Read Node := do
  let opening ← punct "["
  let members ← commaSeparated tupleMember
  let closing ← punct "]"
  return branch "tuple_type" ([opening] ++ members ++ [closing])

def parenthesizedType : Read Node := do
  let opening ← punct "("
  let t ← reach .type
  let closing ← punct ")"
  return branch "parenthesized_type" [opening, t, closing]

def importType : Read Node := do
  let i ← word "import"
  let args ← arguments
  return branch "call_expression" [i, args]

/-- The named types that a query may be indexed by. -/
def predefinedTypes : List String :=
  ["any", "number", "boolean", "string", "symbol", "void", "unknown", "never", "object"]

/-- `.name` and `["key"]` behind the subject of a type query. -/
def querySuffix (subject : Node) : Read Node :=
  (do
    let dot ← punctOf [".", "?."]
    let name ← anyWord "property_identifier" <|> privateName
    return branch "member_expression" [subject, dot, name]) <|>
  (do
    let chain ← optional? (punct "?.")
    let opening ← punct "["
    let key ← wordOf predefinedTypes <|> string <|> number
    let closing ← punct "]"
    return branch "subscript_expression"
      ([subject] ++ chain.toList ++ [opening, inField "index" key, closing]))

def typeQuery : Read Node := do
  let t ← word "typeof"
  let subject ← importType <|> anyWord "identifier"
  let subject ← grow querySuffix subject
  let generic ← optional? do
    sameLine
    typeArguments
  return branch "type_query" ([t, subject] ++ generic.toList)

def namedType : Read Node := do
  let name ← (do
      let i ← importType
      let rest ← many do
        let dot ← punct "."
        let n ← anyWord "type_identifier"
        return [dot, n]
      return i :: rest.flatten) <|> dottedName
  let generic ← optional? do
    sameLine
    typeArguments
  return branch "generic_type" (name ++ generic.toList)

def negativeNumber : Read Node := do
  let sign ← punct "-"
  let n ← number
  return branch "unary_expression" [sign, n]

def inferType : Read Node := do
  let i ← word "infer"
  let name ← anyWord "type_identifier"
  let bound ← optionalNodes do
    let e ← word "extends"
    let t ← reach .type
    require !(← looksAt (punct "?"))
    return [e, t]
  return branch "infer_type" ([i, name] ++ bound)

def primaryType : Read Node := do
  match (← upcoming).head? with
  | some '(' => parenthesizedType
  | some '[' => tupleType
  | some '{' => objectType
  | some '`' => template "template_literal_type" (reach .type)
  | some '-' => negativeNumber
  | some c =>
    if c = '"' || c = '\'' then string
    else if isDigit c || c = '.' then number
    else typeQuery <|> inferType <|> namedType
  | none => fail

/-- `T[]` and `T[K]` -/
def arraySuffix (t : Node) : Read Node := do
  sameLine
  let opening ← punct "["
  let key ← optional? (reach .type)
  let closing ← punct "]"
  return branch "lookup_type" ([t, opening] ++ key.toList ++ [closing])

def operandType : Read Node := do
  let marks ← many do
    let m ← wordOf ["keyof", "unique", "readonly"]
    require (← looksAt primaryType)
    return m
  let t ← primaryType
  let t ← grow arraySuffix t
  return if marks.isEmpty then t else branch "index_type_query" (marks ++ [t])

/-! ### Compound types -/

/-- Operands between signs, one of which may come first. -/
def joined (kind sign : String) (operand : Read Node) : Read Node := do
  let leading ← optional? (punct sign)
  let first ← operand
  let rest ← many do
    let s ← punct sign
    let t ← operand
    return [s, t]
  return if leading.isNone && rest.isEmpty then first
    else branch kind (leading.toList ++ [first] ++ rest.flatten)

def unionType : Read Node :=
  joined "union_type" "|" (joined "intersection_type" "&" operandType)

def functionType : Read Node := do
  let marks ← optionalNodes do
    let a ← optional? (word "abstract")
    let n ← word "new"
    return a.toList ++ [n]
  let generic ← optional? typeParameters
  let params ← formalParameters
  let arrow ← punct "=>"
  let result ← typePredicate <|> reach .type
  return branch "function_type" (marks ++ generic.toList ++ [params, arrow, result])

/-- The part of a conditional type behind the type that is asked about. -/
def typeCondition : Read (List Node) := do
  sameLine
  let e ← word "extends"
  let bound ← reach .type
  let question ← punct "?"
  let yes ← reach .type
  let colon ← punct ":"
  let no ← reach .type
  return [e, bound, question, yes, colon, no]

def type : Read Node := do
  match ← optional? functionType with
  | some t => return t
  | none =>
    let t ← unionType
    match ← optional? typeCondition with
    | some rest => return branch "conditional_type" (t :: rest)
    | none => return t

end BracketSpacing.Script
