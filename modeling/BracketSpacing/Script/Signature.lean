import BracketSpacing.Script.Read

/-!
Parameters, type parameters, type arguments and result types, decorators and property names.
-/

set_option autoImplicit false
set_option relaxedAutoImplicit false

namespace BracketSpacing.Script

open BracketSpacing.Tree

/-! ### Annotations -/

def typeAnnotation : Read (List Node) := do
  inTypes
  let colon ← punct ":"
  let t ← reach .type
  return [colon, t]

/-- A type that tells what a check has shown: `x is T`, `asserts x`, `asserts x is T`. -/
def typePredicate : Read Node := do
  let asserting ← optional? do
    let a ← word "asserts"
    sameLine
    let _ ← ahead (anyWord "identifier")
    return a
  let subject ← anyWord "identifier"
  let claim ← optional? do
    sameLine
    let is ← word "is"
    let t ← reach .type
    return [is, t]
  require (asserting.isSome || claim.isSome)
  return branch "type_predicate" (asserting.toList ++ [subject] ++ claim.getD [])

def resultType : Read (List Node) := do
  inTypes
  let colon ← punct ":"
  let t ← typePredicate <|> reach .type
  return [colon, t]

def typeParameter : Read (List Node) := do
  let marks ← many do
    let m ← wordOf ["const", "in", "out"]
    let _ ← ahead (anyWord "type_identifier")
    return m
  let name ← anyWord "type_identifier"
  let bound ← optionalNodes do
    let e ← word "extends"
    let t ← reach .type
    return [e, t]
  let default ← optionalNodes do
    let e ← punct "="
    let t ← reach .type
    return [e, t]
  return [branch "type_parameter" (marks ++ [name] ++ bound ++ default)]

def typeParameters : Read Node := do
  inTypes
  let opening ← punctHead "<"
  let params ← commaSeparated typeParameter
  let closing ← punctHead ">"
  return branch "type_parameters" ([opening] ++ params ++ [closing])

def typeArguments : Read Node := do
  inTypes
  let opening ← punctHead "<"
  let args ← commaSeparated do
    let t ← reach .type
    return [t]
  let closing ← punctHead ">"
  return branch "type_arguments" ([opening] ++ args ++ [closing])

/-! ### Calls and decorators -/

def argument : Read (List Node) := do
  match ← optional? (punct "...") with
  | some dots =>
    let e ← reach (.assignment {})
    return [branch "spread_element" [dots, e]]
  | none =>
    let e ← reach (.assignment {})
    return [e]

def arguments : Read Node := do
  let opening ← punct "("
  let args ← commaSeparated argument
  let closing ← punct ")"
  return branch "arguments" ([opening] ++ args ++ [closing])

/-- An expression in parentheses, as statements and decorators use it. -/
def condition : Read Node := do
  let opening ← punct "("
  let e ← reach (.expression {})
  let closing ← punct ")"
  return branch "parenthesized_expression" [opening, e, closing]

def dottedName : Read (List Node) := do
  let first ← anyWord "identifier"
  let rest ← many do
    let dot ← punct "."
    let name ← anyWord "property_identifier" <|> privateName
    return [dot, name]
  return first :: rest.flatten

def decorator : Read Node := do
  let sign ← punct "@"
  let name ← dottedName <|> (do return [← condition])
  let generic ← optional? typeArguments
  let calls ← many arguments
  return branch "decorator" ([sign] ++ name ++ generic.toList ++ calls)

/-! ### Names -/

/-- A key in brackets. -/
def computedName : Read Node := do
  let opening ← punct "["
  let e ← reach (.assignment {})
  let closing ← punct "]"
  return branch "computed_property_name" [opening, e, closing]

def propertyName : Read Node :=
  anyWord "property_identifier" <|> string <|> number <|> privateName <|> computedName

/-- Whether the name of a property, or the star of a generator, comes next. -/
def namesProperty : Read PUnit := do
  match ← upcoming with
  | c :: rest =>
    require (isWordStart c || c = '"' || c = '\'' || c = '[' || c = '#' || c = '*' ||
      wordLength (c :: rest) ≠ 0 || numberLength (c :: rest) ≠ 0)
  | [] => fail

/-- A word that says something of the property named after it. -/
def propertyMark (choices : List String) : Read Node := do
  let w ← wordOf choices
  namesProperty
  return w

/-! ### Parameters -/

def initializer (l : Limits) : Read (List Node) := do
  let e ← punct "="
  let v ← reach (.assignment l)
  return [e, v]

def parameterMarks : List String := ["public", "private", "protected", "readonly", "override"]

def parameter : Read (List Node) := do
  let decorators ← many decorator
  let marks ← many do
    inTypes
    let m ← wordOf parameterMarks
    let _ ← ahead (reach .binding)
    return m
  let dots ← optional? (punct "...")
  let target ← reach .binding <|> word "this"
  let question ← optional? do
    inTypes
    punct "?"
  let annotation ← optionalNodes typeAnnotation
  let default ← optionalNodes (initializer {})
  return [branch "required_parameter"
    (decorators ++ marks ++ dots.toList ++ [target] ++ question.toList ++ annotation ++ default)]

def formalParameters : Read Node := do
  let opening ← punct "("
  let params ← commaSeparated parameter
  let closing ← punct ")"
  return branch "formal_parameters" ([opening] ++ params ++ [closing])

/-- Type parameters, parameters and result type. -/
def callSignature : Read (List Node) := do
  let generic ← optional? typeParameters
  let params ← formalParameters
  let result ← optionalNodes resultType
  return generic.toList ++ [params] ++ result

end BracketSpacing.Script
