import BracketSpacing.Script.Literal
import BracketSpacing.Script.Type

/-!
Functions and classes.
-/

set_option autoImplicit false
set_option relaxedAutoImplicit false

namespace BracketSpacing.Script

open BracketSpacing.Tree

/-- A body, or in scripts with types the end of a signature without one. -/
def bodyOrEnd : Read (List Node) :=
  (do return [← reach .block]) <|> (do
    inTypes
    semicolon)

/-- `function` with its name, signature and body. -/
def functionWith (kind : String) (body : Read (List Node)) : Read Node := do
  let asyncMark ← optional? do
    let a ← word "async"
    sameLine
    let _ ← ahead (word "function")
    return a
  let f ← word "function"
  let generator ← optional? star
  let name ← optional? (anyWord "identifier")
  let signature ← callSignature
  let body ← body
  return branch kind
    (asyncMark.toList ++ [f] ++ generator.toList ++ name.toList ++ signature ++ body)

def functionExpression : Read Node :=
  functionWith "function_expression" do return [← reach .block]

def functionDeclaration : Read Node := functionWith "function_declaration" bodyOrEnd

/-! ### Classes -/

def memberMarks : List String :=
  ["static", "async", "get", "set", "readonly", "public", "private", "protected", "abstract",
    "override", "declare", "accessor"]

def staticBlock : Read Node := do
  let s ← word "static"
  let body ← reach .block
  return branch "class_static_block" [s, body]

def classIndexSignature : Read Node := do
  inTypes
  let marks ← many do
    let m ← wordOf ["static", "readonly"]
    let _ ← ahead (wordOf ["static", "readonly"] <|> punct "[")
    return m
  let body ← indexSignature
  let stop ← semicolon
  return branch "index_signature" (marks ++ body ++ stop)

def classMember : Read Node := do
  let decorators ← many decorator
  let marks ← many (propertyMark memberMarks <|> star)
  let name ← propertyName
  let question ← optional? do
    inTypes
    punctOf ["?", "!"]
  if ← looksAt startsSignature then
    let signature ← callSignature
    let body ← bodyOrEnd
    return branch "method_definition"
      (decorators ++ marks ++ [name] ++ question.toList ++ signature ++ body)
  else
    let annotation ← optionalNodes typeAnnotation
    let value ← optionalNodes (initializer {})
    let stop ← semicolon
    return branch "field_definition"
      (decorators ++ marks ++ [name] ++ question.toList ++ annotation ++ value ++ stop)

def classBody : Read Node := do
  let opening ← punct "\x7b"
  let members ← many (punct ";" <|> staticBlock <|> classIndexSignature <|> classMember)
  let closing ← punct "\x7d"
  return branch "class_body" ([opening] ++ members ++ [closing])

def typeList : Read (List Node) := commaSeparated do
  let t ← reach .type
  return [t]

def classHeritage : Read (List Node) := do
  let parent ← optionalNodes do
    let e ← word "extends"
    let v ← reach (.leftHandSide {})
    let generic ← optional? typeArguments
    return [e, v] ++ generic.toList
  let interfaces ← optionalNodes do
    inTypes
    let i ← word "implements"
    let ts ← typeList
    return i :: ts
  return parent ++ interfaces

def classWith (kind : String) : Read Node := do
  let decorators ← many decorator
  let abstractMark ← optional? do
    inTypes
    word "abstract"
  let c ← word "class"
  let name ← optional? do
    require !(["extends", "implements"].contains (← wordAhead))
    anyWord "identifier"
  let generic ← optional? typeParameters
  let heritage ← classHeritage
  let body ← classBody
  return branch kind
    (decorators ++ abstractMark.toList ++ [c] ++ name.toList ++ generic.toList ++ heritage ++
      [body])

end BracketSpacing.Script
