import BracketSpacing.Script.Signature

/-!
Array and object literals, and the patterns that take values apart. A pattern is read as the
literal of the same shape, in which a name may have a default.
-/

set_option autoImplicit false
set_option relaxedAutoImplicit false

namespace BracketSpacing.Script

open BracketSpacing.Tree

/-- Elements, spreads and holes. -/
def arrayLiteral : Read Node := do
  let opening ← punct "["
  let elements ← many do
    match ← optional? (punct ",") with
    | some comma => return [comma]
    | none => argument
  let closing ← punct "]"
  return branch "array" ([opening] ++ elements.flatten ++ [closing])

def star : Read Node := punct "*"

/-- Whether a parameter list comes next. -/
def startsSignature : Read PUnit :=
  (do let _ ← ahead (punct "(")) <|> (do
    inTypes
    let _ ← ahead (punctHead "<"))

def objectMember : Read (List Node) := do
  match ← optional? (punct "...") with
  | some dots =>
    let e ← reach (.assignment {})
    return [branch "spread_element" [dots, e]]
  | none =>
    let marks ← many (propertyMark ["async", "get", "set", "static", "readonly"] <|> star)
    let name ← propertyName
    let question ← optional? do
      inTypes
      punctOf ["?", "!"]
    if ← looksAt startsSignature then
      let signature ← callSignature
      let body ← reach .block
      return [branch "method_definition"
        (marks ++ [name] ++ question.toList ++ signature ++ [body])]
    else
      require marks.isEmpty
      match ← optional? (punct ":") with
      | some colon =>
        let v ← reach (.assignment {})
        return [branch "pair" [name, colon, v]]
      | none =>
        let default ← optionalNodes (initializer {})
        return if default.isEmpty then [name]
          else [branch "object_assignment_pattern" (name :: default)]

def objectLiteral : Read Node := do
  let opening ← punct "\x7b"
  let members ← commaSeparated objectMember
  let closing ← punct "\x7d"
  return branch "object" ([opening] ++ members ++ [closing])

/-- A name or a pattern that takes a value apart. -/
def binding : Read Node := identifier <|> arrayLiteral <|> objectLiteral

end BracketSpacing.Script
