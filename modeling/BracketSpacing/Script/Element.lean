import BracketSpacing.Script.Signature

/-!
Elements such as `<a b="c" {...d}>text {e}</a>`.
-/

set_option autoImplicit false
set_option relaxedAutoImplicit false

namespace BracketSpacing.Script

open BracketSpacing.Tree

/-- Names of elements and attributes: words joined by dashes, dots and colons. -/
def elementNameLength : List Char → Nat
  | [] => 0
  | c :: cs =>
    if isWordStart c then
      1 + (cs.takeWhile fun c ↦ isWordPart c || c = '-' || c = '.' || c = ':').length
    else 0

def elementName : Read Node := do takeToken "identifier" true (elementNameLength (← upcoming))

/-- An expression, a spread or nothing in braces. -/
def elementExpression : Read Node := do
  let opening ← punctHead "\x7b"
  let dots ← optional? (punct "...")
  let e ← optional? (reach (.expression {}))
  let closing ← punct "\x7d"
  return branch "jsx_expression" ([opening] ++ dots.toList ++ e.toList ++ [closing])

def elementAttribute : Read Node :=
  elementExpression <|> (do
    let name ← elementName
    let value ← optionalNodes do
      let e ← punctHead "="
      let v ← stringWith true <|> elementExpression <|> reach .element
      return [e, v]
    return branch "jsx_attribute" (name :: value))

/-- Text between tags, with the blanks in it. -/
def elementText : Read Node := do
  let n := ((← get).rest.takeWhile fun c ↦ c ≠ '<' && c ≠ '{').length
  require (n ≠ 0)
  takeHere "jsx_text" true n

def elementChild : Read Node := elementText <|> elementExpression <|> reach .element

def closingTag : Read Node := do
  let opening ← punctHead "</"
  let name ← optional? elementName
  let closing ← punctHead ">"
  return branch "jsx_closing_element" ([opening] ++ name.toList ++ [closing])

/-- The head of an element behind its opening bracket: a name with what belongs to it, or nothing.
-/
def elementHead : Read (List Node) := do
  match ← optional? elementName with
  | none => return []
  | some name =>
    let generic ← optional? typeArguments
    let attributes ← many elementAttribute
    return name :: (generic.toList ++ attributes)

/-- An element; one without a name cannot close itself. -/
def element : Read Node := do
  let opening ← punctHead "<"
  let head ← elementHead
  let selfClosing ← if head.isEmpty then pure none else optional? (punctHead "/>")
  match selfClosing with
  | some closing => return branch "jsx_self_closing_element" (opening :: (head ++ [closing]))
  | none =>
    let closing ← punctHead ">"
    let children ← many elementChild
    let last ← closingTag
    return branch "jsx_element"
      ([branch "jsx_opening_element" (opening :: (head ++ [closing]))] ++ children ++ [last])

end BracketSpacing.Script
