import BracketSpacing.Binary64

/-!
Values of a configuration: what a rule's options may be. A mapping keeps its entries in order. Of
dates, bytes and sets, which no option is made of, only that is kept which messages and checks see.
-/

set_option autoImplicit false
set_option relaxedAutoImplicit false

namespace BracketSpacing

/-- A value of a type that options have no use for: a date, bytes, a set. -/
structure Value.Foreign where
  /-- The name of its type in messages. -/
  typeName : String
  /-- Its text in messages. -/
  shown : String
  /-- Its text as an id. -/
  plain : String
  /-- Whether it counts as present. -/
  truthy : Bool
  /-- Two such values are in order, by rank, if they are of one family. -/
  family : String
  rank : List Int
  deriving DecidableEq, Repr, Inhabited

inductive Value where
  | null
  | bool (b : Bool)
  | int (i : Int)
  | float (x : Binary64)
  | str (s : String)
  | list (items : List Value)
  /-- A sequence that serves as a key. -/
  | tuple (items : List Value)
  | map (entries : List (Value × Value))
  | foreign (x : Value.Foreign)
  deriving Repr, Inhabited

namespace Value

/-- Whether a value counts as present: not null, false, zero or empty. -/
def truthy : Value → Bool
  | .null => false
  | .bool b => b
  | .int i => i ≠ 0
  | .float x => !x.isZero
  | .str s => s ≠ ""
  | .list items => !items.isEmpty
  | .tuple items => !items.isEmpty
  | .map entries => !entries.isEmpty
  | .foreign x => x.truthy

/-- The name of a value's type in messages. -/
def typeName : Value → String
  | .null => "NoneType"
  | .bool _ => "bool"
  | .int _ => "int"
  | .float _ => "float"
  | .str _ => "str"
  | .list _ => "list"
  | .tuple _ => "tuple"
  | .map _ => "dict"
  | .foreign x => x.typeName

def isString : Value → Bool
  | .str _ => true
  | _ => false

/-- The text of a string value. -/
def string? : Value → Option String
  | .str s => some s
  | _ => none

/-- The value of a text key in a mapping's entries. -/
def lookup (key : String) : List (Value × Value) → Option Value
  | [] => none
  | (.str k, v) :: rest => if k = key then some v else lookup key rest
  | _ :: rest => lookup key rest

end Value

end BracketSpacing
