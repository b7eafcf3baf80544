import BracketSpacing.Text.Quoted
import BracketSpacing.Value

/-!
The text of configuration values in messages. A whole number has a text only if it has no more
digits than a limit, and then so has what holds it.
-/

set_option autoImplicit false
set_option relaxedAutoImplicit false

namespace BracketSpacing.Value

open Text

/-- The most digits that a whole number is written with. -/
def digitLimit : Nat := 4300

/-- A whole number with more digits than the limit. -/
inductive TooManyDigits where
  | inWhole
  deriving DecidableEq, Repr

def TooManyDigits.message (_ : TooManyDigits) : String :=
  s!"Exceeds the limit ({digitLimit} digits) for integer string conversion; " ++
    "use sys.set_int_max_str_digits() to increase the limit"

/-- A whole number in decimal digits. -/
def decimal (i : Int) : Except TooManyDigits String :=
  if (Nat.toDigits 10 i.natAbs).length ≤ digitLimit then .ok (toString i) else .error .inWhole

mutual

def shown : Value → Except TooManyDigits String
  | .null => .ok "None"
  | .bool true => .ok "True"
  | .bool false => .ok "False"
  | .int i => decimal i
  | .float x => .ok x.render
  | .str s => .ok (Quoted.quote s)
  | .list items => (shownAll items).map fun texts ↦ "[" ++ ", ".intercalate texts ++ "]"
  | .tuple [item] => (shown item).map fun text ↦ "(" ++ text ++ ",)"
  | .tuple items => (shownAll items).map fun texts ↦ "(" ++ ", ".intercalate texts ++ ")"
  | .map entries => (shownEntries entries).map fun texts ↦
    "\x7b" ++ ", ".intercalate texts ++ "\x7d"
  | .foreign x => .ok x.shown

def shownAll : List Value → Except TooManyDigits (List String)
  | [] => .ok []
  | v :: rest => do
    let text ← shown v
    return text :: (← shownAll rest)

def shownEntries : List (Value × Value) → Except TooManyDigits (List String)
  | [] => .ok []
  | (k, v) :: rest => do
    let key ← shown k
    let value ← shown v
    return (key ++ ": " ++ value) :: (← shownEntries rest)

end

/-- An option list; a single option is followed by a comma. -/
def shownOptions (options : List Value) : Except TooManyDigits String := shown (.tuple options)

/-- The text of a value as an id: a string is itself. -/
def plain : Value → Except TooManyDigits String
  | .str s => .ok s
  | .foreign x => .ok x.plain
  | v => shown v

end BracketSpacing.Value
