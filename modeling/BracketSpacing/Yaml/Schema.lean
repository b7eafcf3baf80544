import BracketSpacing.Value.Order
import BracketSpacing.Yaml.Error
import BracketSpacing.Yaml.Node

/-!
What YAML nodes stand for. The text of a plain scalar decides whether it is null, a boolean, a
number or a string; other scalars are strings; a tag of the core schema overrides that. Keys of a
mapping differ from each other, and a sequence that serves as a key holds scalars only. A mapping
may take over the entries of others by a merge key; its own entries win over those.
-/

set_option autoImplicit false
set_option relaxedAutoImplicit false

namespace BracketSpacing.Yaml

/-! ### Plain scalars -/

def isNullWord (s : String) : Bool := ["", "~", "null", "Null", "NULL"].contains s

def boolean? (w : Version) (s : String) : Option Bool :=
  if ["true", "True", "TRUE"].contains s then some true
  else if ["false", "False", "FALSE"].contains s then some false
  else if w = .v1_2 then none
  else if ["y", "Y", "yes", "Yes", "YES", "on", "On", "ON"].contains s then some true
  else if ["n", "N", "no", "No", "NO", "off", "Off", "OFF"].contains s then some false
  else none

/-- A sign, positive when left out, and what follows it. -/
def signed : List Char → Bool × List Char
  | '-' :: rest => (true, rest)
  | '+' :: rest => (false, rest)
  | cs => (false, cs)

/-- The digits of a base without the underscores among them; none if there is no digit or something
else. -/
def digits? (base : Nat) (cs : List Char) : Option Nat :=
  let digits := cs.filter (· ≠ '_')
  let values := (digits.filterMap Json.hexValue?).filter (· < base)
  if digits.isEmpty || values.length ≠ digits.length then none
  else some (values.foldl (fun n d ↦ n * base + d) 0)

def natural? (w : Version) (cs : List Char) : Option Nat :=
  match cs with
  | '0' :: 'b' :: rest => digits? 2 rest
  | '0' :: 'x' :: rest => digits? 16 rest
  | '0' :: 'o' :: rest => if w = .v1_2 then digits? 8 rest else none
  | '0' :: _ => if w = .v1_1 then digits? 8 cs else digits? 10 cs
  | '_' :: _ => if w = .v1_2 then digits? 10 cs else none
  | _ => digits? 10 cs

/-- A whole number; it starts with a sign or a digit. -/
def integer? (w : Version) (cs : List Char) : Option Int :=
  if cs.head? = some '_' then none
  else
    let (negative, body) := signed cs
    (natural? w body).map fun n ↦ if negative then -(n : Int) else n

def isDigitOrUnderscore (c : Char) : Bool := c.isDigit || c = '_'

/-- An exponent that is the rest of the text, or none at all. -/
def exponent? (signRequired : Bool) : List Char → Option Int
  | [] => some 0
  | e :: rest =>
    if e ≠ 'e' && e ≠ 'E' then none
    else
      let hasSign := rest.head?.any fun c ↦ c = '-' || c = '+'
      let (negative, digits) := signed rest
      if digits.isEmpty || !digits.all Char.isDigit || (signRequired && !hasSign) then none
      else
        let n : Int := Json.digitsValue digits
        some (if negative then -n else n)

/-- The number of digits `whole` before and `fraction` behind the point. -/
def decimal (negative : Bool) (whole fraction : List Char) (exponent : Int) : Option Binary64 :=
  let fraction := fraction.filter Char.isDigit
  let all := whole.filter Char.isDigit ++ fraction
  if all.isEmpty then none
  else some (.ofDecimal negative (Json.digitsValue all) (exponent - fraction.length))

def float? (w : Version) (cs : List Char) : Option Binary64 :=
  let (negative, body) := signed cs
  let hasSign := body.length ≠ cs.length
  let old := w = .v1_1
  match body with
  | '.' :: rest =>
    if ["inf", "Inf", "INF"].contains (String.ofList rest) then some (.infinite negative)
    else if ["nan", "NaN", "NAN"].contains (String.ofList rest) then
      if hasSign then none else some .nan
    else if hasSign && old then none
    else
      let fraction := rest.takeWhile isDigitOrUnderscore
      (exponent? true (rest.dropWhile isDigitOrUnderscore)).bind (decimal negative [] fraction)
  | c :: _ =>
    if !c.isDigit then none
    else
      let whole := body.takeWhile isDigitOrUnderscore
      match body.dropWhile isDigitOrUnderscore with
      | [] => none
      | '.' :: rest =>
        let fraction := rest.takeWhile isDigitOrUnderscore
        (exponent? old (rest.dropWhile isDigitOrUnderscore)).bind (decimal negative whole fraction)
      | rest => (exponent? old rest).bind (decimal negative whole [])
  | [] => none

/-- What a plain scalar stands for. -/
def plainValue (w : Version) (s : String) : Value :=
  if isNullWord s then .null
  else
    match boolean? w s, float? w s.toList, integer? w s.toList with
    | some b, _, _ => .bool b
    | none, some x, _ => .float x
    | none, none, some i => .int i
    | none, none, none => .str s

/-! ### Nodes -/

/-- The error of every text that is no YAML. -/
def Error.unreadable : Error := .malformed "the text cannot be read"

/-- The error of a key that holds a list or a mapping. -/
def Error.unhashable (typeName : String) : Error :=
  .fault "TypeError" s!"unhashable type: '{typeName}'"

/-- Whether a tag leaves it to the node what it stands for. -/
def isOpenTag (tag : Option String) : Bool := tag.all (· = "!")

/-- The plain scalar that as a key asks for the entries of other mappings. -/
def mergeMark : String := "<<"

/-- The plain scalar that once stood for the default value of a mapping. -/
def defaultMark : String := "="

/-- What a plain scalar stands for; the two marks stand for nothing by themselves. -/
def resolvePlain (w : Version) (text : String) : Except Error Value :=
  if text = mergeMark || text = defaultMark then .error .unreadable else .ok (plainValue w text)

def scalarValue (w : Version) (tag : Option String) (text : String) (plain : Bool) :
    Except Error Value :=
  match tag with
  | none => if plain then resolvePlain w text else .ok (.str text)
  | some "!" => resolvePlain w text
  | some "!!str" => .ok (.str text)
  | some "!!null" => .ok .null
  | some "!!bool" =>
    match boolean? .v1_1 text with
    | some b => .ok (.bool b)
    | none => .error .unreadable
  | some "!!int" =>
    match integer? w text.toList with
    | some i => .ok (.int i)
    | none => .error .unreadable
  | some "!!float" =>
    match plainValue w text with
    | .float x => .ok (.float x)
    | .int i => .ok (.float (.ofDecimal (i < 0) i.natAbs 0))
    | _ => .error .unreadable
  | some _ => .error .unreadable

/-- Whether a node is a plain scalar of some text. -/
def Node.isPlain (text : String) : Node → Bool
  | .scalar none t true => t = text
  | .scalar (some "!") t _ => t = text
  | _ => false

/-- The type of the first item of a key that is a list or a mapping. -/
def unhashableItem? (items : List Value) : Option String :=
  (items.find? fun
    | .list _ => true
    | .map _ => true
    | _ => false).map Value.typeName

/-- A value as a key: a list becomes a sequence that cannot change, a mapping is no key. -/
def keyOf : Value → Except Error Value
  | .list items =>
    match unhashableItem? items with
    | some typeName => .error (.unhashable typeName)
    | none => .ok (.tuple items)
  | .map _ => .error .unreadable
  | v => .ok v

/-- Whether no key comes twice. -/
def distinctKeys : List (Value × Value) → Bool
  | [] => true
  | (key, _) :: rest => !rest.any (fun e ↦ key.same e.1) && distinctKeys rest

/-- Sets a key; one that is there keeps its place. -/
def overlay (entries : List (Value × Value)) (entry : Value × Value) : List (Value × Value) :=
  if entries.any fun e ↦ e.1.same entry.1 then
    entries.map fun e ↦ if e.1.same entry.1 then (e.1, entry.2) else e
  else entries ++ [entry]

/-- A mapping of the entries taken over and its own. Only with nothing taken over are equal keys a
fault; otherwise the later one wins. -/
def mappingOf (taken own : List (Value × Value)) : Except Error Value :=
  if !taken.isEmpty then .ok (.map ((taken ++ own).foldl overlay []))
  else if distinctKeys own then .ok (.map own)
  else .error .unreadable

mutual

def valueOf (w : Version) : Node → Except Error Value
  | .scalar tag text plain => scalarValue w tag text plain
  | .sequence tag items =>
    if isOpenTag tag || tag = some "!!seq" then (itemsOf w items).map .list
    else .error .unreadable
  | .mapping tag entries =>
    if isOpenTag tag || tag = some "!!map" then do
      let (taken, own) ← entriesOf w [] entries
      mappingOf taken own
    else .error .unreadable

def itemsOf (w : Version) : List Node → Except Error (List Value)
  | [] => .ok []
  | n :: rest =>
    match valueOf w n with
    | .error e => .error e
    | .ok v => (itemsOf w rest).map (v :: ·)

/-- The entries that a mapping takes over, `taken` before these, and its own ones. It takes over
once at most. -/
def entriesOf (w : Version) (taken : List (Value × Value)) :
    List (Node × Node) → Except Error (List (Value × Value) × List (Value × Value))
  | [] => .ok (taken, [])
  | (k, n) :: rest =>
    if k.isPlain mergeMark then
      if taken.isEmpty then do
        let given ← givenBy w n
        entriesOf w given rest
      else .error .unreadable
    else do
      let key ← if k.isPlain defaultMark then pure (.str defaultMark) else valueOf w k
      let key ← keyOf key
      let value ← valueOf w n
      let (taken, own) ← entriesOf w taken rest
      return (taken, (key, value) :: own)

/-- The entries that a mapping, or a list of mappings, gives to one that takes them over. -/
def givenBy (w : Version) : Node → Except Error (List (Value × Value))
  | .mapping _ entries => do
    let (taken, own) ← entriesOf w [] entries
    return taken ++ own
  | .sequence _ items => givenByAll w items
  | .scalar _ _ _ => .error .unreadable

/-- The entries of a list of mappings, those of the last one first, so that the first one wins. -/
def givenByAll (w : Version) : List Node → Except Error (List (Value × Value))
  | [] => .ok []
  | .mapping _ entries :: rest => do
    let (taken, own) ← entriesOf w [] entries
    let more ← givenByAll w rest
    return more ++ (taken ++ own)
  | _ :: _ => .error .unreadable

end

end BracketSpacing.Yaml
