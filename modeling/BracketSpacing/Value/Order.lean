import BracketSpacing.Value

/-!
Equality and order of mapping keys. Numbers are compared by what they are worth, whole, boolean or
floating; texts by their characters; sequences by the first items that differ; dates and bytes by
rank. What is not of one kind, such as a number and a text, cannot be put in order.
-/

set_option autoImplicit false
set_option relaxedAutoImplicit false

namespace BracketSpacing.Value

/-- What a number is worth. -/
inductive Worth where
  | ratio (num : Int) (den : Nat)
  | infinite (negative : Bool)
  | undefined

def worth? : Value → Option Worth
  | .int i => some (.ratio i 1)
  | .bool b => some (.ratio (if b then 1 else 0) 1)
  | .float x =>
    match x with
    | .nan => some .undefined
    | .infinite negative => some (.infinite negative)
    | .finite negative m e =>
      let (num, den) := Binary64.ratio m e
      some (.ratio (if negative then -(num : Int) else num) den)
  | _ => none

def Worth.lt : Worth → Worth → Bool
  | .undefined, _ => false
  | _, .undefined => false
  | .ratio a b, .ratio c d => a * d < c * b
  | .infinite n, .infinite m => n && !m
  | .infinite n, .ratio _ _ => n
  | .ratio _ _, .infinite m => !m

/-- Whether two numbers are one key; what is no number is one key too. -/
def Worth.eq : Worth → Worth → Bool
  | .undefined, .undefined => true
  | .ratio a b, .ratio c d => a * d == c * b
  | .infinite n, .infinite m => n == m
  | _, _ => false

mutual

/-- Whether two values are one key. -/
def same : Value → Value → Bool
  | .null, .null => true
  | .str a, .str b => a == b
  | .list as, .list bs => sameAll as bs
  | .tuple as, .tuple bs => sameAll as bs
  | .foreign x, .foreign y => x.family == y.family && x.rank == y.rank
  | a, b =>
    match a.worth?, b.worth? with
    | some x, some y => x.eq y
    | _, _ => false

def sameAll : List Value → List Value → Bool
  | [], [] => true
  | a :: as, b :: bs => same a b && sameAll as bs
  | _, _ => false

end

/-- Two values that have no order, by the names of their types. -/
structure Incomparable where
  left : String
  right : String
  deriving DecidableEq, Repr

def Incomparable.message (e : Incomparable) : String :=
  s!"'<' not supported between instances of '{e.left}' and '{e.right}'"

mutual

/-- Whether `a` comes before `b`. -/
def before : (a b : Value) → Except Incomparable Bool
  | .str s, .str t => .ok (s < t)
  | .tuple as, .tuple bs => beforeAll as bs
  | .foreign x, .foreign y =>
    if x.family = y.family then .ok (x.rank < y.rank) else .error ⟨x.typeName, y.typeName⟩
  | a, b =>
    match a.worth?, b.worth? with
    | some x, some y => .ok (x.lt y)
    | _, _ => .error ⟨a.typeName, b.typeName⟩

/-- The first items that differ decide; a sequence comes before its extensions. -/
def beforeAll : (as bs : List Value) → Except Incomparable Bool
  | a :: as, b :: bs => if same a b then beforeAll as bs else before a b
  | [], _ :: _ => .ok true
  | _, [] => .ok false

end

/-- Puts `v` behind every key that does not come after it. -/
def insertKey (v : Value) : List Value → Except Incomparable (List Value)
  | [] => .ok [v]
  | k :: rest =>
    match before v k with
    | .error e => .error e
    | .ok true => .ok (v :: k :: rest)
    | .ok false => (insertKey v rest).map (k :: ·)

/-- The keys in increasing order. -/
def sortKeys : List Value → Except Incomparable (List Value)
  | [] => .ok []
  | k :: rest =>
    match sortKeys rest with
    | .error e => .error e
    | .ok sorted => insertKey k sorted

end BracketSpacing.Value
