import BracketSpacing.Assoc
import BracketSpacing.Yaml.Token

/-!
Nodes of a YAML document, read from its tokens. An alias stands for the node that its anchor was
put on before; a node that is left out is an empty plain scalar.
-/

set_option autoImplicit false
set_option relaxedAutoImplicit false

namespace BracketSpacing.Yaml

inductive Node where
  | scalar (tag : Option String) (text : String) (plain : Bool)
  | sequence (tag : Option String) (items : List Node)
  | mapping (tag : Option String) (entries : List (Node × Node))
  deriving Repr, Inhabited

namespace Node

/-- The node that is left out. -/
def empty : Node := .scalar none "" true

/-- The tokens ahead and the nodes by anchor. -/
structure State where
  tokens : List Token
  anchors : List (String × Node) := []

abbrev Read := StateT State Option

/-- Fails if `t` is not the next token. -/
def expect (t : Token) : Read PUnit := fun s ↦
  match s.tokens with
  | u :: rest => if u = t then some (⟨⟩, { s with tokens := rest }) else none
  | [] => none

def drop : Read PUnit := modify fun s ↦ { s with tokens := s.tokens.drop 1 }

def peek : Read (Option Token) := return (← get).tokens.head?

/-- Whether one of some tokens is next. -/
def sees (ts : List Token) : Read Bool := return (← get).tokens.head?.any ts.contains

/-- Takes a token if it is next. -/
def take? (t : Token) : Read Bool := do
  if ← sees [t] then
    drop
    return true
  else return false

/-- What may stand before a node. -/
structure Properties where
  anchor : Option String := none
  tag : Option String := none

def anchor? : Read (Option String) := do
  match ← peek with
  | some (.anchor name) =>
    drop
    return some name
  | _ => return none

def tag? : Read (Option String) := do
  match ← peek with
  | some (.tag name) =>
    drop
    return some name
  | _ => return none

/-- An anchor and a tag in either order, both left out or not. -/
def properties : Read Properties := do
  match ← anchor? with
  | some name => return { anchor := some name, tag := ← tag? }
  | none =>
    let tag ← tag?
    if tag.isSome then return { tag, anchor := ← anchor? } else return {}

/-- Remembers a node by its anchor. -/
def anchored (p : Properties) (n : Node) : Read Node := do
  match p.anchor with
  | some name => modify fun s ↦ { s with anchors := Assoc.put name n s.anchors }
  | none => pure ⟨⟩
  return n

def alias? : Read (Option Node) := do
  match ← peek with
  | some (.alias name) =>
    drop
    match (← get).anchors.lookup name with
    | some n => return some n
    | none => failure
  | _ => return none

/-- Where a node stands. -/
structure Setting where
  /-- Outside brackets, where blocks may open. -/
  block : Bool
  /-- Whether dashes at the column of the key make a sequence. -/
  dashes : Bool := false

mutual

/-- Reads a node. -/
def node (w : Version) : (fuel : Nat) → Setting → Read Node
  | 0, _ => failure
  | fuel + 1, setting => do
    match ← alias? with
    | some n => return n
    | none =>
      let p ← properties
      let next ← peek
      match next with
      | some (.scalar text plain) =>
        drop
        anchored p (.scalar p.tag text plain)
      | some .flowSequenceStart =>
        drop
        anchored p (.sequence p.tag (← flowItems w fuel true))
      | some .flowMappingStart =>
        drop
        anchored p (.mapping p.tag (← flowEntries w fuel true))
      | next =>
        if setting.dashes && next == some .blockEntry then
          anchored p (.sequence p.tag (← blockItems w fuel false))
        else if setting.block && next == some .blockSequenceStart then
          drop
          anchored p (.sequence p.tag (← blockItems w fuel true))
        else if setting.block && next == some .blockMappingStart then
          drop
          anchored p (.mapping p.tag (← blockEntries w fuel))
        else if p.anchor.isSome || p.tag.isSome then anchored p (.scalar p.tag "" true)
        else failure

/-- A node, or the empty one before some tokens. -/
def nodeUnless (w : Version) : (fuel : Nat) → Setting → (enders : List Token) → Read Node
  | 0, _, _ => failure
  | fuel + 1, setting, enders => do
    if ← sees enders then return empty else node w fuel setting

/-- The entries of a sequence with dashes; one with an indentation of its own has an end. -/
def blockItems (w : Version) : (fuel : Nat) → (indented : Bool) → Read (List Node)
  | 0, _ => failure
  | fuel + 1, indented => do
    if ← take? .blockEntry then
      let enders :=
        if indented then [.blockEntry, .blockEnd] else [.blockEntry, .key, .value, .blockEnd]
      let item ← nodeUnless w fuel { block := true } enders
      return item :: (← blockItems w fuel indented)
    else
      if indented then expect .blockEnd
      return []

/-- The entries of a mapping by indentation. Since version 1.2 a key may be left out. -/
def blockEntries (w : Version) : (fuel : Nat) → Read (List (Node × Node))
  | 0 => failure
  | fuel + 1 => do
    let setting : Setting := { block := true, dashes := true }
    let enders := [Token.key, .value, .blockEnd]
    if ← take? .key then
      let key ← nodeUnless w fuel setting enders
      let value ← if ← take? .value then nodeUnless w fuel setting enders else pure empty
      return (key, value) :: (← blockEntries w fuel)
    else if w == .v1_2 && (← take? .value) then
      let value ← nodeUnless w fuel setting enders
      return (empty, value) :: (← blockEntries w fuel)
    else
      expect .blockEnd
      return []

/-- The items between square brackets; a key among them makes a mapping of one entry. -/
def flowItems (w : Version) : (fuel : Nat) → (first : Bool) → Read (List Node)
  | 0, _ => failure
  | fuel + 1, first => do
    if ← take? .flowSequenceEnd then return []
    else
      if !first then expect .flowEntry
      if ← take? .flowSequenceEnd then return []
      else if ← take? .key then
        let key ← nodeUnless w fuel { block := false } [.value, .flowEntry, .flowSequenceEnd]
        let value ←
          if ← take? .value then
            nodeUnless w fuel { block := false } [.flowEntry, .flowSequenceEnd]
          else pure empty
        return .mapping none [(key, value)] :: (← flowItems w fuel false)
      else
        let item ← node w fuel { block := false }
        return item :: (← flowItems w fuel false)

/-- The entries between curly brackets; a key or a value may be left out. -/
def flowEntries (w : Version) : (fuel : Nat) → (first : Bool) → Read (List (Node × Node))
  | 0, _ => failure
  | fuel + 1, first => do
    if ← take? .flowMappingEnd then return []
    else
      if !first then expect .flowEntry
      if ← take? .flowMappingEnd then return []
      else
        let flow : Setting := { block := false }
        let enders := [Token.flowEntry, .flowMappingEnd]
        let marked ← take? .key
        let unnamed := !marked && w == .v1_2 && (← sees [.value])
        let key ←
          if marked then nodeUnless w fuel flow (.value :: enders)
          else if unnamed then pure empty
          else node w fuel flow
        let value ←
          if marked || unnamed then
            if ← take? .value then nodeUnless w fuel flow enders else pure empty
          else pure empty
        return (key, value) :: (← flowEntries w fuel false)

end

/-- Directives before a document; the version may be given once, and its first number is one. -/
def directives : (versions : Nat) → List Token → Option (List Token)
  | versions, .directive none :: rest => directives versions rest
  | versions, .directive (some (major, _)) :: rest =>
    if versions = 0 && major = 1 then directives 1 rest else none
  | _, tokens => some tokens

/-- Whether nothing but the end of a document is left. -/
def isDocumentEnd (w : Version) : List Token → Bool
  | [] => true
  | .documentEnd :: rest => rest.all fun t ↦ w == .v1_1 && t == .documentEnd
  | _ => false

/-- The tokens of a document without its directives and its mark, and whether it has the mark. -/
def documentBody : List Token → Option (List Token × Bool)
  | .documentStart :: rest => some (rest, true)
  | .directive d :: rest =>
    match directives 0 (.directive d :: rest) with
    | some (.documentStart :: rest) => some (rest, true)
    | _ => none
  | tokens => some (tokens, false)

/-- The node of a text that holds one document or none. -/
def ofTokens (w : Version) (tokens : List Token) : Option Node :=
  match documentBody tokens with
  | none => none
  | some (body, marked) =>
    if body.isEmpty || (marked && isDocumentEnd w body) then some empty
    else
      match node w (3 * body.length + 3) { block := true } { tokens := body } with
      | some (n, s) => if isDocumentEnd w s.tokens then some n else none
      | none => none

end Node

end BracketSpacing.Yaml
