import BracketSpacing.Ignore
import BracketSpacing.Text.Quoted

/-!
A reader of ignore patterns. A pattern is cut at slashes into segments; a segment of two stars spans
directories. Matching follows every way a pattern can consume a path, as the list of what may be
left. Of several patterns the last one that matches decides, and a pattern with a leading `!` takes
the path back in.
-/

set_option autoImplicit false
set_option relaxedAutoImplicit false

namespace BracketSpacing.Ignore

open Text

/-- What a segment is made of. -/
inductive Glyph where
  | literal (c : Char)
  /-- One character but a slash. -/
  | anyOne
  /-- Any number of characters but slashes. -/
  | anyRun
  /-- One character in, or out of, some ranges; it may be a slash. -/
  | oneOf (negated : Bool) (ranges : List (Char × Char))
  deriving DecidableEq, Repr

inductive Segment where
  /-- Two stars. -/
  | directories
  | name (glyphs : List Glyph)
  deriving DecidableEq, Repr

/-- A step in matching a path. -/
inductive Piece where
  | glyph (g : Glyph)
  | slash
  /-- Any directories from the start of the path, or none. -/
  | leadingDirectories
  /-- Any directories below, or none. -/
  | innerDirectories
  /-- The end of a name: a slash or the end of the path. -/
  | nameEnd
  deriving DecidableEq, Repr

inductive Matcher where
  | nothing
  | anyPath
  /-- Paths with a slash. -/
  | nested
  | pieces (ps : List Piece)
  deriving DecidableEq, Repr

structure Pattern where
  negated : Bool
  matcher : Matcher
  deriving DecidableEq, Repr

/-- The error of a pattern that cannot be read. -/
def Error.ofPattern (line : List Char) : Error :=
  ⟨s!"Invalid git pattern: {Quoted.quote (String.ofList line)}"⟩

/-! ### Reading -/

/-- The ranges of a character class; a dash at either end stands for itself. -/
def classRanges : List Char → List (Char × Char)
  | [] => []
  | [a] => [(a, a)]
  | [a, b] => [(a, a), (b, b)]
  | a :: b :: c :: rest =>
    if b = '-' then (a, c) :: classRanges rest else (a, a) :: classRanges (b :: c :: rest)

/-- The content of a class, up to the closing bracket, and what follows it. A bracket that comes
first stands for itself. -/
def classBody : (first : Bool) → List Char → Option (List Char × List Char)
  | _, [] => none
  | first, c :: rest =>
    if c = ']' && !first then some ([], rest)
    else (classBody false rest).map fun r ↦ (c :: r.1, r.2)

/-- A class behind its opening bracket: whether it is negated, its content and what follows. -/
def classAt : List Char → Option (Bool × List Char × List Char)
  | c :: rest =>
    if c = '!' || c = '^' then (classBody true rest).map fun r ↦ (true, r.1, r.2)
    else (classBody true (c :: rest)).map fun r ↦ (false, r.1, r.2)
  | [] => none

/-- How reading a segment ends. -/
inductive Glyphs where
  | read (glyphs : List Glyph)
  /-- A class that is not closed: the pattern matches nothing. -/
  | unclosed
  /-- A backslash with nothing behind it. -/
  | dangling

def Glyphs.cons (g : Glyph) : Glyphs → Glyphs
  | .read gs => .read (g :: gs)
  | other => other

def glyphsFrom : (fuel : Nat) → List Char → Glyphs
  | 0, _ => .read []
  | _, [] => .read []
  | fuel + 1, c :: rest =>
    if c = '\\' then
      match rest with
      | [] => .dangling
      | d :: rest => (glyphsFrom fuel rest).cons (.literal d)
    else if c = '*' then (glyphsFrom fuel rest).cons .anyRun
    else if c = '?' then (glyphsFrom fuel rest).cons .anyOne
    else if c = '[' then
      match classAt rest with
      | none => .unclosed
      | some (negated, body, rest) =>
        (glyphsFrom fuel rest).cons (.oneOf negated (classRanges body))
    else (glyphsFrom fuel rest).cons (.literal c)

/-- A star alone needs at least one character. -/
def segmentGlyphs (segment : List Char) : Glyphs :=
  if segment = ['*'] then .read [.anyOne, .anyRun] else glyphsFrom segment.length segment

def isDoubleStar (segment : List Char) : Bool := segment == ['*', '*']

/-- Drops a double star behind another one. -/
def collapse : List (List Char) → List (List Char)
  | [] => []
  | [s] => [s]
  | s :: t :: rest =>
    if isDoubleStar s && isDoubleStar t then collapse (t :: rest) else s :: collapse (t :: rest)

/-- A leading slash ties a pattern to the root; a pattern of one segment matches at any depth. -/
def anchor (segments : List (List Char)) : List (List Char) :=
  match segments with
  | [] :: rest => rest
  | [s] => if isDoubleStar s then [s] else [['*', '*'], s]
  | [s, []] => if isDoubleStar s then [s, []] else [['*', '*'], s, []]
  | other => other

/-- A trailing slash stands for everything below. -/
def openEnd : List (List Char) → List (List Char)
  | [] => []
  | [s] => [if s.isEmpty then ['*', '*'] else s]
  | s :: rest => s :: openEnd rest

/-- How reading segments ends. -/
inductive Segments where
  | read (segments : List Segment)
  | unclosed
  | dangling

def Segments.cons (s : Segment) : Segments → Segments
  | .read ss => .read (s :: ss)
  | other => other

/-- Reads segments from left to right, the first fault deciding. -/
def readSegments : List (List Char) → Segments
  | [] => .read []
  | s :: rest =>
    if isDoubleStar s then (readSegments rest).cons .directories
    else
      match segmentGlyphs s with
      | .unclosed => .unclosed
      | .dangling => .dangling
      | .read gs => (readSegments rest).cons (.name gs)

def slashIf (needed : Bool) : List Piece := if needed then [.slash] else []

/-- The steps of segments; `first` tells that none came before, `needSlash` that a name or inner
directories did. -/
def piecesOf : (first needSlash : Bool) → List Segment → List Piece
  | _, _, [] => []
  | _, _, [.directories] => [.slash]
  | true, _, .directories :: rest => .leadingDirectories :: piecesOf false false rest
  | false, _, .directories :: rest => .innerDirectories :: piecesOf false true rest
  | _, needSlash, [.name gs] => slashIf needSlash ++ gs.map .glyph ++ [.nameEnd]
  | _, needSlash, .name gs :: rest =>
    slashIf needSlash ++ gs.map .glyph ++ piecesOf false true rest

def anyName : Segment := .name [.anyOne, .anyRun]

def matcherOf (isDirectory : Bool) (segments : List Segment) : Matcher :=
  if segments = [.directories] then (if isDirectory then .nested else .anyPath)
  else if segments = [.directories, anyName] then .anyPath
  else if segments = [.directories, anyName, .directories] then .nested
  else .pieces (piecesOf true false segments)

/-- Reads a pattern that is neither blank nor a comment. -/
def Pattern.read (line : List Char) : Except Error Pattern :=
  if line = ['/'] then .ok ⟨false, .nothing⟩
  else
    let negated := line.head? = some '!'
    let body := if negated then line.drop 1 else line
    let raw := body.splitOn '/'
    let isDirectory := raw.getLast?.any List.isEmpty
    match collapse (openEnd (anchor raw)) with
    | [] => .error (.ofPattern line)
    | segments =>
      match readSegments segments with
      | .dangling => .error (.ofPattern line)
      | .unclosed => .ok ⟨negated, .nothing⟩
      | .read segments => .ok ⟨negated, matcherOf isDirectory segments⟩

/-! ### Matching -/

/-- What is left behind each run of characters that are no slashes, the empty run first. -/
def restsOfRun : List Char → List (List Char)
  | [] => [[]]
  | c :: rest => (c :: rest) :: if c = '/' then [] else restsOfRun rest

def Glyph.rests (g : Glyph) (path : List Char) : List (List Char) :=
  match g, path with
  | .anyRun, path => restsOfRun path
  | .literal c, d :: rest => if d = c then [rest] else []
  | .anyOne, d :: rest => if d ≠ '/' then [rest] else []
  | .oneOf negated ranges, d :: rest =>
    let inside := ranges.any fun r ↦ r.1 ≤ d && d ≤ r.2
    if inside != negated then [rest] else []
  | _, [] => []

/-- What is left behind each slash but one at the very start, newlines not passed. -/
def restsBehindSlashes : (first : Bool) → List Char → List (List Char)
  | _, [] => []
  | first, c :: rest =>
    let more := if c = '\n' then [] else restsBehindSlashes false rest
    if c = '/' && !first then rest :: more else more

/-- What is left behind each run of one or more characters, newlines not passed. -/
def restsOfAnything : List Char → List (List Char)
  | [] => []
  | c :: rest => if c = '\n' then [] else rest :: restsOfAnything rest

def Piece.rests (p : Piece) (path : List Char) : List (List Char) :=
  match p with
  | .glyph g => g.rests path
  | .slash =>
    match path with
    | '/' :: rest => [rest]
    | _ => []
  | .leadingDirectories => path :: restsBehindSlashes true path
  | .innerDirectories =>
    match path with
    | '/' :: rest => path :: restsOfAnything rest
    | _ => [path]
  | .nameEnd =>
    match path with
    | '/' :: rest => [rest]
    | [] => [[]]
    | ['\n'] => [['\n']]
    | _ => []

/-- Whether the steps can be taken one after the other, whatever is left. -/
def matchPieces : List Piece → List Char → Bool
  | [], _ => true
  | p :: ps, path => (p.rests path).any (matchPieces ps)

def Matcher.matches (m : Matcher) (path : List Char) : Bool :=
  match m with
  | .nothing => false
  | .anyPath => path.any (· ≠ '\n')
  | .nested => path.contains '/'
  | .pieces ps => matchPieces ps path

/-- A path without one leading slash or `./`. -/
def normalize : List Char → List Char
  | '/' :: rest => rest
  | '.' :: '/' :: rest => rest
  | path => path

/-- Patterns in the order in which they are written. -/
structure Spec where
  patterns : List Pattern
  deriving DecidableEq, Repr

/-- Whether a path is ignored: the last pattern that matches decides. -/
def Spec.ignores (s : Spec) (path : String) : Bool :=
  let cs := normalize path.toList
  match s.patterns.reverse.find? (·.matcher.matches cs) with
  | some p => !p.negated
  | none => false

def readAll : List (List Char) → Except Error (List Pattern)
  | [] => .ok []
  | line :: rest =>
    match Pattern.read line with
    | .error e => .error e
    | .ok p => (readAll rest).map (p :: ·)

/-- The patterns of some lines, each of which holds one. -/
def Spec.read (lines : List String) : Except Error Spec :=
  (readAll (lines.map String.toList)).map fun ps ↦ ⟨ps⟩

end BracketSpacing.Ignore
