import BracketSpacing.Token

/-!
A computed access seen from its brackets: the token before the inner expression, its first and last
token, and the token after it.
-/

set_option autoImplicit false
set_option relaxedAutoImplicit false

namespace BracketSpacing

inductive Region.Kind where
  /-- A member access, `obj[key]`. -/
  | member
  /-- The key of an object property, `[key]: value`. -/
  | property
  deriving DecidableEq, Repr

def Region.Kind.name : Region.Kind → String
  | .member => "member"
  | .property => "property"

structure Region where
  kind : Region.Kind
  /-- Where the access or property that owns the brackets starts. -/
  owner : Position
  before : Token
  first : Token
  last : Token
  after : Token
  deriving DecidableEq, Repr

namespace Region

def leadingSpaced (r : Region) : Bool := r.before.spaced r.first

def leadingSameLine (r : Region) : Bool := r.before.sameLine r.first

def trailingSpaced (r : Region) : Bool := r.last.spaced r.after

def trailingSameLine (r : Region) : Bool := r.last.sameLine r.after

/-- Columns between the opening bracket and the inner expression. -/
def leadingColumns (r : Region) : Int := r.first.startColumn - r.before.stopColumn

/-- Columns between the inner expression and the closing bracket. -/
def trailingColumns (r : Region) : Int := r.after.startColumn - r.last.stopColumn

end Region

end BracketSpacing
