import BracketSpacing.Yaml.Schema

/-!
A reader of YAML texts that hold one document or none.
-/

set_option autoImplicit false
set_option relaxedAutoImplicit false

namespace BracketSpacing.Yaml

/-- The value of a text whose line ends are newlines; a text without a document is null. -/
def parse (text : List Char) : Except Error Value :=
  match scan text with
  | none => .error .unreadable
  | some (tokens, w) =>
    match Node.ofTokens w tokens with
    | none => .error .unreadable
    | some n => valueOf w n

end BracketSpacing.Yaml
