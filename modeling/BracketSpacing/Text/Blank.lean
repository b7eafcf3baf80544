/-!
Blank characters, and a text without those at its ends.
-/

set_option autoImplicit false
set_option relaxedAutoImplicit false

namespace BracketSpacing.Text

/-- Unicode white space and the four information separators. -/
def isBlank (c : Char) : Bool :=
  let n := c.toNat
  (0x09 ≤ n && n ≤ 0x0D) || (0x1C ≤ n && n ≤ 0x20) || n == 0x85 || n == 0xA0 || n == 0x1680 ||
    (0x2000 ≤ n && n ≤ 0x200A) || n == 0x2028 || n == 0x2029 || n == 0x202F || n == 0x205F ||
    n == 0x3000

def stripEnd (text : List Char) : List Char := (text.reverse.dropWhile isBlank).reverse

/-- The text without blanks at either end. -/
def strip (text : List Char) : List Char := stripEnd (text.dropWhile isBlank)

end BracketSpacing.Text
