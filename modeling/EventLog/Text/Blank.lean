/-!
# EventLog.Text.Blank

Two classes of characters: blanks, which trimming removes, and controls,
which a sensor path may not hold.  Both are the Unicode properties of those
names (`White_Space`, and the general category `Cc`).
-/

namespace EventLog.Text

/-- The Unicode property `White_Space`. -/
def isBlank (c : Char) : Bool :=
  let n := c.toNat
  (9 ≤ n && n ≤ 13) || n == 0x20 || n == 0x85 || n == 0xA0 || n == 0x1680
    || (0x2000 ≤ n && n ≤ 0x200A) || n == 0x2028 || n == 0x2029 || n == 0x202F || n == 0x205F
    || n == 0x3000

/-- The Unicode general category `Cc`. -/
def isControl (c : Char) : Bool :=
  let n := c.toNat
  n < 0x20 || (0x7F ≤ n && n < 0xA0)

def trimmedLeft (text : List Char) : List Char := text.dropWhile isBlank

def trimmedRight (text : List Char) : List Char := (text.reverse.dropWhile isBlank).reverse

def trimmed (text : List Char) : List Char := trimmedRight (trimmedLeft text)

def isBlankText (text : List Char) : Bool := text.all isBlank

end EventLog.Text
