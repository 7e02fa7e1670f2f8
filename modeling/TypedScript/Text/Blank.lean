/-!
# Blanks and padding

Blank characters are those with the White_Space property. Words that a person typed are compared without the
blanks around them and in lower case. The words they are compared with are made of ASCII letters, so only the
characters whose lower case is one are changed.
-/

namespace TypedScript.Text

def isBlank (c : Char) : Bool :=
  let n := c.toNat
  (9 ≤ n && n ≤ 13) || n = 0x20 || n = 0x85 || n = 0xA0 || n = 0x1680 || (0x2000 ≤ n && n ≤ 0x200A) || n = 0x2028
    || n = 0x2029 || n = 0x202F || n = 0x205F || n = 0x3000

/-- The characters without the blanks at both ends. -/
def trimBlanks (cs : List Char) : List Char := ((cs.dropWhile isBlank).reverse.dropWhile isBlank).reverse

/-- The text without the blanks at both ends. -/
def trim (s : String) : String := String.ofList (trimBlanks s.toList)

/-- A character in lower case, if that is an ASCII letter. Beyond ASCII that holds of the dotted capital i and the
sign for kelvin. -/
def lower (c : Char) : Char :=
  if c.toNat = 0x130 then 'i' else if c.toNat = 0x212A then 'k' else c.toLower

/-- A word as it is compared: without blanks around it, in lower case. -/
def word (s : String) : String := String.ofList ((trimBlanks s.toList).map lower)

/-- The rest of a text that starts with the given one. -/
def after? (start s : String) : Option String :=
  if s.startsWith start then some (String.ofList (s.toList.drop start.length)) else none

/-- The text with blanks in front, up to a width. -/
def padLeft (width : Nat) (s : String) : String := String.ofList (List.replicate (width - s.length) ' ') ++ s

/-- The text with blanks behind, up to a width. -/
def padRight (width : Nat) (s : String) : String := s ++ String.ofList (List.replicate (width - s.length) ' ')

/-- The digits of a number with zeros in front, up to a width. -/
def zeroPadded (width n : Nat) : String :=
  let digits := toString n
  String.ofList (List.replicate (width - digits.length) '0') ++ digits

end TypedScript.Text
