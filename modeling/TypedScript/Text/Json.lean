import TypedScript.Text.Quoted

/-!
# JSON text

Values are written with their members in the order given. In strings the characters that mean something in markup
and the two separators of lines and paragraphs are escaped, as well as everything that has to be.
-/

namespace TypedScript.Text

/-- A value to be written. -/
inductive Json where
  | null
  | string (s : String)
  | number (n : Int)
  | bool (v : Bool)
  | array (items : List Json)
  | object (members : List (String × Json))
  deriving Inhabited

namespace Json

/-- One character as it stands in a string. -/
def escapeChar (c : Char) : List Char :=
  let n := c.toNat
  match c with
  | '"' => ['\\', '"']
  | '\\' => ['\\', '\\']
  | '\n' => ['\\', 'n']
  | '\t' => ['\\', 't']
  | '\r' => ['\\', 'r']
  | c =>
    if n = 8 then ['\\', 'b']
    else if n = 12 then ['\\', 'f']
    else if n < 0x20 || c = '<' || c = '>' || c = '&' || n = 0x2028 || n = 0x2029 then '\\' :: 'u' :: hexPadded 4 n
    else [c]

def stringText (s : String) : String := String.ofList ('"' :: s.toList.flatMap escapeChar ++ ['"'])

mutual

/-- The value without blanks. -/
def compact : Json → String
  | null => "null"
  | string s => stringText s
  | number n => toString n
  | bool v => if v then "true" else "false"
  | array items => "[" ++ ",".intercalate (compactItems items) ++ "]"
  | object members => "\x7b" ++ ",".intercalate (compactMembers members) ++ "\x7d"

def compactItems : List Json → List String
  | [] => []
  | v :: vs => v.compact :: compactItems vs

def compactMembers : List (String × Json) → List String
  | [] => []
  | (k, v) :: ms => (stringText k ++ ":" ++ v.compact) :: compactMembers ms

end

/-- Parts on lines of their own between brackets; no lines if there are none. -/
def bracket (opening closing margin : String) (parts : List String) : String :=
  if parts.isEmpty then opening ++ closing
  else
    let inner := margin ++ "  "
    opening ++ "\n" ++ ",\n".intercalate (parts.map (inner ++ ·)) ++ "\n" ++ margin ++ closing

mutual

/-- The value over several lines, each level indented by two blanks; `margin` is the indentation so far. -/
def indented (margin : String) : Json → String
  | array items => bracket "[" "]" margin (indentedItems (margin ++ "  ") items)
  | object members => bracket "\x7b" "\x7d" margin (indentedMembers (margin ++ "  ") members)
  | v => v.compact

def indentedItems (margin : String) : List Json → List String
  | [] => []
  | v :: vs => v.indented margin :: indentedItems margin vs

def indentedMembers (margin : String) : List (String × Json) → List String
  | [] => []
  | (k, v) :: ms => (stringText k ++ ": " ++ v.indented margin) :: indentedMembers margin ms

end

end Json

end TypedScript.Text
