import TypedScript.Text.Decomposition

/-!
# Canonical composition

`compose` brings a text into the form in which canonically equivalent spellings coincide: it is decomposed, its
combining marks are put in order of their classes, and what can be composed again is. A run of more than thirty
marks is cut by combining grapheme joiners.
-/

namespace TypedScript.Text

/-- The canonical combining class; zero for a starter. -/
def combiningClass (c : Char) : Nat :=
  match combiningClasses.find? fun r => r.1 ≤ c.toNat && c.toNat ≤ r.2.1 with
  | some r => r.2.2
  | none => 0

/-- The letters of a Hangul syllable. -/
def hangulLetters? (n : Nat) : Option (List Char) :=
  if 0xAC00 ≤ n ∧ n ≤ 0xD7A3 then
    let i := n - 0xAC00
    let t := i % 28
    some ([Char.ofNat (0x1100 + i / 588), Char.ofNat (0x1161 + i % 588 / 28)]
      ++ if t = 0 then [] else [Char.ofNat (0x11A7 + t)])
  else none

/-- The full canonical decomposition of a character. Mappings nest at most `depth` deep. -/
def decomposeChar : Nat → Char → List Char
  | 0, c => [c]
  | depth + 1, c =>
    let n := c.toNat
    match hangulLetters? n with
    | some letters => letters
    | none =>
      match singletonMappings.find? (·.1 = n) with
      | some (_, m) => decomposeChar depth (Char.ofNat m)
      | none =>
        match pairMappings.find? (·.1 = n) with
        | some (_, a, b) => decomposeChar depth (Char.ofNat a) ++ decomposeChar depth (Char.ofNat b)
        | none => [c]

/-- No canonical mapping of the database nests deeper. -/
def mappingDepth : Nat := 5

/-- The longest run of marks that is left uncut. -/
def longestMarkRun : Nat := 30

/-- Decomposes a text; `run` marks have been written since the last starter. -/
def decomposeText (run : Nat) : List Char → List Char
  | [] => []
  | c :: rest =>
    let parts := decomposeChar mappingDepth c
    let isMark := fun x => combiningClass x ≠ 0
    let leading := (parts.takeWhile isMark).length
    let trailing := (parts.reverse.takeWhile isMark).length
    if leading = 0 then parts ++ decomposeText trailing rest
    else if run + leading > longestMarkRun then '\u034F' :: parts ++ decomposeText trailing rest
    else parts ++ decomposeText (run + leading) rest

/-- Puts each run of marks in order of class, marks of one class keeping their order. -/
def orderMarks (run : List Char) : List Char → List Char
  | [] => sorted
  | c :: rest =>
    if combiningClass c = 0 then sorted ++ c :: orderMarks [] rest
    else orderMarks (c :: run) rest
where
  sorted := run.reverse.mergeSort fun a b => combiningClass a ≤ combiningClass b

/-- The character that two characters compose to. -/
def composePair? (a b : Char) : Option Char :=
  let x := a.toNat
  let y := b.toNat
  if 0x1100 ≤ x ∧ x ≤ 0x1112 ∧ 0x1161 ≤ y ∧ y ≤ 0x1175 then
    some (Char.ofNat (0xAC00 + ((x - 0x1100) * 21 + (y - 0x1161)) * 28))
  else if 0xAC00 ≤ x ∧ x ≤ 0xD7A3 ∧ (x - 0xAC00) % 28 = 0 ∧ 0x11A8 ≤ y ∧ y ≤ 0x11C2 then
    some (Char.ofNat (x + (y - 0x11A7)))
  else
    (pairMappings.find? fun p => p.2.1 = x && p.2.2 = y && !compositionExclusions.contains p.1).map
      (Char.ofNat ·.1)

/-- Composes onto `starter` what follows it. The marks kept so far stand in `kept`, last first; a mark composes
only if no kept mark has its class or a higher one. -/
def composeFrom (starter : Char) (kept : List Char) : List Char → List Char
  | [] => starter :: kept.reverse
  | c :: rest =>
    let cls := combiningClass c
    let blocked := match kept with
      | [] => false
      | last :: _ => cls ≤ combiningClass last
    match if blocked then none else composePair? starter c with
    | some p => composeFrom p kept rest
    | none =>
      if cls = 0 then starter :: kept.reverse ++ composeFrom c [] rest
      else composeFrom starter (c :: kept) rest

/-- The canonical composed form of a text. A text of ASCII characters is composed already. -/
def compose (s : String) : String :=
  if s.toList.all (·.toNat < 0x80) then s
  else match orderMarks [] (decomposeText 0 s.toList) with
  | [] => ""
  | c :: rest => String.ofList (composeFrom c [] rest)

end TypedScript.Text
