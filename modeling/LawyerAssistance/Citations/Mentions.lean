import LawyerAssistance.Citations.Evidence

/-!
# Articles which an answer mentions

The final answer may name an article only when a citation of it was retrieved. The scan reads the
names between `《` and `》`, and the articles which follow a name up to the next name or the end of
the sentence; names are compared after a normalization, and one may contain the other.
-/

namespace LawyerAssistance.Citations

/-! ## Numbers of articles -/

/-- A value of the type `u32`. -/
def checkedU32 (value : Nat) : Option Nat := if value < 2 ^ 32 then some value else none

/-- The Chinese digits. -/
def chineseDigit (character : Char) : Option Nat :=
  match character with
  | '零' | '〇' => some 0
  | '一' => some 1
  | '二' | '两' => some 2
  | '三' => some 3
  | '四' => some 4
  | '五' => some 5
  | '六' => some 6
  | '七' => some 7
  | '八' => some 8
  | '九' => some 9
  | _ => none

/-- The Chinese units. -/
def chineseUnit (character : Char) : Option Nat :=
  match character with
  | '十' => some 10
  | '百' => some 100
  | '千' => some 1000
  | _ => none

/-- The loop of `normalize_article_number`: the total, the section before the next unit, and
whether a digit was seen. -/
def readNumeral : Nat × Nat × Bool → List Char → Option (Nat × Nat × Bool)
  | state, [] => some state
  | (total, sectionValue, _), character :: rest =>
      match chineseDigit character with
      | some digit => do
          let shifted ← checkedU32 (sectionValue * 10)
          let sectionValue ← checkedU32 (shifted + digit)
          readNumeral (total, sectionValue, true) rest
      | none => do
          let unit ← chineseUnit character
          let scaled ← checkedU32 ((if sectionValue = 0 then 1 else sectionValue) * unit)
          let total ← checkedU32 (total + scaled)
          readNumeral (total, 0, true) rest

/-- The value of ASCII digits. -/
def decimalValue (digits : List Char) : Nat :=
  digits.foldl (fun value digit => value * 10 + (digit.toNat - '0'.toNat)) 0

/-- `normalize_article_number`. -/
def normalizeArticleNumber (raw : List Char) : Option Nat :=
  let compact := raw.filter fun character => Text.isWhitespace character = false
  if compact ≠ [] ∧ compact.all Char.isDigit = true then
    (checkedU32 (decimalValue compact)).filter fun number => 0 < number
  else do
    let (total, sectionValue, sawDigit) ← readNumeral (0, 0, false) compact
    if sawDigit = false then none
    else (checkedU32 (total + sectionValue)).filter fun number => 0 < number

section Scan

variable {state : Option (List Char)} {title rest : List Char}
  {found : List Char × List Char}

end Scan

/-! ## The scan finds the articles -/

section Articles

variable {number : List Char} {value : Nat}

end Articles

/-! ## Accepted answers -/

section Accepted

variable {content : String} {citations : List CitationValue}
  {before title between number after : List Char} {value : Nat}

end Accepted

end LawyerAssistance.Citations
