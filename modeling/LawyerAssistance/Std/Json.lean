import Mathlib.Algebra.Group.Int.Defs
import Mathlib.Algebra.GroupWithZero.Nat
import Mathlib.Data.List.Basic
import Mathlib.Tactic.SplitIfs

/-!
# A reader of JSON

A reader of the texts of RFC 8259 with a bound on the nesting of arrays and objects. It keeps the
members of an object as they stand, with repeated names, and tells integers of 64 bits from all
other numbers.

The rules of `Reads` say of which texts a tree is read, whatever stands behind them: one rule for
each kind of value, so that a writer is shown to be read back by induction on what it writes.
-/

namespace LawyerAssistance.Json

/-- What a text stands for. -/
inductive Tree where
  | null
  | bool (value : Bool)
  | integer (value : Int)
  /-- A number which is no integer of 64 bits. -/
  | float
  | string (value : List Char)
  | array (elements : List Tree)
  | object (members : List (List Char × Tree))

/-! ## Characters -/

/-- The text behind white space. -/
def skipSpace (text : List Char) : List Char :=
  text.dropWhile fun character => [' ', '\n', '\t', '\r'].contains character

/-- The value of a hexadecimal digit. -/
def hexDigit (character : Char) : Option Nat :=
  let code := character.toNat
  if 0x30 ≤ code ∧ code ≤ 0x39 then some (code - 0x30)
  else if 0x41 ≤ code ∧ code ≤ 0x46 then some (code - 0x41 + 10)
  else if 0x61 ≤ code ∧ code ≤ 0x66 then some (code - 0x61 + 10)
  else none

/-- The value of four hexadecimal digits, and the text behind them. -/
def readHex (text : List Char) : Option (Nat × List Char) :=
  match text with
  | a :: b :: c :: d :: rest => do
      let a ← hexDigit a
      let b ← hexDigit b
      let c ← hexDigit c
      let d ← hexDigit d
      some (((a * 16 + b) * 16 + c) * 16 + d, rest)
  | _ => none

/-- The character of an escape, behind the backslash. -/
def readEscape (text : List Char) : Option (Char × List Char) :=
  match text with
  | '"' :: rest => some ('"', rest)
  | '\\' :: rest => some ('\\', rest)
  | '/' :: rest => some ('/', rest)
  | 'b' :: rest => some ('\x08', rest)
  | 'f' :: rest => some ('\x0c', rest)
  | 'n' :: rest => some ('\n', rest)
  | 'r' :: rest => some ('\r', rest)
  | 't' :: rest => some ('\t', rest)
  | 'u' :: rest => do
      let (code, rest) ← readHex rest
      if 0xd800 ≤ code ∧ code < 0xdc00 then
        match rest with
        | '\\' :: 'u' :: rest => do
            let (low, rest) ← readHex rest
            if 0xdc00 ≤ low ∧ low < 0xe000 then
              some (Char.ofNat (0x10000 + (code - 0xd800) * 0x400 + (low - 0xdc00)), rest)
            else none
        | _ => none
      else if 0xdc00 ≤ code ∧ code < 0xe000 then none
      else some (Char.ofNat code, rest)
  | _ => none

/-- The characters of a string up to its quotation mark. Every character takes fuel. -/
def readCharacters : Nat → List Char → Option (List Char × List Char)
  | 0, _ => none
  | _ + 1, [] => none
  | fuel + 1, character :: rest =>
      if character = '"' then some ([], rest)
      else if character = '\\' then do
        let (escaped, rest) ← readEscape rest
        let (others, rest) ← readCharacters fuel rest
        some (escaped :: others, rest)
      else if character.toNat < 0x20 then none
      else do
        let (others, rest) ← readCharacters fuel rest
        some (character :: others, rest)

/-! ## Numbers -/

/-- Digits, at least one of them, and the text behind them. -/
def readDigits (text : List Char) : Option (List Char × List Char) :=
  if text.takeWhile Char.isDigit = [] then none
  else some (text.takeWhile Char.isDigit, text.dropWhile Char.isDigit)

/-- The text behind an exponent. -/
def readExponent (text : List Char) : Option (List Char) :=
  match text with
  | '+' :: rest | '-' :: rest => (readDigits rest).map Prod.snd
  | _ => (readDigits text).map Prod.snd

/-- The text behind a fraction and an exponent, when there is one of them. -/
def readFraction (text : List Char) : Option (Option (List Char)) :=
  match text with
  | '.' :: rest => do
      let (_, rest) ← readDigits rest
      match rest with
      | 'e' :: rest | 'E' :: rest => (readExponent rest).map some
      | _ => some (some rest)
  | 'e' :: rest | 'E' :: rest => (readExponent rest).map some
  | _ => some none

/-- An integer of 64 bits with or without a sign; the negative zero is none. -/
def integerOf (negative : Bool) (value : Nat) : Tree :=
  if negative then if value = 0 ∨ 2 ^ 63 < value then .float else .integer (-value)
  else if value < 2 ^ 64 then .integer value else .float

/-- A number without its sign. -/
def readUnsigned (negative : Bool) (text : List Char) : Option (Tree × List Char) := do
  let (digits, rest) ← readDigits text
  if digits.head? = some '0' ∧ 1 < digits.length then none
  else
    match ← readFraction rest with
    | some rest => some (.float, rest)
    | none => some (integerOf negative (Nat.ofDigitChars 10 digits 0), rest)

/-- A number. -/
def readNumber (text : List Char) : Option (Tree × List Char) :=
  match text with
  | '-' :: rest => readUnsigned true rest
  | _ => readUnsigned false text

/-! ## Values -/

/-- The text behind a literal. -/
def readLiteral (tree : Tree) (literal text : List Char) : Option (Tree × List Char) :=
  if literal.isPrefixOf text then some (tree, text.drop literal.length) else none

mutual

/-- A value, with arrays and objects nested up to a depth. Each value, element and member takes
fuel. -/
def readValue : Nat → Nat → List Char → Option (Tree × List Char)
  | 0, _, _ => none
  | fuel + 1, depth, text =>
      match skipSpace text with
      | [] => none
      | character :: rest =>
          if character = '"' then
            (readCharacters rest.length rest).map fun read => (.string read.1, read.2)
          else if character = '[' then
            match depth with
            | 0 => none
            | depth + 1 =>
                if (skipSpace rest).head? = some ']' then some (.array [], (skipSpace rest).tail)
                else (readElements fuel depth rest).map fun read => (.array read.1, read.2)
          else if character = '{' then
            match depth with
            | 0 => none
            | depth + 1 =>
                if (skipSpace rest).head? = some '}' then some (.object [], (skipSpace rest).tail)
                else (readMembers fuel depth rest).map fun read => (.object read.1, read.2)
          else if character = 'n' then readLiteral .null "ull".toList rest
          else if character = 't' then readLiteral (.bool true) "rue".toList rest
          else if character = 'f' then readLiteral (.bool false) "alse".toList rest
          else readNumber (character :: rest)

/-- The elements of an array up to its bracket. -/
def readElements : Nat → Nat → List Char → Option (List Tree × List Char)
  | 0, _, _ => none
  | fuel + 1, depth, text => do
      let (element, rest) ← readValue fuel depth text
      match skipSpace rest with
      | ']' :: rest => some ([element], rest)
      | ',' :: rest => do
          let (others, rest) ← readElements fuel depth rest
          some (element :: others, rest)
      | _ => none

/-- The members of an object up to its brace. -/
def readMembers : Nat → Nat → List Char → Option (List (List Char × Tree) × List Char)
  | 0, _, _ => none
  | fuel + 1, depth, text =>
      match skipSpace text with
      | '"' :: rest => do
          let (name, rest) ← readCharacters rest.length rest
          match skipSpace rest with
          | ':' :: rest => do
              let (value, rest) ← readValue fuel depth rest
              match skipSpace rest with
              | '}' :: rest => some ([(name, value)], rest)
              | ',' :: rest => do
                  let (others, rest) ← readMembers fuel depth rest
                  some ((name, value) :: others, rest)
              | _ => none
          | _ => none
      | _ => none

end

/-- A whole text. Two units of fuel a character are enough, as a value or a member behind another
takes at least two characters, and a value in an array at least one. -/
def read (depth : Nat) (text : List Char) : Option Tree :=
  match readValue (2 * text.length) depth text with
  | some (tree, rest) => if skipSpace rest = [] then some tree else none
  | none => none

/-! ## Strings and integers as they are written -/

/-- A hexadecimal digit. -/
def hexCharacter (value : Nat) : Char :=
  if value < 10 then Char.ofNat (0x30 + value) else Char.ofNat (0x57 + value)

/-- A character in a string, escaped when it has to be. -/
def escapeCharacter (character : Char) : List Char :=
  if character = '"' then ['\\', '"']
  else if character = '\\' then ['\\', '\\']
  else if character = '\x08' then ['\\', 'b']
  else if character = '\t' then ['\\', 't']
  else if character = '\n' then ['\\', 'n']
  else if character = '\x0c' then ['\\', 'f']
  else if character = '\r' then ['\\', 'r']
  else if character.toNat < 0x20 then
    ['\\', 'u', '0', '0', hexCharacter (character.toNat / 16), hexCharacter (character.toNat % 16)]
  else [character]

/-- A string between quotation marks. -/
def quote (value : List Char) : List Char :=
  '"' :: (value.flatMap escapeCharacter ++ ['"'])

/-- An integer in decimal digits. -/
def decimal (value : Int) : List Char :=
  if value < 0 then '-' :: Nat.toDigits 10 value.natAbs else Nat.toDigits 10 value.natAbs

theorem hexDigit_hexCharacter : ∀ value < 16, hexDigit (hexCharacter value) = some value := by
  decide

/-- A character stands for itself, or its escape is read back. -/
theorem escapeCharacter_cases (character : Char) :
    (escapeCharacter character = [character] ∧ character ≠ '"' ∧ character ≠ '\\' ∧
      ¬ character.toNat < 0x20) ∨
    ∃ body, escapeCharacter character = '\\' :: body ∧
      ∀ rest, readEscape (body ++ rest) = some (character, rest) := by
  rw [escapeCharacter]
  split_ifs with quoted backslash backspace tab newline feed carriage control
  · exact .inr ⟨_, rfl, fun rest => by rw [quoted]; rfl⟩
  · exact .inr ⟨_, rfl, fun rest => by rw [backslash]; rfl⟩
  · exact .inr ⟨_, rfl, fun rest => by rw [backspace]; rfl⟩
  · exact .inr ⟨_, rfl, fun rest => by rw [tab]; rfl⟩
  · exact .inr ⟨_, rfl, fun rest => by rw [newline]; rfl⟩
  · exact .inr ⟨_, rfl, fun rest => by rw [feed]; rfl⟩
  · exact .inr ⟨_, rfl, fun rest => by rw [carriage]; rfl⟩
  · refine .inr ⟨_, rfl, fun rest => ?_⟩
    have high := hexDigit_hexCharacter (character.toNat / 16) (by omega)
    have low := hexDigit_hexCharacter (character.toNat % 16) (by omega)
    have zero : hexDigit '0' = some 0 := rfl
    have code : ((0 * 16 + 0) * 16 + character.toNat / 16) * 16 + character.toNat % 16 =
        character.toNat := by omega
    have hex : readHex ('0' :: '0' :: hexCharacter (character.toNat / 16) ::
        hexCharacter (character.toNat % 16) :: rest) = some (character.toNat, rest) := by
      simp only [readHex, zero, high, low, Option.bind_eq_bind, Option.bind_some, code]
    simp only [readEscape, List.cons_append, List.nil_append, hex, Option.bind_eq_bind,
      Option.bind_some]
    rw [if_neg (by omega), if_neg (by omega), Char.ofNat_toNat]
  · exact .inl ⟨rfl, quoted, backslash, control⟩

/-- A written string is read up to its end. -/
theorem readCharacters_quoted (value rest : List Char) {fuel : Nat} (enough : value.length < fuel) :
    readCharacters fuel (value.flatMap escapeCharacter ++ '"' :: rest) = some (value, rest) := by
  induction value generalizing fuel with
  | nil =>
      obtain ⟨fuel, rfl⟩ := Nat.exists_eq_succ_of_ne_zero (Nat.ne_of_gt enough)
      rw [List.flatMap_nil, List.nil_append, readCharacters, if_pos rfl]
  | cons character others inductionHypothesis =>
      obtain ⟨fuel, rfl⟩ := Nat.exists_eq_succ_of_ne_zero (Nat.ne_of_gt (Nat.zero_lt_of_lt enough))
      have following := inductionHypothesis (Nat.lt_of_succ_lt_succ enough)
      rw [List.flatMap_cons, List.append_assoc]
      obtain ⟨same, quotation, backslash, visible⟩ | ⟨body, escaped, escapeRead⟩ :=
        escapeCharacter_cases character
      · rw [same, List.singleton_append, readCharacters, if_neg quotation, if_neg backslash,
          if_neg visible, following]
        rfl
      · rw [escaped, List.cons_append, readCharacters, if_neg (by decide), if_pos rfl, escapeRead]
        simp only [Option.bind_eq_bind, Option.bind_some, following]

/-- Digits do not begin with a zero, unless there is one digit. -/
theorem toDigits_head (value : Nat) :
    ¬ ((Nat.toDigits 10 value).head? = some '0' ∧ 1 < (Nat.toDigits 10 value).length) := by
  induction value using Nat.strongRecOn with
  | ind value inductionHypothesis =>
      rintro ⟨zero, long⟩
      by_cases small : value < 10
      · rw [Nat.toDigits_of_lt_base small] at long
        exact Nat.lt_irrefl _ long
      · rw [Nat.toDigits_of_base_le (by decide) (by omega),
          List.head?_append_of_ne_nil _ Nat.toDigits_ne_nil] at zero
        refine inductionHypothesis (value / 10) (by omega) ⟨zero, ?_⟩
        by_cases tens : value / 10 < 10
        · rw [Nat.toDigits_of_lt_base tens, List.head?_cons, Option.some.injEq] at zero
          have leading : ∀ digit < 10, 0 < digit → digit.digitChar ≠ '0' := by decide
          exact absurd zero (leading (value / 10) tens (by omega))
        · rw [Nat.toDigits_of_base_le (by decide) (by omega), List.length_append]
          have some := List.length_pos_of_ne_nil
            (Nat.toDigits_ne_nil (n := value / 10 / 10) (b := 10))
          simp only [List.length_cons, List.length_nil]
          omega

/-! ## Rules -/

/-- No part of a number stands at the front of a text. -/
def Delimited (text : List Char) : Prop :=
  ∀ character ∈ text.head?, character.isDigit = false ∧ character ≠ '.' ∧ character ≠ 'e' ∧
    character ≠ 'E'

/-- A text is read as a tree, whatever is behind it. -/
structure Reads (depth : Nat) (text : List Char) (tree : Tree) : Prop where
  nonempty : text ≠ []
  read : ∀ fuel rest, 2 * text.length ≤ fuel → Delimited rest →
    readValue fuel depth (text ++ rest) = some (tree, rest)
  first : ∀ rest, skipSpace (text ++ rest) = text ++ rest ∧ text.head? ≠ some ']'

/-- Texts with commas between them are read as elements. -/
def ReadsElements (depth : Nat) (text : List Char) (trees : List Tree) : Prop :=
  ∀ fuel rest, 2 * text.length < fuel →
    readElements fuel depth (text ++ ']' :: rest) = some (trees, rest)

/-- Names and texts with commas between them are read as members. -/
def ReadsMembers (depth : Nat) (text : List Char) (members : List (List Char × Tree)) : Prop :=
  ∀ fuel rest, 2 * text.length < fuel →
    readMembers fuel depth (text ++ '}' :: rest) = some (members, rest)

theorem skipSpace_cons {character : Char} (rest : List Char)
    (visible : [' ', '\n', '\t', '\r'].contains character = false) :
    skipSpace (character :: rest) = character :: rest :=
  List.dropWhile_cons_of_neg (by rw [visible]; exact Bool.false_ne_true)

theorem skipSpace_comma (rest : List Char) : skipSpace (',' :: rest) = ',' :: rest :=
  skipSpace_cons rest rfl

theorem skipSpace_colon (rest : List Char) : skipSpace (':' :: rest) = ':' :: rest :=
  skipSpace_cons rest rfl

theorem skipSpace_bracket (rest : List Char) : skipSpace (']' :: rest) = ']' :: rest :=
  skipSpace_cons rest rfl

theorem skipSpace_brace (rest : List Char) : skipSpace ('}' :: rest) = '}' :: rest :=
  skipSpace_cons rest rfl

section Literals

variable {depth : Nat}

/-- A literal is read. -/
theorem reads_literal {tree : Tree} {character : Char} {others : List Char}
    (reader : ∀ fuel rest, readValue (fuel + 1) depth (character :: others ++ rest) =
      readLiteral tree others (others ++ rest))
    (visible : [' ', '\n', '\t', '\r'].contains character = false) (value : character ≠ ']') :
    Reads depth (character :: others) tree where
  nonempty := List.cons_ne_nil _ _
  read := by
    intro fuel rest enough _
    obtain ⟨fuel, rfl⟩ : ∃ less, fuel = less + 1 :=
      ⟨fuel - 1, by simp only [List.length_cons] at enough; omega⟩
    rw [reader, readLiteral, if_pos (by simp), List.drop_left]
  first := fun rest => ⟨skipSpace_cons _ visible, by simpa using value⟩

theorem reads_null : Reads depth "null".toList .null :=
  reads_literal (fun _ _ => rfl) rfl (by decide)

theorem reads_true : Reads depth "true".toList (.bool true) :=
  reads_literal (fun _ _ => rfl) rfl (by decide)

theorem reads_false : Reads depth "false".toList (.bool false) :=
  reads_literal (fun _ _ => rfl) rfl (by decide)

end Literals

section Scalars

variable {depth : Nat}

/-- A written string is no shorter than its value. -/
theorem length_le_flatMap_escape (value : List Char) :
    value.length ≤ (value.flatMap escapeCharacter).length := by
  induction value with
  | nil => exact Nat.le_refl _
  | cons character others inductionHypothesis =>
      have one : 1 ≤ (escapeCharacter character).length := by
        obtain ⟨same, _⟩ | ⟨body, escaped, _⟩ := escapeCharacter_cases character
        · rw [same]
          exact Nat.le_refl _
        · rw [escaped]
          exact Nat.succ_le_succ (Nat.zero_le _)
      rw [List.flatMap_cons, List.length_append, List.length_cons]
      omega

/-- A quoted string is read with the fuel of the text behind its quotation mark. -/
theorem readCharacters_quote (value rest : List Char) :
    readCharacters (value.flatMap escapeCharacter ++ '"' :: rest).length
      (value.flatMap escapeCharacter ++ '"' :: rest) = some (value, rest) := by
  refine readCharacters_quoted value rest ?_
  have long := length_le_flatMap_escape value
  rw [List.length_append, List.length_cons]
  omega

/-- A written string is read. -/
theorem reads_quote (value : List Char) : Reads depth (quote value) (.string value) where
  nonempty := List.cons_ne_nil _ _
  read := by
    intro fuel rest enough _
    obtain ⟨fuel, rfl⟩ : ∃ less, fuel = less + 1 :=
      ⟨fuel - 1, by simp only [quote, List.length_cons] at enough; omega⟩
    rw [quote, List.cons_append, List.append_assoc, readValue, skipSpace_cons _ rfl]
    dsimp only
    rw [if_pos rfl, List.singleton_append, readCharacters_quote]
    rfl
  first := fun rest => ⟨skipSpace_cons _ rfl, by simp [quote]⟩

/-- The digits of a number are read up to what is no part of a number. -/
theorem readUnsigned_toDigits (negative : Bool) (value : Nat) {rest : List Char}
    (delimited : Delimited rest) :
    readUnsigned negative (Nat.toDigits 10 value ++ rest) = some (integerOf negative value, rest) := by
  have digits : ∀ character ∈ Nat.toDigits 10 value, character.isDigit = true := fun _ member =>
    Nat.isDigit_of_mem_toDigits (by decide) (by decide) member
  have taken : (Nat.toDigits 10 value ++ rest).takeWhile Char.isDigit = Nat.toDigits 10 value := by
    rw [List.takeWhile_append_of_pos digits]
    cases rest with
    | nil => simp
    | cons character others =>
        rw [List.takeWhile_cons_of_neg (by simp [(delimited character rfl).1]), List.append_nil]
  have dropped : (Nat.toDigits 10 value ++ rest).dropWhile Char.isDigit = rest := by
    rw [List.dropWhile_append_of_pos digits]
    cases rest with
    | nil => rfl
    | cons character others =>
        rw [List.dropWhile_cons_of_neg (by simp [(delimited character rfl).1])]
  have fraction : readFraction rest = some none := by
    cases rest with
    | nil => rfl
    | cons character others =>
        obtain ⟨_, point, small, large⟩ := delimited character rfl
        rw [readFraction.eq_def]
        split
        · rename_i same
          exact absurd (List.cons.inj same).1 point
        · rename_i same
          exact absurd (List.cons.inj same).1 small
        · rename_i same
          exact absurd (List.cons.inj same).1 large
        · rfl
  rw [readUnsigned, readDigits, taken, dropped, if_neg Nat.toDigits_ne_nil]
  simp only [Option.bind_eq_bind, Option.bind_some]
  rw [if_neg (toDigits_head value), fraction]
  simp only [Option.bind_some, Nat.ofDigitChars_ten_toDigits]

/-- Integers of 64 bits. -/
def Fits64 (value : Int) : Prop := -2 ^ 63 ≤ value ∧ value < 2 ^ 64

instance (value : Int) : Decidable (Fits64 value) := inferInstanceAs (Decidable (_ ∧ _))

/-- The first character of a number. -/
theorem number_first {character : Char} (number : character = '-' ∨ character.isDigit = true) :
    [' ', '\n', '\t', '\r'].contains character = false ∧ character ≠ '"' ∧ character ≠ '[' ∧
      character ≠ '{' ∧ character ≠ 'n' ∧ character ≠ 't' ∧ character ≠ 'f' ∧ character ≠ ']' := by
  refine ⟨?_, ?_, ?_, ?_, ?_, ?_, ?_, ?_⟩
  · rw [List.contains_eq_mem, decide_eq_false_iff_not]
    intro member
    simp only [List.mem_cons, List.not_mem_nil, or_false] at member
    obtain rfl | rfl | rfl | rfl := member <;> exact absurd number (by decide)
  all_goals
    rintro rfl
    exact absurd number (by decide)

theorem readValue_number (fuel : Nat) {character : Char} (rest : List Char)
    (number : character = '-' ∨ character.isDigit = true) :
    readValue (fuel + 1) depth (character :: rest) = readNumber (character :: rest) := by
  obtain ⟨visible, quotation, bracket, brace, n, t, f, _⟩ := number_first number
  rw [readValue, skipSpace_cons _ visible]
  dsimp only
  rw [if_neg quotation, if_neg bracket, if_neg brace, if_neg n, if_neg t, if_neg f]

/-- A number without a sign. -/
theorem readNumber_digit {character : Char} (rest : List Char) (digit : character.isDigit = true) :
    readNumber (character :: rest) = readUnsigned false (character :: rest) := by
  rw [readNumber.eq_def]
  split
  · rename_i same
    rw [(List.cons.inj same).1] at digit
    exact absurd digit (by decide)
  · rfl

/-- A written integer begins with a sign or a digit. -/
theorem decimal_first (value : Int) : ∃ character others, decimal value = character :: others ∧
    (character = '-' ∨ character.isDigit = true) := by
  rw [decimal]
  split_ifs
  · exact ⟨_, _, rfl, .inl rfl⟩
  · cases digits : Nat.toDigits 10 value.natAbs with
    | nil => exact absurd digits Nat.toDigits_ne_nil
    | cons character others =>
        refine ⟨character, others, rfl, .inr ?_⟩
        refine Nat.isDigit_of_mem_toDigits (n := value.natAbs) (b := 10) (by decide) (by decide) ?_
        rw [digits]
        exact List.mem_cons_self

/-- A written integer of 64 bits is read. -/
theorem readNumber_decimal {value : Int} (fits : Fits64 value) {rest : List Char}
    (delimited : Delimited rest) :
    readNumber (decimal value ++ rest) = some (.integer value, rest) := by
  obtain ⟨low, high⟩ := fits
  rw [decimal]
  split_ifs with negative
  · have large : ¬ (value.natAbs = 0 ∨ 2 ^ 63 < value.natAbs) := by omega
    have same : -(value.natAbs : Int) = value := by omega
    have unsigned := readUnsigned_toDigits true value.natAbs delimited
    rw [integerOf, if_pos rfl, if_neg large, same] at unsigned
    exact unsigned
  · have small : value.natAbs < 2 ^ 64 := by omega
    have same : (value.natAbs : Int) = value := by omega
    have unsigned := readUnsigned_toDigits false value.natAbs delimited
    rw [integerOf, if_neg Bool.false_ne_true, if_pos small, same] at unsigned
    rw [← unsigned]
    cases digits : Nat.toDigits 10 value.natAbs with
    | nil => exact absurd digits Nat.toDigits_ne_nil
    | cons character others =>
        refine readNumber_digit _ ?_
        refine Nat.isDigit_of_mem_toDigits (n := value.natAbs) (b := 10) (by decide) (by decide) ?_
        rw [digits]
        exact List.mem_cons_self

/-- A written integer of 64 bits is read as a value. -/
theorem reads_decimal {value : Int} (fits : Fits64 value) :
    Reads depth (decimal value) (.integer value) where
  nonempty := by
    obtain ⟨_, _, written, _⟩ := decimal_first value
    rw [written]
    exact List.cons_ne_nil _ _
  read := by
    intro fuel rest enough delimited
    have read := readNumber_decimal fits delimited
    obtain ⟨character, others, written, number⟩ := decimal_first value
    rw [written] at enough read ⊢
    obtain ⟨fuel, rfl⟩ : ∃ less, fuel = less + 1 :=
      ⟨fuel - 1, by simp only [List.length_cons] at enough; omega⟩
    rw [List.cons_append, readValue_number fuel _ number]
    exact read
  first := by
    intro rest
    obtain ⟨character, others, written, number⟩ := decimal_first value
    obtain ⟨visible, _, _, _, _, _, _, bracket⟩ := number_first number
    rw [written]
    exact ⟨skipSpace_cons _ visible, by simpa using bracket⟩

end Scalars

section Containers

variable {depth : Nat} {text texts : List Char} {tree : Tree} {trees : List Tree}
  {name : List Char} {members : List (List Char × Tree)}

theorem delimited_cons {character : Char} (rest : List Char)
    (ends : character = ',' ∨ character = ']' ∨ character = '}') : Delimited (character :: rest) := by
  intro first same
  rw [List.head?_cons, Option.mem_some_iff] at same
  rw [← same]
  obtain rfl | rfl | rfl := ends <;> decide

theorem ReadsElements.last (reads : Reads depth text tree) : ReadsElements depth text [tree] := by
  intro fuel rest enough
  obtain ⟨fuel, rfl⟩ : ∃ less, fuel = less + 1 := ⟨fuel - 1, by omega⟩
  have value := reads.read fuel (']' :: rest) (by omega) (delimited_cons rest (.inr (.inl rfl)))
  rw [readElements, value]
  simp only [Option.bind_eq_bind, Option.bind_some, skipSpace_bracket]

/-- An element of an array before others. -/
theorem ReadsElements.cons (reads : Reads depth text tree)
    (others : ReadsElements depth texts trees) :
    ReadsElements depth (text ++ ',' :: texts) (tree :: trees) := by
  intro fuel rest enough
  rw [List.length_append, List.length_cons] at enough
  obtain ⟨fuel, rfl⟩ : ∃ less, fuel = less + 1 := ⟨fuel - 1, by omega⟩
  have value := reads.read fuel (',' :: (texts ++ ']' :: rest)) (by omega)
    (delimited_cons _ (.inl rfl))
  have following := others fuel rest (by omega)
  rw [List.append_assoc, List.cons_append, readElements, value]
  simp only [Option.bind_eq_bind, Option.bind_some, skipSpace_comma, following]

/-- An array without elements. -/
theorem reads_nil : Reads (depth + 1) ['[', ']'] (.array []) where
  nonempty := List.cons_ne_nil _ _
  read := by
    intro fuel rest enough _
    obtain ⟨fuel, rfl⟩ : ∃ less, fuel = less + 1 :=
      ⟨fuel - 1, by simp only [List.length_cons] at enough; omega⟩
    rw [List.cons_append, List.singleton_append, readValue, skipSpace_cons _ rfl]
    dsimp only
    rw [if_neg (by decide), if_pos rfl, skipSpace_bracket]
    rfl
  first := fun rest => ⟨skipSpace_cons _ rfl, by simp⟩

/-- An array of elements, which do not begin with the bracket. -/
theorem reads_array (elements : ReadsElements depth texts trees)
    (first : ∀ rest, skipSpace (texts ++ rest) = texts ++ rest ∧ texts.head? ≠ some ']')
    (nonempty : texts ≠ []) : Reads (depth + 1) ('[' :: (texts ++ [']'])) (.array trees) where
  nonempty := List.cons_ne_nil _ _
  read := by
    intro fuel rest enough _
    rw [List.length_cons, List.length_append, List.length_singleton] at enough
    obtain ⟨fuel, rfl⟩ : ∃ less, fuel = less + 1 := ⟨fuel - 1, by omega⟩
    have inside := elements fuel rest (by omega)
    have start : (skipSpace (texts ++ ']' :: rest)).head? ≠ some ']' := by
      rw [(first _).1, List.head?_append_of_ne_nil _ nonempty]
      exact (first rest).2
    rw [List.cons_append, List.append_assoc, List.singleton_append, readValue,
      skipSpace_cons _ rfl]
    dsimp only
    rw [if_neg (by decide), if_pos rfl, if_neg start, inside]
    rfl
  first := fun rest => ⟨skipSpace_cons _ rfl, by simp⟩

/-- The last member of an object. -/
theorem ReadsMembers.last (reads : Reads depth text tree) :
    ReadsMembers depth (quote name ++ ':' :: text) [(name, tree)] := by
  intro fuel rest enough
  rw [List.length_append, List.length_cons] at enough
  obtain ⟨fuel, rfl⟩ : ∃ less, fuel = less + 1 := ⟨fuel - 1, by omega⟩
  have value := reads.read fuel ('}' :: rest) (by omega) (delimited_cons rest (.inr (.inr rfl)))
  simp only [quote, List.cons_append, List.append_assoc, List.nil_append]
  rw [readMembers, skipSpace_cons _ rfl]
  simp only [readCharacters_quote, Option.bind_eq_bind, Option.bind_some,
    skipSpace_colon, value, skipSpace_brace]

/-- A member of an object before others. -/
theorem ReadsMembers.cons (reads : Reads depth text tree)
    (others : ReadsMembers depth texts members) :
    ReadsMembers depth (quote name ++ ':' :: (text ++ ',' :: texts)) ((name, tree) :: members) := by
  intro fuel rest enough
  simp only [List.length_append, List.length_cons] at enough
  obtain ⟨fuel, rfl⟩ : ∃ less, fuel = less + 1 := ⟨fuel - 1, by omega⟩
  have value := reads.read fuel (',' :: (texts ++ '}' :: rest)) (by omega)
    (delimited_cons _ (.inl rfl))
  have following := others fuel rest (by omega)
  simp only [quote, List.cons_append, List.append_assoc, List.nil_append]
  rw [readMembers, skipSpace_cons _ rfl]
  simp only [readCharacters_quote, Option.bind_eq_bind, Option.bind_some,
    skipSpace_colon, value, skipSpace_comma, following]

/-- An object without members. -/
theorem reads_empty : Reads (depth + 1) ['{', '}'] (.object []) where
  nonempty := List.cons_ne_nil _ _
  read := by
    intro fuel rest enough _
    obtain ⟨fuel, rfl⟩ : ∃ less, fuel = less + 1 :=
      ⟨fuel - 1, by simp only [List.length_cons] at enough; omega⟩
    rw [List.cons_append, List.singleton_append, readValue, skipSpace_cons _ rfl]
    dsimp only
    rw [if_neg (by decide), if_neg (by decide), if_pos rfl, skipSpace_brace]
    rfl
  first := fun rest => ⟨skipSpace_cons _ rfl, by simp⟩

/-- An object of members. -/
theorem reads_object (inside : ReadsMembers depth texts members)
    (quoted : ∃ name others, texts = quote name ++ others) :
    Reads (depth + 1) ('{' :: (texts ++ ['}'])) (.object members) where
  nonempty := List.cons_ne_nil _ _
  read := by
    intro fuel rest enough _
    rw [List.length_cons, List.length_append, List.length_singleton] at enough
    obtain ⟨fuel, rfl⟩ : ∃ less, fuel = less + 1 := ⟨fuel - 1, by omega⟩
    have read := inside fuel rest (by omega)
    have start : (skipSpace (texts ++ '}' :: rest)).head? ≠ some '}' := by
      obtain ⟨name, others, rfl⟩ := quoted
      rw [quote, List.append_assoc, List.cons_append, skipSpace_cons _ rfl]
      simp
    rw [List.cons_append, List.append_assoc, List.singleton_append, readValue,
      skipSpace_cons _ rfl]
    dsimp only
    rw [if_neg (by decide), if_neg (by decide), if_pos rfl, if_neg start, read]
    rfl
  first := fun rest => ⟨skipSpace_cons _ rfl, by simp⟩

/-- A text which is read whatever is behind it is read as a whole. -/
theorem Reads.whole (reads : Reads depth text tree) : Json.read depth text = some tree := by
  have value := reads.read (2 * text.length) [] (Nat.le_refl _) nofun
  rw [List.append_nil] at value
  rw [Json.read, value]
  exact if_pos rfl

/-- What is read with a bound on the depth is read with a larger one. -/
theorem readValue_mono (fuel : Nat) : ∀ (depth deeper : Nat), depth ≤ deeper →
    (∀ {text read}, readValue fuel depth text = some read →
      readValue fuel deeper text = some read) ∧
    (∀ {text read}, readElements fuel depth text = some read →
      readElements fuel deeper text = some read) ∧
    ∀ {text read}, readMembers fuel depth text = some read →
      readMembers fuel deeper text = some read := by
  induction fuel with
  | zero => exact fun _ _ _ => ⟨nofun, nofun, nofun⟩
  | succ fuel inductionHypothesis =>
      intro depth deeper bounded
      obtain ⟨value, elements, members⟩ := inductionHypothesis depth deeper bounded
      refine ⟨fun {text read} reads => ?_, fun {text read} reads => ?_,
        fun {text read} reads => ?_⟩
      · rw [readValue] at reads ⊢
        cases seen : skipSpace text with
        | nil =>
            rw [seen] at reads
            cases reads
        | cons character rest =>
            rw [seen] at reads
            dsimp only at reads ⊢
            cases depth with
            | zero =>
                split_ifs at reads ⊢ <;> exact reads
            | succ depth =>
                obtain ⟨deeper, rfl⟩ := Nat.exists_eq_add_of_le' bounded
                have inner := inductionHypothesis depth (deeper + depth) (Nat.le_add_left _ _)
                split_ifs at reads ⊢ <;> try exact reads
                · obtain ⟨inside, found, same⟩ := Option.map_eq_some_iff.mp reads
                  exact Option.map_eq_some_iff.mpr ⟨inside, inner.2.1 found, same⟩
                · obtain ⟨inside, found, same⟩ := Option.map_eq_some_iff.mp reads
                  exact Option.map_eq_some_iff.mpr ⟨inside, inner.2.2 found, same⟩
      · rw [readElements] at reads ⊢
        obtain ⟨⟨element, rest⟩, found, reads⟩ := Option.bind_eq_some_iff.mp reads
        rw [value found]
        dsimp only [Option.bind_eq_bind, Option.bind_some] at reads ⊢
        split at reads
        · exact reads
        · obtain ⟨⟨others, rest⟩, following, reads⟩ := Option.bind_eq_some_iff.mp reads
          rw [elements following]
          exact reads
        · cases reads
      · rw [readMembers] at reads ⊢
        split at reads
        · obtain ⟨⟨name, rest⟩, named, reads⟩ := Option.bind_eq_some_iff.mp reads
          rw [named]
          dsimp only [Option.bind_eq_bind, Option.bind_some] at reads ⊢
          split at reads
          · obtain ⟨⟨member, rest⟩, found, reads⟩ := Option.bind_eq_some_iff.mp reads
            rw [value found]
            dsimp only [Option.bind_eq_bind, Option.bind_some] at reads ⊢
            split at reads
            · exact reads
            · obtain ⟨⟨others, rest⟩, following, reads⟩ := Option.bind_eq_some_iff.mp reads
              rw [members following]
              exact reads
            · cases reads
          · cases reads
        · cases reads

/-- A whole text which is read is read with a larger bound on the depth. -/
theorem read_mono {deeper : Nat} (bounded : depth ≤ deeper)
    (reads : Json.read depth text = some tree) : Json.read deeper text = some tree := by
  rw [Json.read] at reads ⊢
  cases value : readValue (2 * text.length) depth text with
  | none =>
      rw [value] at reads
      cases reads
  | some read =>
      rw [value] at reads
      rw [(readValue_mono _ _ _ bounded).1 value]
      exact reads

end Containers

end LawyerAssistance.Json
