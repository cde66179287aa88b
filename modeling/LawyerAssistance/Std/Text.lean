import Mathlib.Algebra.Group.Int.Defs
import Mathlib.Algebra.GroupWithZero.Nat
import Mathlib.Data.List.TakeWhile

/-!
# Texts as lists of characters

The byte length of a text in UTF-8 and the Unicode white space of `char::is_whitespace`.
-/

namespace LawyerAssistance.Text

/-- The number of bytes of the UTF-8 encoding. -/
def byteLength (text : List Char) : Nat := (text.map Char.utf8Size).sum

/-- The property `White_Space` of the Unicode database. -/
def isWhitespace (character : Char) : Bool :=
  let code := character.toNat
  (0x09 ≤ code && code ≤ 0x0D) || code == 0x20 || code == 0x85 || code == 0xA0 ||
    code == 0x1680 || (0x2000 ≤ code && code ≤ 0x200A) || code == 0x2028 || code == 0x2029 ||
    code == 0x202F || code == 0x205F || code == 0x3000

/-- `char::is_control`. -/
def isControl (character : Char) : Bool :=
  character.toNat < 0x20 || (0x7f ≤ character.toNat && character.toNat ≤ 0x9f)

/-- A text without the characters of a kind around it, as `trim_matches` cuts them. -/
def trimMatches (drop : Char → Bool) (text : List Char) : List Char :=
  ((text.dropWhile drop).reverse.dropWhile drop).reverse

/-- `str::trim`. -/
def trim (text : List Char) : List Char := trimMatches isWhitespace text

@[simp] theorem byteLength_nil : byteLength [] = 0 := rfl

@[simp] theorem byteLength_cons (character : Char) (rest : List Char) :
    byteLength (character :: rest) = character.utf8Size + byteLength rest := rfl

@[simp] theorem byteLength_append (first second : List Char) :
    byteLength (first ++ second) = byteLength first + byteLength second := by
  simp [byteLength]

theorem byteLength_replicate (count : Nat) (character : Char) :
    byteLength (List.replicate count character) = count * character.utf8Size := by
  induction count with
  | zero => simp
  | succ count inductionHypothesis =>
      rw [List.replicate_succ, byteLength_cons, inductionHypothesis, Nat.succ_mul, Nat.add_comm]

theorem length_le_byteLength (text : List Char) : text.length ≤ byteLength text := by
  induction text with
  | nil => exact Nat.le_refl _
  | cons character rest inductionHypothesis =>
      have positive := character.utf8Size_pos
      rw [List.length_cons, byteLength_cons]
      omega

theorem byteLength_pos {text : List Char} (nonempty : text ≠ []) : 0 < byteLength text := by
  cases text with
  | nil => exact absurd rfl nonempty
  | cons character rest =>
      rw [byteLength_cons]
      exact Nat.add_pos_left character.utf8Size_pos _

/-- A text without such characters is not cut. -/
theorem trimMatches_eq_self {drop : Char → Bool} {text : List Char}
    (kept : ∀ character ∈ text, drop character = false) : trimMatches drop text = text := by
  have uncut : ∀ other : List Char, (∀ character ∈ other, drop character = false) →
      other.dropWhile drop = other := by
    intro other plain
    cases other with
    | nil => rfl
    | cons character rest =>
        rw [List.dropWhile_cons_of_neg]
        simp [plain character List.mem_cons_self]
  rw [trimMatches, uncut text kept, uncut text.reverse (by simpa using kept), List.reverse_reverse]

theorem trimMatches_between {drop : Char → Bool} {first last : Char} (middle : List Char)
    (firstKept : drop first = false) (lastKept : drop last = false) :
    trimMatches drop (first :: middle ++ [last]) = first :: middle ++ [last] := by
  rw [trimMatches, List.cons_append, List.dropWhile_cons_of_neg (by simp [firstKept]),
    ← List.cons_append, List.reverse_append, List.reverse_singleton, List.singleton_append,
    List.dropWhile_cons_of_neg (by simp [lastKept]), ← List.singleton_append,
    List.reverse_append, List.reverse_reverse, List.reverse_singleton]

/-- A text which neither begins nor ends with a character of a kind. -/
structure Kept (drop : Char → Bool) (text : List Char) : Prop where
  first : ∀ {character}, text.head? = some character → drop character = false
  last : ∀ {character}, text.getLast? = some character → drop character = false

section Trimming

variable {drop : Char → Bool} {text front back : List Char}

theorem trimMatches_append_left (cut : ∀ character ∈ front, drop character = true) :
    trimMatches drop (front ++ text) = trimMatches drop text := by
  rw [trimMatches, List.dropWhile_append_of_pos cut, ← trimMatches]

theorem trimMatches_append_right (cut : ∀ character ∈ back, drop character = true) :
    trimMatches drop (text ++ back) = trimMatches drop text := by
  rw [trimMatches, trimMatches, List.dropWhile_append]
  split_ifs with empty
  · have nothing : text.dropWhile drop = [] := List.isEmpty_iff.mp empty
    rw [nothing, List.dropWhile_eq_nil_iff.mpr cut]
  · rw [List.reverse_append, List.dropWhile_append_of_pos (by simpa using cut)]

theorem trimMatches_eq_nil (cut : ∀ character ∈ text, drop character = true) :
    trimMatches drop text = [] := by
  rw [trimMatches, List.dropWhile_eq_nil_iff.mpr cut]
  rfl

/-- A text is what is cut in front of it, what stays and what is cut behind it. -/
theorem exists_trimMatches (drop : Char → Bool) (text : List Char) :
    ∃ front back, text = front ++ trimMatches drop text ++ back ∧
      (∀ character ∈ front, drop character = true) ∧
      ∀ character ∈ back, drop character = true := by
  refine ⟨text.takeWhile drop, ((text.dropWhile drop).reverse.takeWhile drop).reverse, ?_,
    fun _ => List.mem_takeWhile_imp, fun character member => ?_⟩
  · rw [List.append_assoc, trimMatches, ← List.reverse_append, List.takeWhile_append_dropWhile,
      List.reverse_reverse, List.takeWhile_append_dropWhile]
  · exact List.mem_takeWhile_imp (List.mem_reverse.mp member)

/-- What stays neither begins nor ends with such a character. -/
theorem kept_trimMatches (drop : Char → Bool) (text : List Char) :
    Kept drop (trimMatches drop text) := by
  have headKept (other : List Char) {character : Char}
      (head : (other.dropWhile drop).head? = some character) : drop character = false := by
    have nonempty : other.dropWhile drop ≠ [] := by
      rintro empty
      rw [empty] at head
      cases head
    rw [List.head?_eq_some_head nonempty, Option.some.injEq] at head
    rw [← head]
    exact List.head_dropWhile_not drop nonempty
  refine ⟨fun {character} first => ?_, fun {character} last => ?_⟩
  · have behind : text.dropWhile drop = trimMatches drop text ++
        ((text.dropWhile drop).reverse.takeWhile drop).reverse := by
      rw [trimMatches, ← List.reverse_append, List.takeWhile_append_dropWhile, List.reverse_reverse]
    refine headKept text ?_
    rw [behind, List.head?_append, first]
    rfl
  · rw [trimMatches, List.getLast?_reverse] at last
    exact headKept _ last

/-- A text which neither begins nor ends with such a character is not cut. -/
theorem trimMatches_of_kept (kept : Kept drop text) : trimMatches drop text = text := by
  have uncut {other : List Char}
      (head : ∀ {character}, other.head? = some character → drop character = false) :
      other.dropWhile drop = other := by
    cases other with
    | nil => rfl
    | cons character rest => rw [List.dropWhile_cons_of_neg (by simp [head rfl])]
  rw [trimMatches, uncut kept.first, uncut, List.reverse_reverse]
  intro character head
  rw [List.head?_reverse] at head
  exact kept.last head

end Trimming

end LawyerAssistance.Text

namespace LawyerAssistance

section Separators

variable {α : Type} {first first' rest rest' : List α} {separator : α}

/-- What precedes the first separator, and what follows it, are determined. -/
theorem append_cons_inj_of_notMem_left (plain : separator ∉ first) (plain' : separator ∉ first')
    (same : first ++ separator :: rest = first' ++ separator :: rest') :
    first = first' ∧ rest = rest' := by
  induction first generalizing first' with
  | nil =>
      cases first' with
      | nil => simpa using same
      | cons head tail =>
          obtain ⟨rfl, _⟩ := List.cons.inj same
          exact absurd List.mem_cons_self plain'
  | cons head tail inductionHypothesis =>
      cases first' with
      | nil =>
          obtain ⟨rfl, _⟩ := List.cons.inj same
          exact absurd List.mem_cons_self plain
      | cons head' tail' =>
          obtain ⟨rfl, tails⟩ := List.cons.inj same
          rw [List.mem_cons, not_or] at plain plain'
          obtain ⟨rfl, rests⟩ := inductionHypothesis plain.2 plain'.2 tails
          exact ⟨rfl, rests⟩

/-- What precedes the last separator, and what follows it, are determined. -/
theorem append_cons_inj_of_notMem_right (plain : separator ∉ rest) (plain' : separator ∉ rest')
    (same : first ++ separator :: rest = first' ++ separator :: rest') :
    first = first' ∧ rest = rest' := by
  have reversed : rest.reverse ++ separator :: first.reverse =
      rest'.reverse ++ separator :: first'.reverse := by
    simpa using congrArg List.reverse same
  obtain ⟨rests, firsts⟩ :=
    append_cons_inj_of_notMem_left (by simpa using plain) (by simpa using plain') reversed
  exact ⟨List.reverse_inj.mp firsts, List.reverse_inj.mp rests⟩

end Separators

end LawyerAssistance
