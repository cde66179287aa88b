import Mathlib.Data.List.Basic
import Mathlib.Tactic.SplitIfs

/-!
# Quotation marks

Literals between quotation marks, with a backslash in front of each character which is escaped, and
texts in which the quotation marks pair up to literals.
-/

namespace LawyerAssistance.Quotation

/-- What stands between the quotation marks of a literal. -/
inductive Body : List Char → Prop where
  | nil : Body []
  | plain {character : Char} {rest : List Char} (unquoted : character ≠ '"')
      (unescaped : character ≠ '\\') (behind : Body rest) : Body (character :: rest)
  | escape {character : Char} {rest : List Char} (behind : Body rest) :
      Body ('\\' :: character :: rest)

/-- A text whose quotation marks are those of literals. -/
inductive Paired : List Char → Prop where
  | nil : Paired []
  | plain {character : Char} {rest : List Char} (unquoted : character ≠ '"')
      (behind : Paired rest) : Paired (character :: rest)
  | literal {body rest : List Char} (inside : Body body) (behind : Paired rest) :
      Paired ('"' :: (body ++ '"' :: rest))

/-- The text behind the quotation mark which ends a literal. The first character is escaped, or it
is not. -/
def behindQuote : Bool → List Char → Option (List Char)
  | _, [] => none
  | true, _ :: rest => behindQuote false rest
  | false, character :: rest =>
      if character = '\\' then behindQuote true rest
      else if character = '"' then some rest
      else behindQuote false rest

variable {text rest body before : List Char}

theorem Paired.of_unquoted (unquoted : '"' ∉ text) : Paired text := by
  induction text with
  | nil => exact .nil
  | cons character others inductionHypothesis =>
      rw [List.mem_cons, not_or] at unquoted
      exact .plain (fun same => unquoted.1 same.symm) (inductionHypothesis unquoted.2)

theorem Paired.append (first : Paired before) (second : Paired text) : Paired (before ++ text) := by
  induction first with
  | nil => exact second
  | plain unquoted _ inductionHypothesis => exact .plain unquoted inductionHypothesis
  | literal inside _ inductionHypothesis =>
      rw [List.cons_append, List.append_assoc, List.cons_append]
      exact .literal inside inductionHypothesis

/-- The end of a literal is found behind its body. -/
theorem behindQuote_of_body (inside : Body body) :
    behindQuote false (body ++ '"' :: rest) = some rest := by
  induction inside with
  | nil => rfl
  | plain unquoted unescaped _ inductionHypothesis =>
      rw [List.cons_append, behindQuote, if_neg unescaped, if_neg unquoted, inductionHypothesis]
  | escape _ inductionHypothesis =>
      rw [List.cons_append, List.cons_append, behindQuote, if_pos rfl, behindQuote,
        inductionHypothesis]

/-- What stands in front of the end of a literal is its body, behind the character which is
escaped. -/
theorem exists_body (escaped : Bool) (found : behindQuote escaped text = some rest) :
    ∃ front body, text = front ++ (body ++ '"' :: rest) ∧ Body body ∧
      front.length = escaped.toNat := by
  induction text generalizing escaped with
  | nil => cases escaped <;> cases found
  | cons character others inductionHypothesis =>
      cases escaped with
      | true =>
          obtain ⟨front, body, rfl, inside, none⟩ := inductionHypothesis false found
          obtain rfl := List.length_eq_zero_iff.mp none
          exact ⟨[character], body, rfl, inside, rfl⟩
      | false =>
          rw [behindQuote] at found
          split_ifs at found with backslash quotation
          · obtain ⟨front, body, rfl, inside, one⟩ := inductionHypothesis true found
            obtain ⟨first, rfl⟩ := List.length_eq_one_iff.mp one
            subst backslash
            exact ⟨[], '\\' :: first :: body, rfl, .escape inside, rfl⟩
          · cases found
            subst quotation
            exact ⟨[], [], rfl, .nil, rfl⟩
          · obtain ⟨front, body, rfl, inside, none⟩ := inductionHypothesis false found
            obtain rfl := List.length_eq_zero_iff.mp none
            exact ⟨[], character :: body, rfl, .plain quotation backslash inside, rfl⟩

theorem behindQuote_eq_some :
    behindQuote false text = some rest ↔ ∃ body, Body body ∧ text = body ++ '"' :: rest := by
  constructor
  · intro found
    obtain ⟨front, body, rfl, inside, none⟩ := exists_body false found
    obtain rfl := List.length_eq_zero_iff.mp none
    exact ⟨body, inside, rfl⟩
  · rintro ⟨body, inside, rfl⟩
    exact behindQuote_of_body inside

theorem length_behindQuote (found : behindQuote false text = some rest) :
    rest.length < text.length := by
  obtain ⟨body, _, rfl⟩ := behindQuote_eq_some.mp found
  rw [List.length_append, List.length_cons]
  omega

end LawyerAssistance.Quotation
