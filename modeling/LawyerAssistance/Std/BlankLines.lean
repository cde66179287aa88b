import LawyerAssistance.Std.Occurrences
import LawyerAssistance.Std.Text

/-!
# Paragraphs between blank lines

A text is split at every two line feeds and the parts are trimmed. White space around a paragraph
is immaterial, so the paragraphs of a text with other line ends are the same, unless a paragraph
itself has a carriage return.
-/

namespace LawyerAssistance.Text

/-- `str::split("\n\n")`. -/
@[grind =] def splitBlankLines : List Char → List (List Char)
  | [] => [[]]
  | '\n' :: '\n' :: rest => [] :: splitBlankLines rest
  | character :: rest => (splitBlankLines rest).modifyHead (character :: ·)

/-- The parts which are not empty, trimmed. -/
def trimmedParts (parts : List (List Char)) : List (List Char) :=
  (parts.map trim).filter (· ≠ [])

/-- The paragraphs of a text. -/
def paragraphs (text : List Char) : List (List Char) := trimmedParts (splitBlankLines text)

/-- Carriage returns, with or without a line feed, as line feeds. -/
@[grind =] def unifyLineEnds : List Char → List Char
  | [] => []
  | '\r' :: '\n' :: rest => '\n' :: unifyLineEnds rest
  | character :: rest => (if character = '\r' then '\n' else character) :: unifyLineEnds rest

variable {text before after part : List Char}

/-! ## Splitting -/

/-- A split has a first part. -/
theorem exists_splitBlankLines (text : List Char) :
    ∃ first others, splitBlankLines text = first :: others := by
  induction text using splitBlankLines.induct with
  | case1 => exact ⟨[], [], rfl⟩
  | case2 rest _ => exact ⟨[], splitBlankLines rest, rfl⟩
  | case3 character rest plain inductionHypothesis =>
      obtain ⟨first, others, parts⟩ := inductionHypothesis
      exact ⟨character :: first, others, by rw [splitBlankLines, parts]; rfl; exact plain⟩

/-- A character which begins no blank line belongs to the first part. -/
theorem splitBlankLines_cons {character : Char} {first : List Char} {others : List (List Char)}
    (plain : ∀ rest, character = '\n' → text = '\n' :: rest → False)
    (parts : splitBlankLines text = first :: others) :
    splitBlankLines (character :: text) = (character :: first) :: others := by
  rw [splitBlankLines, parts]
  · rfl
  · exact plain

theorem trimmedParts_congr {other : List Char} {parts : List (List Char)}
    (same : trim part = trim other) : trimmedParts (part :: parts) = trimmedParts (other :: parts) := by
  rw [trimmedParts, trimmedParts, List.map_cons, List.map_cons, same]

theorem trimmedParts_space {parts : List (List Char)} (space : trim part = []) :
    trimmedParts (part :: parts) = trimmedParts parts := by
  rw [trimmedParts, List.map_cons, space, List.filter_cons_of_neg (by simp), ← trimmedParts]

/-- White space in front of a text does not count. -/
theorem paragraphs_cons_space {character : Char} (space : isWhitespace character = true)
    (text : List Char) : paragraphs (character :: text) = paragraphs text := by
  induction size : text.length using Nat.strong_induction_on generalizing character text with
  | _ size inductionHypothesis =>
      by_cases blank : ∃ rest, character = '\n' ∧ text = '\n' :: rest
      · obtain ⟨rest, rfl, rfl⟩ := blank
        have shorter : rest.length < rest.length + 1 := Nat.lt_succ_self _
        rw [List.length_cons] at size
        rw [size] at shorter
        rw [inductionHypothesis _ shorter (by decide) rest rfl]
        exact trimmedParts_space rfl
      · obtain ⟨first, others, parts⟩ := exists_splitBlankLines text
        have plain : ∀ rest, character = '\n' → text = '\n' :: rest → False :=
          fun rest feed begins => blank ⟨rest, feed, begins⟩
        rw [paragraphs, paragraphs, splitBlankLines_cons plain parts, parts]
        refine trimmedParts_congr ?_
        have cut : ∀ first ∈ [character], isWhitespace first = true := by simpa using space
        exact trimMatches_append_left cut

/-- White space in front of a text does not count. -/
theorem paragraphs_append_space {space : List Char}
    (white : ∀ character ∈ space, isWhitespace character = true) (text : List Char) :
    paragraphs (space ++ text) = paragraphs text := by
  induction space with
  | nil => rfl
  | cons character rest inductionHypothesis =>
      obtain ⟨here, others⟩ := List.forall_mem_cons.mp white
      rw [List.cons_append, paragraphs_cons_space here, inductionHypothesis others]

theorem paragraphs_space (white : ∀ character ∈ text, isWhitespace character = true) :
    paragraphs text = [] := by
  rw [← List.append_nil text, paragraphs_append_space white]
  rfl

/-! ## Behind a paragraph -/

/-- A text without blank lines, which does not end with a line feed. -/
structure Solid (text : List Char) : Prop where
  unbroken : ¬ ['\n', '\n'] <:+: text
  closed : text.getLast? ≠ some '\n'

/-- A solid text stands in front of the first part of what follows. -/
theorem splitBlankLines_append {first : List Char} {others : List (List Char)}
    (solid : Solid before) (parts : splitBlankLines after = first :: others) :
    splitBlankLines (before ++ after) = (before ++ first) :: others := by
  induction before with
  | nil => exact parts
  | cons character rest inductionHypothesis =>
      have solidRest : Solid rest := by
        refine ⟨fun broken => solid.unbroken (broken.trans (List.suffix_cons _ _).isInfix),
          fun feed => solid.closed ?_⟩
        rw [List.getLast?_cons, feed]
        rfl
      rw [List.cons_append, List.cons_append]
      refine splitBlankLines_cons ?_ (inductionHypothesis solidRest)
      rintro tail rfl begins
      cases rest with
      | nil => exact solid.closed rfl
      | cons next rest =>
          rw [List.cons_append, List.cons.injEq] at begins
          obtain ⟨rfl, _⟩ := begins
          exact solid.unbroken ⟨[], rest, rfl⟩

/-- The parts of a text are of its characters. -/
theorem mem_of_mem_splitBlankLines (member : part ∈ splitBlankLines text) {character : Char}
    (inPart : character ∈ part) : character ∈ text := by
  induction text using splitBlankLines.induct generalizing part with
  | case1 =>
      obtain rfl := List.mem_singleton.mp member
      exact inPart
  | case2 rest inductionHypothesis =>
      obtain rfl | inRest := List.mem_cons.mp member
      · cases inPart
      · exact List.mem_cons_of_mem _ (List.mem_cons_of_mem _ (inductionHypothesis inRest inPart))
  | case3 head rest plain inductionHypothesis =>
      obtain ⟨first, others, parts⟩ := exists_splitBlankLines rest
      rw [splitBlankLines_cons plain parts] at member
      obtain rfl | inOthers := List.mem_cons.mp member
      · obtain rfl | inFirst := List.mem_cons.mp inPart
        · exact List.mem_cons_self
        · refine List.mem_cons_of_mem _ (inductionHypothesis ?_ inFirst)
          rw [parts]
          exact List.mem_cons_self
      · refine List.mem_cons_of_mem _ (inductionHypothesis ?_ inPart)
        rw [parts]
        exact List.mem_cons_of_mem _ inOthers

/-- A solid text which needs no trimming is a paragraph. -/
structure IsParagraph (text : List Char) : Prop extends Solid text where
  nonempty : text ≠ []
  trimmed : trim text = text

/-- A paragraph stands in front of the paragraphs which follow its part. -/
theorem trimmedParts_paragraph {parts : List (List Char)} (paragraph : IsParagraph part)
    (white : ∀ character ∈ after, isWhitespace character = true) :
    trimmedParts ((part ++ after) :: parts) = part :: trimmedParts parts := by
  have trimmed : trim (part ++ after) = trim part := trimMatches_append_right white
  rw [trimmedParts_congr trimmed, trimmedParts, List.map_cons, paragraph.trimmed,
    List.filter_cons_of_pos (by simpa using paragraph.nonempty), ← trimmedParts]

/-- A paragraph with white space behind it. -/
theorem paragraphs_last (paragraph : IsParagraph part)
    (white : ∀ character ∈ after, isWhitespace character = true) :
    paragraphs (part ++ after) = [part] := by
  obtain ⟨first, others, parts⟩ := exists_splitBlankLines after
  have whiteFirst : ∀ character ∈ first, isWhitespace character = true := fun character member =>
    white character (mem_of_mem_splitBlankLines (parts ▸ List.mem_cons_self) member)
  have nothing := paragraphs_space white
  rw [paragraphs, parts, trimmedParts_space (trimMatches_eq_nil whiteFirst)] at nothing
  rw [paragraphs, splitBlankLines_append paragraph.toSolid parts,
    trimmedParts_paragraph paragraph whiteFirst, nothing]

/-- White space up to a blank line is a part of its own, and what follows it are the paragraphs
behind the blank line. -/
theorem splitBlankLines_space {space : List Char}
    (white : ∀ character ∈ space, isWhitespace character = true) (after : List Char) :
    ∃ first others, splitBlankLines (space ++ '\n' :: '\n' :: after) = first :: others ∧
      (∀ character ∈ first, isWhitespace character = true) ∧
      trimmedParts others = paragraphs after := by
  induction space with
  | nil => exact ⟨[], splitBlankLines after, rfl, by simp, rfl⟩
  | cons character rest inductionHypothesis =>
      obtain ⟨here, whiteRest⟩ := List.forall_mem_cons.mp white
      by_cases blank : ∃ tail, character = '\n' ∧ rest ++ '\n' :: '\n' :: after = '\n' :: tail
      · obtain ⟨tail, rfl, begins⟩ := blank
        refine ⟨[], splitBlankLines tail, by rw [List.cons_append, begins]; rfl, by simp, ?_⟩
        have behind : paragraphs (rest ++ '\n' :: '\n' :: after) = paragraphs after := by
          rw [paragraphs_append_space whiteRest, paragraphs_cons_space (by decide),
            paragraphs_cons_space (by decide)]
        rw [begins, paragraphs_cons_space (by decide)] at behind
        exact behind
      · obtain ⟨first, others, parts, whiteFirst, behind⟩ := inductionHypothesis whiteRest
        refine ⟨character :: first, others, splitBlankLines_cons ?_ parts,
          List.forall_mem_cons.mpr ⟨here, whiteFirst⟩, behind⟩
        exact fun tail feed begins => blank ⟨tail, feed, begins⟩

theorem paragraphs_cons {space : List Char} (paragraph : IsParagraph part)
    (white : ∀ character ∈ space, isWhitespace character = true) (after : List Char) :
    paragraphs (part ++ (space ++ '\n' :: '\n' :: after)) = part :: paragraphs after := by
  obtain ⟨first, others, parts, whiteFirst, behind⟩ := splitBlankLines_space white after
  rw [paragraphs, splitBlankLines_append paragraph.toSolid parts,
    trimmedParts_paragraph paragraph whiteFirst, behind]

/-- What stands before the first blank line is solid. -/
theorem exists_blankLine (text : List Char) :
    (¬ ['\n', '\n'] <:+: text) ∨
      ∃ before after, text = before ++ '\n' :: '\n' :: after ∧ Solid before := by
  cases found : splitFirst ['\n', '\n'] text with
  | none => exact .inl (splitFirst_eq_none.mp found)
  | some parts =>
      obtain ⟨cut, earliest⟩ := splitFirst_eq_some found
      refine .inr ⟨parts.1, parts.2, by rw [cut, List.append_assoc]; rfl, ?_, ?_⟩
      · rintro ⟨front, back, broken⟩
        have sooner : text = front ++ ['\n', '\n'] ++ (back ++ ['\n', '\n'] ++ parts.2) := by
          rw [cut, ← broken]
          simp [List.append_assoc]
        have early := earliest sooner
        rw [← broken] at early
        simp only [List.length_append, List.length_cons, List.length_nil] at early
        omega
      · intro feed
        obtain ⟨front, ends⟩ := List.getLast?_eq_some_iff.mp feed
        have sooner : text = front ++ ['\n', '\n'] ++ '\n' :: parts.2 := by
          rw [cut, ends]
          simp [List.append_assoc]
        have early := earliest sooner
        rw [ends] at early
        simp only [List.length_append, List.length_cons, List.length_nil] at early
        omega

/-- The trimmed part of a text without blank lines is a paragraph. -/
theorem isParagraph_trim (unbroken : ¬ ['\n', '\n'] <:+: text) (nonempty : trim text ≠ []) :
    IsParagraph (trim text) := by
  have kept := kept_trimMatches isWhitespace text
  obtain ⟨front, back, parts, _, _⟩ := exists_trimMatches isWhitespace text
  refine ⟨⟨fun broken => unbroken ?_, fun feed => ?_⟩, nonempty, trimMatches_of_kept kept⟩
  · exact broken.trans ⟨front, back, parts.symm⟩
  · have letter := kept.last feed
    revert letter
    decide

/-- A text which begins with a letter is a paragraph, and white space up to its end or up to a
blank line. -/
theorem exists_paragraph {character : Char} (rest : List Char)
    (letter : isWhitespace character = false) :
    ∃ part space, IsParagraph part ∧ (∀ character ∈ space, isWhitespace character = true) ∧
      (character :: rest = part ++ space ∨
        ∃ after, character :: rest = part ++ (space ++ '\n' :: '\n' :: after)) := by
  have cut {text tail : List Char} (begins : text = character :: tail)
      (unbroken : ¬ ['\n', '\n'] <:+: text) : ∃ part space, IsParagraph part ∧
      (∀ character ∈ space, isWhitespace character = true) ∧ text = part ++ space := by
    obtain ⟨front, back, parts, whiteFront, whiteBack⟩ := exists_trimMatches isWhitespace text
    have noFront : front = [] := by
      cases front with
      | nil => rfl
      | cons head front =>
          rw [begins, List.cons_append, List.cons_append, List.cons.injEq] at parts
          have white := whiteFront head List.mem_cons_self
          rw [← parts.1, letter] at white
          cases white
    rw [noFront, List.nil_append] at parts
    have nonempty : trim text ≠ [] := by
      intro empty
      have white := whiteBack character (by
        rw [trim] at empty
        rw [empty, List.nil_append] at parts
        rw [← parts, begins]
        exact List.mem_cons_self)
      rw [letter] at white
      cases white
    exact ⟨trim text, back, isParagraph_trim unbroken nonempty, whiteBack, parts⟩
  obtain unbroken | ⟨before, after, broken, solid⟩ := exists_blankLine (character :: rest)
  · obtain ⟨part, space, paragraph, white, parts⟩ := cut rfl unbroken
    exact ⟨part, space, paragraph, white, .inl parts⟩
  · cases before with
    | nil =>
        rw [List.nil_append, List.cons.injEq] at broken
        rw [broken.1] at letter
        exact absurd letter (by decide)
    | cons head before =>
        have begins : character = head := (List.cons.injEq .. ▸ broken).1
        obtain ⟨part, space, paragraph, white, parts⟩ :=
          cut (congrArg (· :: before) begins.symm) solid.unbroken
        exact ⟨part, space, paragraph, white, .inr ⟨after, by
          rw [broken, parts, List.append_assoc]⟩⟩

/-! ## Line ends -/

theorem unifyLineEnds_cons {character : Char} {rest : List Char}
    (plain : ∀ tail, character = '\r' → rest = '\n' :: tail → False) :
    unifyLineEnds (character :: rest) =
      (if character = '\r' then '\n' else character) :: unifyLineEnds rest := by
  rw [unifyLineEnds]
  exact plain

/-- A text without carriage returns stays. -/
theorem unifyLineEnds_append (plain : '\r' ∉ before) (after : List Char) :
    unifyLineEnds (before ++ after) = before ++ unifyLineEnds after := by
  induction before with
  | nil => rfl
  | cons character rest inductionHypothesis =>
      obtain ⟨here, others⟩ := not_or.mp (List.mem_cons.not.mp plain)
      rw [List.cons_append, unifyLineEnds_cons fun _ feed _ => here feed.symm,
        if_neg (Ne.symm here), inductionHypothesis others, List.cons_append]

/-- The result has no carriage returns. -/
theorem return_notMem_unifyLineEnds (text : List Char) : '\r' ∉ unifyLineEnds text := by
  induction text using unifyLineEnds.induct with
  | case1 => simp [unifyLineEnds]
  | case2 rest inductionHypothesis => simpa [unifyLineEnds] using inductionHypothesis
  | case3 character rest plain inductionHypothesis =>
      rw [unifyLineEnds_cons plain, List.mem_cons]
      rintro (same | later)
      · split_ifs at same with feed
        · cases same
        · exact feed same.symm
      · exact inductionHypothesis later

/-- The characters besides line ends stay. -/
theorem filter_unifyLineEnds (text : List Char) :
    (unifyLineEnds text).filter (fun character => !isWhitespace character) =
      text.filter fun character => !isWhitespace character := by
  induction text using unifyLineEnds.induct with
  | case1 => rfl
  | case2 rest inductionHypothesis =>
      rw [unifyLineEnds, List.filter_cons_of_neg (by decide), List.filter_cons_of_neg (by decide),
        List.filter_cons_of_neg (by decide), inductionHypothesis]
  | case3 character rest plain inductionHypothesis =>
      rw [unifyLineEnds_cons plain, List.filter_cons, List.filter_cons, inductionHypothesis]
      by_cases feed : character = '\r'
      · rw [if_pos feed, feed]
        rfl
      · rw [if_neg feed]

/-- At most two characters become one. -/
theorem length_le_unifyLineEnds (text : List Char) :
    text.length ≤ 2 * (unifyLineEnds text).length := by
  induction text using unifyLineEnds.induct with
  | case1 => simp
  | case2 rest inductionHypothesis =>
      simp only [unifyLineEnds, List.length_cons]
      omega
  | case3 character rest plain inductionHypothesis =>
      rw [unifyLineEnds_cons plain, List.length_cons, List.length_cons]
      omega

theorem unifyLineEnds_space (white : ∀ character ∈ text, isWhitespace character = true) :
    ∀ character ∈ unifyLineEnds text, isWhitespace character = true := by
  have nothing : text.filter (fun character => !isWhitespace character) = [] :=
    List.filter_eq_nil_iff.mpr fun character member => by simp [white character member]
  rw [← filter_unifyLineEnds, List.filter_eq_nil_iff] at nothing
  intro character member
  simpa using nothing character member

/-- A blank line behind white space stays a blank line. -/
theorem unifyLineEnds_blankLine {space : List Char}
    (white : ∀ character ∈ space, isWhitespace character = true) (after : List Char) :
    ∃ space', (∀ character ∈ space', isWhitespace character = true) ∧
      unifyLineEnds (space ++ '\n' :: '\n' :: after) =
        space' ++ '\n' :: '\n' :: unifyLineEnds after := by
  induction space using unifyLineEnds.induct with
  | case1 => exact ⟨[], by simp, by simp [unifyLineEnds]⟩
  | case2 rest inductionHypothesis =>
      obtain ⟨_, _, whiteRest⟩ := by simpa only [List.forall_mem_cons] using white
      obtain ⟨space', white', same⟩ := inductionHypothesis whiteRest
      refine ⟨'\n' :: space', List.forall_mem_cons.mpr ⟨by decide, white'⟩, ?_⟩
      rw [List.cons_append, List.cons_append, unifyLineEnds, same, List.cons_append]
  | case3 character rest plain inductionHypothesis =>
      obtain ⟨here, whiteRest⟩ := List.forall_mem_cons.mp white
      obtain ⟨space', white', same⟩ := inductionHypothesis whiteRest
      by_cases last : character = '\r' ∧ rest = []
      · obtain ⟨rfl, rfl⟩ := last
        exact ⟨[], by simp, by simp [unifyLineEnds]⟩
      · refine ⟨(if character = '\r' then '\n' else character) :: space',
          List.forall_mem_cons.mpr ⟨?_, white'⟩, ?_⟩
        · split_ifs
          · decide
          · exact here
        · rw [List.cons_append, unifyLineEnds_cons, same, List.cons_append]
          rintro tail feed begins
          cases rest with
          | nil => exact last ⟨feed, rfl⟩
          | cons next rest =>
              rw [List.cons_append, List.cons.injEq] at begins
              exact plain rest feed (by rw [begins.1])

/-- The paragraphs of a text with other line ends are the same when no paragraph has a carriage
return. -/
theorem paragraphs_unifyLineEnds (plain : ∀ part ∈ paragraphs text, '\r' ∉ part) :
    paragraphs (unifyLineEnds text) = paragraphs text := by
  induction size : text.length using Nat.strong_induction_on generalizing text with
  | _ size inductionHypothesis =>
      cases text with
      | nil => rfl
      | cons character rest =>
          cases white : isWhitespace character with
          | true =>
              rw [paragraphs_cons_space white] at plain ⊢
              by_cases pair : ∃ tail, character = '\r' ∧ rest = '\n' :: tail
              · obtain ⟨tail, rfl, rfl⟩ := pair
                rw [paragraphs_cons_space (by decide)] at plain ⊢
                rw [unifyLineEnds, paragraphs_cons_space (by decide)]
                refine inductionHypothesis _ ?_ plain rfl
                rw [← size, List.length_cons, List.length_cons]
                omega
              · rw [unifyLineEnds_cons fun tail feed begins => pair ⟨tail, feed, begins⟩,
                  paragraphs_cons_space (by split_ifs <;> [decide; exact white])]
                refine inductionHypothesis _ ?_ plain rfl
                rw [← size, List.length_cons]
                exact Nat.lt_succ_self _
          | false =>
              obtain ⟨part, space, paragraph, whiteSpace, last | ⟨after, broken⟩⟩ :=
                exists_paragraph rest white
              · rw [last, paragraphs_last paragraph whiteSpace] at plain ⊢
                rw [unifyLineEnds_append (plain part (by simp)),
                  paragraphs_last paragraph (unifyLineEnds_space whiteSpace)]
              · rw [broken, paragraphs_cons paragraph whiteSpace] at plain ⊢
                obtain ⟨here, others⟩ := List.forall_mem_cons.mp plain
                obtain ⟨space', white', same⟩ := unifyLineEnds_blankLine whiteSpace after
                rw [unifyLineEnds_append here, same, paragraphs_cons paragraph white']
                refine congrArg _ (inductionHypothesis _ ?_ others rfl)
                rw [← size, broken]
                simp only [List.length_append, List.length_cons]
                omega

/-! ## Characters of the paragraphs -/

/-- The paragraphs are parts of the text, in their order. -/
theorem flatten_paragraphs_sublist (text : List Char) : (paragraphs text).flatten.Sublist text := by
  have trimmed (parts : List (List Char)) : (trimmedParts parts).flatten.Sublist parts.flatten := by
    induction parts with
    | nil => exact .refl _
    | cons part rest inductionHypothesis =>
        obtain ⟨front, back, whole, _, _⟩ := exists_trimMatches isWhitespace part
        have inPart : (trim part).Sublist part := by
          conv => rhs; rw [whole, List.append_assoc]
          exact (List.sublist_append_left _ _).trans (List.sublist_append_right _ _)
        by_cases empty : trim part = []
        · rw [trimmedParts_space empty, List.flatten_cons]
          exact inductionHypothesis.trans (List.sublist_append_right _ _)
        · rw [trimmedParts, List.map_cons, List.filter_cons_of_pos (by simpa using empty),
            ← trimmedParts, List.flatten_cons, List.flatten_cons]
          exact inPart.append inductionHypothesis
  have split (text : List Char) : (splitBlankLines text).flatten.Sublist text := by
    induction text using splitBlankLines.induct with
    | case1 => exact .refl _
    | case2 rest inductionHypothesis =>
        exact (inductionHypothesis.cons _).cons _
    | case3 character rest plain inductionHypothesis =>
        obtain ⟨first, others, parts⟩ := exists_splitBlankLines rest
        rw [parts] at inductionHypothesis
        rw [splitBlankLines_cons plain parts]
        exact inductionHypothesis.cons_cons _
  exact (trimmed _).trans (split text)

/-- Trimming and splitting cut white space only. -/
theorem filter_flatten_paragraphs (text : List Char) :
    (paragraphs text).flatten.filter (fun character => !isWhitespace character) =
      text.filter fun character => !isWhitespace character := by
  have trimmed (parts : List (List Char)) :
      (trimmedParts parts).flatten.filter (fun character => !isWhitespace character) =
        parts.flatten.filter fun character => !isWhitespace character := by
    induction parts with
    | nil => rfl
    | cons part rest inductionHypothesis =>
        obtain ⟨front, back, whole, whiteFront, whiteBack⟩ := exists_trimMatches isWhitespace part
        have nothing {space : List Char}
            (white : ∀ character ∈ space, isWhitespace character = true) :
            space.filter (fun character => !isWhitespace character) = [] :=
          List.filter_eq_nil_iff.mpr fun character member => by simp [white character member]
        have same : (trim part).filter (fun character => !isWhitespace character) =
            part.filter fun character => !isWhitespace character := by
          conv => rhs; rw [whole, List.filter_append, List.filter_append, nothing whiteFront,
            nothing whiteBack, List.nil_append, List.append_nil]
          rfl
        rw [List.flatten_cons, List.filter_append, ← same, ← inductionHypothesis]
        by_cases empty : trim part = []
        · rw [trimmedParts_space empty, empty]
          rfl
        · rw [trimmedParts, List.map_cons, List.filter_cons_of_pos (by simpa using empty),
            ← trimmedParts, List.flatten_cons, List.filter_append]
  rw [paragraphs, trimmed]
  induction text using splitBlankLines.induct with
  | case1 => rfl
  | case2 rest inductionHypothesis =>
      rw [splitBlankLines, List.flatten_cons, List.nil_append, inductionHypothesis,
        List.filter_cons_of_neg (by decide), List.filter_cons_of_neg (by decide)]
  | case3 character rest plain inductionHypothesis =>
      obtain ⟨first, others, parts⟩ := exists_splitBlankLines rest
      rw [parts] at inductionHypothesis
      rw [splitBlankLines_cons plain parts, List.flatten_cons, List.cons_append, List.filter_cons,
        List.filter_cons, ← List.flatten_cons, inductionHypothesis]

end LawyerAssistance.Text
