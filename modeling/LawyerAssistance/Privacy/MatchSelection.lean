import LawyerAssistance.Privacy.Deterministic
import LawyerAssistance.Std.Disjoint

/-!
# The selection of matches

`collect_matches` selects, of the matches of all rules, disjoint ones from left to right: a match
which begins in a selected match is dropped, also when it ends behind it. The selection covers what
the rules admit exactly when disjoint leading matches do.
-/

namespace LawyerAssistance.Privacy

/-! ## Matches of the rules -/

/-- The match of a capture, unless it is empty, a placeholder or no card. -/
def reported (rule : Rule) (captured : Captured) : Option Match :=
  if captured.value = [] ∨ isPlaceholder captured.value = true ∨
      rule.validator = .bankCard ∧ validateValue rule.validator captured.value = false then none
  else some (matchOf rule captured)

/-- The matches of a rule in a text. -/
def matchesOfRule (regex : RegexEngine) (text : Text) (rule : Rule) : List Match :=
  ((regex rule.pattern).elim [] fun captures => captures text).filterMap fun capture =>
    capture.bind (reported rule)

/-- The matches of all rules in a text. -/
def ruleMatches (regex : RegexEngine) (text : Text) : List Match :=
  rules.flatMap (matchesOfRule regex text)

/-- What an engine captures is in the text where it says. -/
def LocatesCaptures (regex : RegexEngine) (text : Text) : Prop :=
  ∀ pattern captures, regex pattern = some captures → ∀ captured, some captured ∈ captures text →
    Text.slice text captured.start (captured.start + Text.byteLength captured.value) =
      some captured.value

section Collect

variable {regex : RegexEngine} {text : Text} {matched next selected : List Match} {rule : Rule}

theorem mem_insertMatch {found other : Match} :
    other ∈ insertMatch matched found ↔ other ∈ matched ∨ found = other := by
  rw [insertMatch]
  split_ifs with present
  · constructor
    · exact .inl
    · rintro (among | rfl)
      · exact among
      · exact present
  · rw [List.mem_cons, or_comm, eq_comm]

/-- The inner loop adds what a capture reports. -/
theorem mem_visitCapture {capture : Option Captured}
    (visited : visitCapture rule matched capture = .ok next) (found : Match) :
    found ∈ next ↔ found ∈ matched ∨ capture.bind (reported rule) = some found := by
  cases capture with
  | none =>
      cases visited
      simp
  | some captured =>
      rw [visitCapture] at visited
      rw [Option.bind_some, reported]
      split_ifs at visited with unfit full invalid
      · cases visited
        rw [if_pos (unfit.imp_right .inl)]
        simp
      · cases visited
        rw [if_pos (.inr (.inr invalid))]
        simp
      · cases visited
        rw [if_neg (by tauto), mem_insertMatch, Option.some.injEq]

theorem mem_visitRule (visited : visitRule regex text matched rule = .ok next) (found : Match) :
    found ∈ next ↔ found ∈ matched ∨ found ∈ matchesOfRule regex text rule := by
  obtain ⟨captures, compiled, visited⟩ := bind_eq_ok.mp visited
  rw [mem_foldlM visited mem_visitCapture, matchesOfRule, presentOr_eq_ok.mp compiled,
    Option.elim_some, List.mem_filterMap]

theorem mem_of_foldlM (visited : rules.foldlM (visitRule regex text) [] = .ok matched)
    (found : Match) : found ∈ matched ↔ found ∈ ruleMatches regex text := by
  rw [mem_foldlM visited mem_visitRule, ruleMatches, List.mem_flatMap]
  simp

/-- Behind a match the selection is a scan from its end. -/
theorem selectMatches_some {previous : Match} {items : List Match} :
    selectMatches (some previous) items =
      disjointFrom Match.start Match.stop previous.stop items := by
  induction items generalizing previous with
  | nil => rfl
  | cons candidate rest inductionHypothesis =>
      simp only [selectMatches, disjointFrom, Option.all_some, decide_eq_true_eq]
      by_cases behind : previous.stop ≤ candidate.start
      · rw [if_pos behind, if_neg (not_lt.mpr behind), inductionHypothesis]
      · rw [if_neg behind, if_pos (not_le.mp behind), inductionHypothesis]

theorem selectMatches_none {items : List Match} :
    selectMatches none items = disjointFrom Match.start Match.stop 0 items := by
  cases items with
  | nil => rfl
  | cons candidate rest =>
      rw [selectMatches, disjointFrom, Option.all_none, if_pos rfl, if_neg (Nat.not_lt_zero _),
        selectMatches_some]

/-- A match of the rules is not empty, and ends at boundaries. -/
theorem located_of_mem (located : LocatesCaptures regex text) {found : Match}
    (among : found ∈ ruleMatches regex text) :
    found.start < found.stop ∧ Text.isCharBoundary text found.start = true ∧
      Text.isCharBoundary text found.stop = true := by
  obtain ⟨rule, _, among⟩ := List.mem_flatMap.mp among
  obtain ⟨capture, amongCaptures, captures⟩ := List.mem_filterMap.mp among
  obtain ⟨captured, rfl, reports⟩ := Option.bind_eq_some_iff.mp captures
  rw [reported] at reports
  split_ifs at reports with unfit
  cases reports
  cases compiled : regex rule.pattern with
  | none =>
      rw [compiled] at amongCaptures
      cases amongCaptures
  | some captures =>
      rw [compiled] at amongCaptures
      have boundaries := Text.isCharBoundary_of_slice
        (located rule.pattern captures compiled captured amongCaptures)
      have positive : 0 < Text.byteLength captured.value :=
        Text.byteLength_pos fun empty => unfit (.inl empty)
      refine ⟨?_, boundaries⟩
      exact Nat.lt_add_of_pos_right positive

/-- The order of the selection is that of a scan. -/
theorem before_of_turn {first second : Match} (turn : first.turn ≤ second.turn) :
    Before Match.start Match.stop first second := by
  rw [Match.turn, Match.turn, Prod.Lex.toLex_le_toLex] at turn
  obtain earlier | ⟨same, turn⟩ := turn
  · exact .inl earlier
  · rw [Prod.Lex.toLex_le_toLex] at turn
    obtain longer | ⟨same', _⟩ := turn
    · exact .inr ⟨same, (OrderDual.toDual_lt_toDual.mp longer).le⟩
    · exact .inr ⟨same, (OrderDual.toDual_inj.mp same').ge⟩

/-- What is selected are leading matches of the rules. -/
theorem leading_of_collectMatches (located : LocatesCaptures regex text)
    (collected : collectMatches regex text = .ok selected) :
    Leading Match.start Match.stop (ruleMatches regex text) selected ∧
      selected.Pairwise fun first second => first.stop ≤ second.start := by
  obtain ⟨matched, visited, collected⟩ := bind_eq_ok.mp collected
  cases collected
  have same : ∀ found, found ∈ sortOn Match.turn (sortedSet matched) ↔
      found ∈ ruleMatches regex text := by
    intro found
    rw [perm_sortOn.mem_iff, mem_sortedSet, mem_of_foldlM visited]
  have nonempty : ∀ found ∈ sortOn Match.turn (sortedSet matched), found.start < found.stop :=
    fun found among => (located_of_mem located ((same found).mp among)).1
  have ascending : (sortOn Match.turn (sortedSet matched)).Pairwise
      fun first second => first.turn ≤ second.turn := pairwise_sortOn
  rw [selectMatches_none]
  exact ⟨(leading_disjointFrom nonempty (ascending.imp before_of_turn)).congr same,
    pairwise_disjointFrom nonempty⟩

end Collect

/-! ## What is covered -/

section Cover

variable {regex : RegexEngine} {text : Text} {selected : List Match}

/-- Where two matches which overlap lie in one match, every match lies in a selected one. -/
theorem exists_selected_of_nested (located : LocatesCaptures regex text)
    (collected : collectMatches regex text = .ok selected)
    (nested : ∀ first ∈ ruleMatches regex text, ∀ second ∈ ruleMatches regex text,
      Overlap Match.start Match.stop first second → ∃ outer ∈ ruleMatches regex text,
        outer.start ≤ first.start ∧ first.stop ≤ outer.stop ∧
        outer.start ≤ second.start ∧ second.stop ≤ outer.stop)
    {found : Match} (among : found ∈ ruleMatches regex text) :
    ∃ chosen ∈ selected, chosen.start ≤ found.start ∧ found.stop ≤ chosen.stop :=
  (leading_of_collectMatches located collected).1.exists_contains
    (fun _ member => (located_of_mem located member).1) nested among

/-- The texts of a rule, as lists of characters, and what else it has. -/
structure RuleTexts where
  entityType : EntityType
  source : List Char
  pattern : List Char
  patternRest : List (List Char)
  confidencePpm : UInt32
  validator : Validator
  replacementVerified : Bool

/-- A text with others behind it. -/
def appended (spell : List Char → Text) (text : Text) : List (List Char) → Text
  | [] => text
  | part :: rest => appended spell (text ++ spell part) rest

/-- A rule with these texts. -/
def RuleTexts.rule (spell : List Char → Text) (texts : RuleTexts) : Rule where
  entityType := texts.entityType
  source := spell texts.source
  pattern := appended spell (spell texts.pattern) texts.patternRest
  confidencePpm := texts.confidencePpm
  validator := texts.validator
  replacementVerified := texts.replacementVerified

end Cover

end LawyerAssistance.Privacy
