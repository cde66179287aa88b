import LawyerAssistance.Std.Json
import LawyerAssistance.Std.Quotation
import Mathlib.Data.List.Infix
import Mathlib.Data.List.TakeWhile

/-!
# JSON in fields

`domain/src/validation.rs` and `assistant/src/document.rs` look for the members of JSON objects in
the fields of a business document: a literal with a colon behind it. Both pair the quotation marks
of the text from left to right, so a mark which belongs to no literal shifts all pairs behind it.

The scanners look at bytes. Every byte they look for is ASCII, and no byte of another character is,
so they look at characters here.
-/

namespace LawyerAssistance.Fields

open Quotation

/-- The text of a field. -/
abbrev Text := List Char

/-! ## Scanners -/

/-- `u8::is_ascii_whitespace`. -/
def isAsciiWhitespace (character : Char) : Bool :=
  [' ', '\t', '\n', '\x0c', '\r'].contains character

/-- The loop of both scanners. -/
def memberScan (text : Text) : Bool :=
  match text with
  | [] => false
  | character :: rest =>
      if character ≠ '"' then memberScan rest
      else
        match _found : behindQuote false rest with
        | none => false
        | some behind =>
            let behind := behind.dropWhile isAsciiWhitespace
            if behind.head? = some ':' then true else memberScan behind
termination_by text.length
decreasing_by
  · exact Nat.lt_succ_self _
  · rename_i behind' _
    have shorter := length_behindQuote _found
    have dropped : (behind'.dropWhile isAsciiWhitespace).length ≤ behind'.length :=
      List.length_dropWhile_le _ _
    exact lt_of_le_of_lt dropped (shorter.trans (Nat.lt_succ_self _))

/-- `contains_json_member` of the domain. -/
def containsJsonMember (value : Text) : Bool := memberScan value

/-- Whether `serde_json` reads an object or an array of a text. -/
def isJsonContainer (value : Text) : Bool :=
  match Json.read 127 value with
  | some (.object _) | some (.array _) => true
  | _ => false

/-- `contains_raw_json` of the document generator. -/
def containsRawJson (value : Text) : Bool :=
  decide ("```".toList <:+: value) || isJsonContainer value || memberScan value

/-! ## Aligned members -/

/-- Some name of a member stands where the quotation marks in front of it pair up. -/
def AlignedMember (text : Text) : Prop :=
  ∃ before body space after, text = before ++ '"' :: (body ++ '"' :: (space ++ ':' :: after)) ∧
    Paired before ∧ Body body ∧ ∀ character ∈ space, isAsciiWhitespace character = true

section Scan

variable {text before rest behind : Text} {character : Char}

theorem memberScan_plain (unquoted : character ≠ '"') :
    memberScan (character :: rest) = memberScan rest := by
  rw [memberScan, if_pos unquoted]

theorem memberScan_open (unclosed : behindQuote false rest = none) :
    memberScan ('"' :: rest) = false := by
  rw [memberScan, if_neg (fun different => different rfl)]
  split
  · rfl
  · rename_i found
    rw [unclosed] at found
    cases found

theorem memberScan_literal (closed : behindQuote false rest = some behind) :
    memberScan ('"' :: rest) =
      if (behind.dropWhile isAsciiWhitespace).head? = some ':' then true
      else memberScan (behind.dropWhile isAsciiWhitespace) := by
  rw [memberScan, if_neg (fun different => different rfl)]
  split
  · rename_i found
    rw [closed] at found
    cases found
  · rename_i found
    rw [closed] at found
    cases found
    rfl

/-- White space in front of a text changes nothing. -/
theorem memberScan_dropWhile (text : Text) :
    memberScan (text.dropWhile isAsciiWhitespace) = memberScan text := by
  induction text with
  | nil => rfl
  | cons character rest inductionHypothesis =>
      rw [List.dropWhile_cons]
      split_ifs with blank
      · have unquoted : character ≠ '"' := by
          rintro rfl
          exact absurd blank (by decide)
        rw [inductionHypothesis, memberScan_plain unquoted]
      · rfl

theorem AlignedMember.literal {body : Text} (inside : Body body) (aligned : AlignedMember rest) :
    AlignedMember ('"' :: (body ++ '"' :: rest)) := by
  obtain ⟨before, name, space, after, rfl, pairs, named, blank⟩ := aligned
  exact ⟨'"' :: (body ++ '"' :: before), name, space, after, by simp, .literal inside pairs, named,
    blank⟩

theorem AlignedMember.plain (unquoted : character ≠ '"') (aligned : AlignedMember rest) :
    AlignedMember (character :: rest) := by
  obtain ⟨before, name, space, after, rfl, pairs, named, blank⟩ := aligned
  exact ⟨character :: before, name, space, after, rfl, .plain unquoted pairs, named, blank⟩

/-- What the scanner finds is aligned. -/
theorem aligned_of_memberScan (found : memberScan text = true) : AlignedMember text := by
  induction length : text.length using Nat.strongRecOn generalizing text with
  | ind size inductionHypothesis =>
      cases text with
      | nil =>
          rw [memberScan] at found
          cases found
      | cons character rest =>
          by_cases quotation : character = '"'
          · subst quotation
            cases closed : behindQuote false rest with
            | none =>
                rw [memberScan_open closed] at found
                cases found
            | some behind =>
                obtain ⟨body, inside, rfl⟩ := behindQuote_eq_some.mp closed
                rw [memberScan_literal closed] at found
                split_ifs at found with colon
                · obtain ⟨after, following⟩ := List.head?_eq_some_iff.mp colon
                  refine ⟨[], body, behind.takeWhile isAsciiWhitespace, after, ?_, .nil, inside,
                    fun _ among => List.mem_takeWhile_imp among⟩
                  rw [List.nil_append, ← following, List.takeWhile_append_dropWhile]
                · rw [memberScan_dropWhile] at found
                  refine (inductionHypothesis behind.length ?_ found rfl).literal inside
                  rw [← length, List.length_cons, List.length_append, List.length_cons]
                  omega
          · rw [memberScan_plain quotation] at found
            refine (inductionHypothesis rest.length ?_ found rfl).plain quotation
            rw [← length, List.length_cons]
            omega

/-- What is aligned is found. -/
theorem memberScan_of_aligned (aligned : AlignedMember text) : memberScan text = true := by
  obtain ⟨before, body, space, after, rfl, pairs, inside, blank⟩ := aligned
  induction pairs with
  | nil =>
      have skipped : (space ++ ':' :: after).dropWhile isAsciiWhitespace = ':' :: after := by
        rw [List.dropWhile_append_of_pos blank]
        rfl
      rw [List.nil_append, memberScan_literal (behindQuote_of_body inside), skipped]
      rfl
  | plain unquoted _ inductionHypothesis =>
      rw [List.cons_append, memberScan_plain unquoted, inductionHypothesis]
  | @literal here rest inside' _ inductionHypothesis =>
      rw [List.cons_append, List.append_assoc, List.cons_append,
        memberScan_literal (behindQuote_of_body inside')]
      split_ifs
      · rfl
      · rw [memberScan_dropWhile, inductionHypothesis]

theorem memberScan_eq_true : memberScan text = true ↔ AlignedMember text :=
  ⟨aligned_of_memberScan, memberScan_of_aligned⟩

end Scan

/-! ## Objects -/

/-- A text is that of an object with members. -/
def IsObject (text : Text) : Prop :=
  ∃ depth first others, Json.read depth text = some (.object (first :: others))

/-- A text has an object with members in it. -/
def EmbedsObject (text : Text) : Prop :=
  ∃ object, IsObject object ∧ object <:+: text

section Objects

variable {text rest name : Text} {fuel depth : Nat} {character : Char}

theorem unquoted_of_hexDigit {value : Nat} (digit : Json.hexDigit character = some value) :
    character ≠ '"' ∧ character ≠ '\\' := by
  constructor <;> rintro rfl <;> cases digit

/-- Four digits are plain characters. -/
theorem behindQuote_readHex {value : Nat} (read : Json.readHex text = some (value, rest)) :
    behindQuote false text = behindQuote false rest := by
  rw [Json.readHex.eq_def] at read
  split at read
  · rename_i a b c d behind
    obtain ⟨_, first, read⟩ := Option.bind_eq_some_iff.mp read
    obtain ⟨_, second, read⟩ := Option.bind_eq_some_iff.mp read
    obtain ⟨_, third, read⟩ := Option.bind_eq_some_iff.mp read
    obtain ⟨_, fourth, read⟩ := Option.bind_eq_some_iff.mp read
    cases read
    have plain {character : Char} {value : Nat} (digit : Json.hexDigit character = some value)
        (behind : Text) : behindQuote false (character :: behind) = behindQuote false behind := by
      obtain ⟨unquoted, unescaped⟩ := unquoted_of_hexDigit digit
      rw [behindQuote, if_neg unescaped, if_neg unquoted]
    rw [plain first, plain second, plain third, plain fourth]
  · cases read

/-- An escape is what is behind its first character. -/
theorem behindQuote_readEscape (read : Json.readEscape text = some (character, rest)) :
    behindQuote true text = behindQuote false rest := by
  rw [Json.readEscape.eq_def] at read
  split at read
  case h_9 behind =>
    obtain ⟨⟨code, behind'⟩, hex, read⟩ := Option.bind_eq_some_iff.mp read
    rw [behindQuote, behindQuote_readHex hex]
    dsimp only at read
    split_ifs at read with high low
    · split at read
      · rename_i behind'' _
        obtain ⟨⟨low, _⟩, hex', read⟩ := Option.bind_eq_some_iff.mp read
        dsimp only at read
        split_ifs at read
        obtain ⟨_, rfl⟩ := Prod.mk.inj (Option.some.inj read)
        rw [behindQuote, if_pos rfl, behindQuote, behindQuote_readHex hex']
      · cases read
    · cases read
      rfl
  case h_10 => cases read
  all_goals
    cases read
    rfl

/-- A string which is read ends where its quotation mark is. -/
theorem behindQuote_readCharacters (read : Json.readCharacters fuel text = some (name, rest)) :
    behindQuote false text = some rest := by
  induction fuel generalizing text name with
  | zero => cases read
  | succ fuel inductionHypothesis =>
      cases text with
      | nil => cases read
      | cons character behind =>
          rw [Json.readCharacters] at read
          rw [behindQuote]
          split_ifs at read with quotation backslash control
          · cases read
            rw [if_neg (by rw [quotation]; decide), if_pos quotation]
          · obtain ⟨⟨escaped, behind'⟩, escape, read⟩ := Option.bind_eq_some_iff.mp read
            obtain ⟨⟨others, _⟩, read, same⟩ := Option.bind_eq_some_iff.mp read
            cases same
            rw [if_pos backslash, behindQuote_readEscape escape, inductionHypothesis read]
          · obtain ⟨⟨others, _⟩, read, same⟩ := Option.bind_eq_some_iff.mp read
            cases same
            rw [if_neg backslash, if_neg quotation, inductionHypothesis read]

theorem exists_skipSpace (text : Text) : ∃ space, text = space ++ Json.skipSpace text ∧
    ∀ character ∈ space, isAsciiWhitespace character = true := by
  refine ⟨text.takeWhile _, List.takeWhile_append_dropWhile.symm, fun character among => ?_⟩
  have blank := List.mem_takeWhile_imp among
  simp only [List.contains_eq_mem, List.mem_cons, List.not_mem_nil, or_false,
    decide_eq_true_eq] at blank
  rcases blank with rfl | rfl | rfl | rfl <;> rfl

theorem paired_of_blank {space : Text}
    (blank : ∀ character ∈ space, isAsciiWhitespace character = true) : Paired space :=
  .of_unquoted fun among => absurd (blank '"' among) (by decide)

/-- Members begin with a name and a colon. -/
theorem exists_readMembers {members : List (Text × Json.Tree)}
    (read : Json.readMembers fuel depth text = some (members, rest)) :
    ∃ space body space' after, text = space ++ '"' :: (body ++ '"' :: (space' ++ ':' :: after)) ∧
      Paired space ∧ Body body ∧ ∀ character ∈ space', isAsciiWhitespace character = true := by
  cases fuel with
  | zero => cases read
  | succ fuel =>
      obtain ⟨space, front, blank⟩ := exists_skipSpace text
      rw [Json.readMembers] at read
      split at read
      · rename_i behind begins
        obtain ⟨⟨name, behind'⟩, named, value⟩ := Option.bind_eq_some_iff.mp read
        obtain ⟨body, inside, same⟩ :=
          behindQuote_eq_some.mp (behindQuote_readCharacters named)
        obtain ⟨space', front', blank'⟩ := exists_skipSpace behind'
        dsimp only at value
        split at value
        · rename_i after colon
          rw [colon] at front'
          rw [begins, same, front'] at front
          exact ⟨space, body, space', after, front, paired_of_blank blank, inside, blank'⟩
        · cases value
      · cases read

/-- A number is no object. -/
theorem readUnsigned_ne_object {negative : Bool} {members : List (Text × Json.Tree)} :
    Json.readUnsigned negative text ≠ some (.object members, rest) := by
  intro read
  obtain ⟨⟨digits, behind⟩, _, read⟩ := Option.bind_eq_some_iff.mp read
  dsimp only at read
  split_ifs at read
  obtain ⟨fraction, _, read⟩ := Option.bind_eq_some_iff.mp read
  cases fraction with
  | some behind' => cases read
  | none =>
      have same := (Prod.mk.inj (Option.some.inj read)).1
      rw [Json.integerOf] at same
      split_ifs at same

/-- A value which is an object with members is its members behind a brace. -/
theorem exists_readValue {first : Text × Json.Tree} {others : List (Text × Json.Tree)}
    (read : Json.readValue fuel depth text = some (.object (first :: others), rest)) :
    ∃ space inside, text = space ++ '{' :: inside ∧ Paired space ∧
      ∃ fuel depth members rest, Json.readMembers fuel depth inside = some (members, rest) := by
  obtain ⟨space, front, blank⟩ := exists_skipSpace text
  cases fuel with
  | zero => cases read
  | succ fuel =>
      rw [Json.readValue] at read
      split at read
      · cases read
      rename_i character inside begins
      have literal {tree : Json.Tree} {word : Text} (other : ∀ members, tree ≠ .object members) :
          Json.readLiteral tree word inside ≠ some (.object (first :: others), rest) := by
        intro read
        rw [Json.readLiteral] at read
        split_ifs at read
        exact other _ (Prod.mk.inj (Option.some.inj read)).1
      split_ifs at read with quotation bracket closing brace closing' null yes no
      · obtain ⟨_, _, same⟩ := Option.map_eq_some_iff.mp read
        cases same
      · split at read <;> cases read
      · split at read
        · cases read
        · obtain ⟨_, _, same⟩ := Option.map_eq_some_iff.mp read
          cases same
      · split at read <;> cases read
      · split at read
        · cases read
        · obtain ⟨⟨members, behind⟩, inner, _⟩ := Option.map_eq_some_iff.mp read
          rw [begins, brace] at front
          exact ⟨space, inside, front, paired_of_blank blank, _, _, members, behind, inner⟩
      · exact absurd read (literal (by simp))
      · exact absurd read (literal (by simp))
      · exact absurd read (literal (by simp))
      · rw [Json.readNumber.eq_def] at read
        split at read <;> exact absurd read readUnsigned_ne_object

/-- The text of an object with members begins with a brace, a name and a colon. -/
theorem IsObject.aligned {object before : Text} (isObject : IsObject object)
    (pairs : Paired before) (after : Text) : AlignedMember (before ++ object ++ after) := by
  obtain ⟨depth, first, others, read⟩ := isObject
  have value : ∃ rest, Json.readValue (2 * object.length) depth object =
      some (.object (first :: others), rest) := by
    rw [Json.read] at read
    split at read
    · rename_i value
      split_ifs at read
      cases read
      exact ⟨_, value⟩
    · cases read
  obtain ⟨rest, value⟩ := value
  obtain ⟨space, inside, rfl, blank, _, _, _, _, members⟩ := exists_readValue value
  obtain ⟨space', body, space'', behind, rfl, blank', named, colon⟩ := exists_readMembers members
  refine ⟨before ++ (space ++ '{' :: space'), body, space'', behind ++ after, ?_,
    pairs.append (blank.append (.plain (by decide) blank')), named, colon⟩
  simp

end Objects

/-! ## Detection -/

/-- Both detectors see the objects in a text exactly when it has none, or some name of a member
stands where the quotation marks in front of it pair up, as they do when those in front of an object
pair up. -/
theorem embedded_objects_are_detected (value : Text) :
    ((EmbedsObject value → containsJsonMember value = true ∧ containsRawJson value = true) ↔
      ¬ EmbedsObject value ∨ AlignedMember value) ∧
    ∀ before object after, value = before ++ object ++ after → IsObject object → Paired before →
      AlignedMember value := by
  constructor
  · constructor
    · intro detected
      by_cases embeds : EmbedsObject value
      · exact .inr (memberScan_eq_true.mp (detected embeds).1)
      · exact .inl embeds
    · rintro (absent | aligned) embeds
      · exact absurd embeds absent
      · have found := memberScan_eq_true.mpr aligned
        exact ⟨found, by rw [containsRawJson, found, Bool.or_true]⟩
  · rintro before object after rfl isObject pairs
    exact isObject.aligned pairs after

/-- An object with one member. -/
def smallObject : Text := ['{', '"', 'a', '"', ':', '1', '}']

theorem isObject_smallObject : IsObject smallObject := ⟨1, (['a'], .integer 1), [], rfl⟩

/-- An object behind a text without quotation marks. -/
theorem embedded_objects_are_detected_plain : AlignedMember ("data ".toList ++ smallObject ++ []) :=
  (embedded_objects_are_detected _).2 _ _ _ rfl isObject_smallObject (.of_unquoted (by decide))

/-- A quotation mark in front of an object is paired with the first one in it, and the mark behind
the name is left over: neither detector sees the object. -/
theorem stray_quotation_mark_hides_object :
    ∃ value, EmbedsObject value ∧ containsJsonMember value = false ∧
      containsRawJson value = false := by
  have hidden : memberScan ('"' :: smallObject) = false := by
    have closed : behindQuote false smallObject = some ['a', '"', ':', '1', '}'] := rfl
    have blank : ['a', '"', ':', '1', '}'].dropWhile isAsciiWhitespace =
      'a' :: '"' :: [':', '1', '}'] := rfl
    rw [memberScan_literal closed, if_neg (by decide), blank, memberScan_plain (by decide),
      memberScan_open rfl]
  refine ⟨'"' :: smallObject, ⟨_, isObject_smallObject, ['"'], [], rfl⟩, hidden, ?_⟩
  have unfenced : decide ("```".toList <:+: '"' :: smallObject) = false := by decide
  have unread : isJsonContainer ('"' :: smallObject) = false := rfl
  rw [containsRawJson, hidden, unfenced, unread]
  rfl

end LawyerAssistance.Fields
