import LawyerAssistance.Redaction.Responses

/-!
# Where a reported text is placed

`parse_finding` looks for the place of a reported text: at the match with the reported number, at
the only match which agrees with the reported contexts, or at the reported range. Matches are those
of a scan from the left, each behind the end of the one before it. Every accepted item is placed,
and an item without a place rejects the response.
-/

namespace LawyerAssistance.Redaction

open PrivacyText Storage

/-! ## Reported items -/

/-- The fields of a reported item. -/
structure Reported where
  text : List Char
  kind : String
  contextBefore : Option (List Char)
  contextAfter : Option (List Char)
  occurrence : Option Nat
  range : Option (Nat × Nat)
  confidencePpm : Option Nat

/-- The fields which `parse_finding` reads, with its checks of each of them. -/
def readReported (item : Json) : Except String Reported := do
  refuseIf (item.isObject = false) "ai_response_invalid"
  let text ← presentOr (((item.get? "text").bind Json.asStr).filter fun text => text ≠ "")
    "ai_response_invalid"
  let kind ← presentOr (((item.get? "kind").bind Json.asStr).filter allowedAiKind)
    "ai_response_invalid"
  let contextBefore ← optionalContext item "context_before"
  let contextAfter ← optionalContext item "context_after"
  let occurrence ← optionalNumber item "occurrence"
  let range ← suppliedRange item
  let confidencePpm ← optionalNumber item "confidence_ppm"
  refuseIf (confidencePpm.any (fun confidence => 1000000 < confidence) = true)
    "ai_response_invalid"
  pure ⟨text.toList, kind, contextBefore, contextAfter, occurrence, range, confidencePpm⟩

/-- The items of a response. -/
def reportedItems (parseJson : List Char → Option Json) (message : Json) : Option (List Json) := do
  let raw ← messageText message
  let value ← parseJson (withoutFence raw)
  (value.get? "findings").bind Json.asArray

section Places

variable (source : List Char) (reported : Reported)

/-- The text around a span is as reported. -/
def Reported.Agrees (span : Nat × Nat) : Prop :=
  contextMatches source reported.contextBefore reported.contextAfter span.1 span.2 = true

instance (span : Nat × Nat) : Decidable (reported.Agrees source span) :=
  inferInstanceAs (Decidable (_ = _))

/-- The matches which agree with the contexts. -/
def Reported.candidates : List (Nat × Nat) :=
  (matchSpans source reported.text).filter fun span => decide (reported.Agrees source span)

/-- The match with the reported number, where it agrees with the contexts. -/
def Reported.Counted (span : Nat × Nat) : Prop :=
  ∃ number, reported.occurrence = some number ∧
    (matchSpans source reported.text)[number]? = some span ∧ reported.Agrees source span

/-- The place of a reported text. -/
inductive Located : Nat × Nat → Prop where
  /-- The match with the reported number. -/
  | counted {span : Nat × Nat} (here : reported.Counted source span) : Located span
  /-- The only match which agrees with the contexts, where the number is missing or stale. -/
  | only {span : Nat × Nat} (uncounted : ∀ other, ¬ reported.Counted source other)
      (single : reported.candidates source = [span]) : Located span
  /-- The reported range, where neither the number nor the contexts single out a match. -/
  | supplied {span : Nat × Nat} (uncounted : ∀ other, ¬ reported.Counted source other)
      (undecided : ∀ other, reported.candidates source ≠ [other])
      (given : reported.range = some span)
      (exact : Text.slice source span.1 span.2 = some reported.text)
      (agrees : reported.Agrees source span) : Located span

/-- What `parse_finding` chooses before it checks the text at the range. -/
def Reported.chosen : Option (Nat × Nat) :=
  (reported.occurrence.bind (occurrenceSpanWithContext source reported.text reported.contextBefore
      reported.contextAfter)).or
    ((uniqueOccurrenceSpanWithContext source reported.text reported.contextBefore
        reported.contextAfter).or
      ((contextDisambiguatedSpan source reported.text reported.contextBefore
        reported.contextAfter).or reported.range))

/-- A finding is its item: the place is the only one which the item has, and the text of the chunk
there, and around it, is as reported. -/
structure Placed (item : Json) (finding : AiFinding) : Prop where
  read : readReported item = .ok reported
  located : Located source reported (finding.start, finding.end)
  unique : ∀ span, Located source reported span → span = (finding.start, finding.end)
  agrees : reported.Agrees source (finding.start, finding.end)
  exact : Text.slice source finding.start finding.end = some finding.text
  boundaries : Text.isCharBoundary source finding.start = true ∧
    Text.isCharBoundary source finding.end = true
  fields : finding.text = reported.text ∧ finding.kind = reported.kind ∧
    finding.confidencePpm = reported.confidencePpm

end Places

/-! ## Matches -/

section Matches

variable {source : List Char} {reported : Reported} {span : Nat × Nat}

theorem slice_of_mem_matchSpans {needle : List Char} (nonempty : needle ≠ [])
    (member : span ∈ matchSpans source needle) :
    Text.slice source span.1 span.2 = some needle := by
  obtain ⟨start, found, rfl⟩ := List.mem_map.mp member
  obtain ⟨before, after, cut, rfl⟩ := Text.exists_of_mem_matchIndices nonempty found
  exact Text.slice_eq_some.mpr ⟨before, after, cut, Nat.zero_add _, rfl⟩

/-- The only match is the only one which agrees with the contexts, if it does. -/
theorem unique_or_contextDisambiguatedSpan (source needle : List Char)
    (before after : Option (List Char)) (other : Option (Nat × Nat)) :
    (uniqueOccurrenceSpanWithContext source needle before after).or
        ((contextDisambiguatedSpan source needle before after).or other) =
      (contextDisambiguatedSpan source needle before after).or other := by
  rw [uniqueOccurrenceSpanWithContext, contextDisambiguatedSpan]
  split
  · next only single =>
      rw [single, List.filter_singleton]
      cases contextMatches source before after only.1 only.2 <;> rfl
  · rfl

/-- The contexts single out a match. -/
theorem contextDisambiguatedSpan_eq_some :
    contextDisambiguatedSpan source reported.text reported.contextBefore reported.contextAfter =
      some span ↔ reported.candidates source = [span] := by
  have same : reported.candidates source = (matchSpans source reported.text).filter fun span =>
      contextMatches source reported.contextBefore reported.contextAfter span.1 span.2 :=
    List.filter_congr fun _ _ => Bool.decide_eq_true
  rw [contextDisambiguatedSpan, same]
  split
  · next only single =>
      rw [single]
      simp
  · next several =>
      exact ⟨nofun, fun single => absurd single (several span)⟩

theorem occurrenceSpanWithContext_eq_some :
    reported.occurrence.bind (occurrenceSpanWithContext source reported.text
      reported.contextBefore reported.contextAfter) = some span ↔ reported.Counted source span := by
  rw [Option.bind_eq_some_iff]
  refine exists_congr fun number => and_congr_right fun _ => ?_
  rw [occurrenceSpanWithContext, Option.filter_eq_some_iff]
  rfl

end Matches

/-! ## Places -/

section Locating

variable {source : List Char} {reported : Reported} {span : Nat × Nat} {item : Json}
  {finding : AiFinding}

/-- A place has the text, with the reported contexts around it. -/
theorem Located.exact (nonempty : reported.text ≠ []) (located : Located source reported span) :
    Text.slice source span.1 span.2 = some reported.text ∧ reported.Agrees source span := by
  cases located with
  | counted here =>
      obtain ⟨number, _, found, agrees⟩ := here
      exact ⟨slice_of_mem_matchSpans nonempty (List.mem_of_getElem? found), agrees⟩
  | only _ single =>
      have member : span ∈ reported.candidates source := single ▸ List.mem_singleton_self span
      obtain ⟨matched, agrees⟩ := List.mem_filter.mp member
      exact ⟨slice_of_mem_matchSpans nonempty matched, of_decide_eq_true agrees⟩
  | supplied _ _ _ exact agrees => exact ⟨exact, agrees⟩

/-- What is chosen, checked, is the place. -/
theorem located_iff (nonempty : reported.text ≠ []) :
    Located source reported span ↔ reported.chosen source = some span ∧
      Text.slice source span.1 span.2 = some reported.text ∧ reported.Agrees source span := by
  rw [Reported.chosen, unique_or_contextDisambiguatedSpan]
  constructor
  · intro located
    refine ⟨?_, located.exact nonempty⟩
    cases located with
    | counted here => rw [occurrenceSpanWithContext_eq_some.mpr here, Option.some_or]
    | only uncounted single =>
        rw [Option.eq_none_iff_forall_ne_some.mpr fun other counted =>
          uncounted other (occurrenceSpanWithContext_eq_some.mp counted), Option.none_or,
          contextDisambiguatedSpan_eq_some.mpr single, Option.some_or]
    | supplied uncounted undecided given _ _ =>
        rw [Option.eq_none_iff_forall_ne_some.mpr fun other counted =>
          uncounted other (occurrenceSpanWithContext_eq_some.mp counted), Option.none_or,
          Option.eq_none_iff_forall_ne_some.mpr fun other single =>
          undecided other (contextDisambiguatedSpan_eq_some.mp single), Option.none_or, given]
  · rintro ⟨chosen, exact, agrees⟩
    rw [Option.or_eq_some_iff, Option.or_eq_some_iff] at chosen
    have uncounted (missing : reported.occurrence.bind (occurrenceSpanWithContext source
        reported.text reported.contextBefore reported.contextAfter) = none) (other : Nat × Nat) :
        ¬ reported.Counted source other := fun counted => by
      rw [occurrenceSpanWithContext_eq_some.mpr counted] at missing
      cases missing
    obtain counted | ⟨missing, single | ⟨undecided, given⟩⟩ := chosen
    · exact .counted (occurrenceSpanWithContext_eq_some.mp counted)
    · exact .only (uncounted missing) (contextDisambiguatedSpan_eq_some.mp single)
    · refine .supplied (uncounted missing) (fun other single => ?_) given exact agrees
      rw [contextDisambiguatedSpan_eq_some.mpr single] at undecided
      cases undecided

theorem Located.unique {other : Nat × Nat} (nonempty : reported.text ≠ [])
    (located : Located source reported span) (locatedOther : Located source reported other) :
    other = span :=
  Option.some.inj (((located_iff nonempty).mp locatedOther).1.symm.trans
    ((located_iff nonempty).mp located).1)

/-- A text which was read is not empty. -/
theorem nonempty_of_readReported (read : readReported item = .ok reported) :
    reported.text ≠ [] := by
  obtain ⟨_, read⟩ := refuseIf_bind_eq_ok.mp read
  obtain ⟨text, named, read⟩ := bind_eq_ok.mp read
  obtain ⟨_, nonempty⟩ := Option.filter_eq_some_iff.mp (presentOr_eq_ok.mp named)
  obtain ⟨kind, _, read⟩ := bind_eq_ok.mp read
  obtain ⟨contextBefore, _, read⟩ := bind_eq_ok.mp read
  obtain ⟨contextAfter, _, read⟩ := bind_eq_ok.mp read
  obtain ⟨occurrence, _, read⟩ := bind_eq_ok.mp read
  obtain ⟨range, _, read⟩ := bind_eq_ok.mp read
  obtain ⟨confidencePpm, _, read⟩ := bind_eq_ok.mp read
  obtain ⟨_, read⟩ := refuseIf_bind_eq_ok.mp read
  cases read
  simpa using nonempty

/-- The text at a place passes the last check. -/
theorem checked_of_slice {text : List Char} {before after : Option (List Char)} {start stop : Nat}
    (nonempty : text ≠ []) (exact : Text.slice source start stop = some text)
    (agrees : contextMatches source before after start stop = true) :
    ¬ (stop ≤ start ∨ Text.byteLength source < stop ∨ Text.isCharBoundary source start = false ∨
      Text.isCharBoundary source stop = false ∨ Text.slice source start stop ≠ some text ∨
      contextMatches source before after start stop = false) := by
  obtain ⟨first, last⟩ := Text.isCharBoundary_of_slice exact
  obtain ⟨_, _, _, _, length⟩ := Text.slice_eq_some.mp exact
  have positive := Text.byteLength_pos nonempty
  have within := Text.stop_le_of_slice exact
  simp only [first, last, exact, agrees, Bool.true_eq_false, ne_eq, not_true_eq_false, or_false]
  omega

/-- An item is accepted exactly when it can be read and has a place. -/
theorem parseFinding_eq_ok :
    parseFinding source item = .ok finding ↔ ∃ reported, Placed source reported item finding := by
  constructor
  · intro parsed
    obtain ⟨object, parsed⟩ := refuseIf_bind_eq_ok.mp parsed
    obtain ⟨text, named, parsed⟩ := bind_eq_ok.mp parsed
    obtain ⟨kind, allowed, parsed⟩ := bind_eq_ok.mp parsed
    obtain ⟨contextBefore, before, parsed⟩ := bind_eq_ok.mp parsed
    obtain ⟨contextAfter, after, parsed⟩ := bind_eq_ok.mp parsed
    obtain ⟨occurrence, numbered, parsed⟩ := bind_eq_ok.mp parsed
    obtain ⟨range, given, parsed⟩ := bind_eq_ok.mp parsed
    obtain ⟨⟨start, stop⟩, chosen, parsed⟩ := bind_eq_ok.mp parsed
    obtain ⟨confidencePpm, stated, parsed⟩ := bind_eq_ok.mp parsed
    obtain ⟨bounded, parsed⟩ := refuseIf_bind_eq_ok.mp parsed
    obtain ⟨checked, parsed⟩ := refuseIf_bind_eq_ok.mp parsed
    cases parsed
    simp only [not_or, not_not] at checked
    obtain ⟨_, _, _, _, exact, agrees⟩ := checked
    have read : readReported item = .ok ⟨text.toList, kind, contextBefore, contextAfter,
        occurrence, range, confidencePpm⟩ :=
      refuseIf_bind_eq_ok.mpr ⟨object, bind_eq_ok.mpr ⟨text, named, bind_eq_ok.mpr
        ⟨kind, allowed, bind_eq_ok.mpr ⟨contextBefore, before, bind_eq_ok.mpr
          ⟨contextAfter, after, bind_eq_ok.mpr ⟨occurrence, numbered, bind_eq_ok.mpr
            ⟨range, given, bind_eq_ok.mpr ⟨confidencePpm, stated,
              refuseIf_bind_eq_ok.mpr ⟨bounded, rfl⟩⟩⟩⟩⟩⟩⟩⟩⟩
    have nonempty := nonempty_of_readReported read
    have agreesHere := Bool.not_eq_false _ ▸ agrees
    have located := (located_iff nonempty).mpr ⟨presentOr_eq_ok.mp chosen, exact, agreesHere⟩
    exact ⟨_, read, located, fun span => located.unique nonempty, agreesHere, exact,
      Text.isCharBoundary_of_slice exact, rfl, rfl, rfl⟩
  · rintro ⟨reported, placed⟩
    have read := placed.read
    have nonempty := nonempty_of_readReported read
    obtain ⟨chosen, exact, agrees⟩ := (located_iff nonempty).mp placed.located
    obtain ⟨object, read⟩ := refuseIf_bind_eq_ok.mp read
    obtain ⟨text, named, read⟩ := bind_eq_ok.mp read
    obtain ⟨kind, allowed, read⟩ := bind_eq_ok.mp read
    obtain ⟨contextBefore, before, read⟩ := bind_eq_ok.mp read
    obtain ⟨contextAfter, after, read⟩ := bind_eq_ok.mp read
    obtain ⟨occurrence, numbered, read⟩ := bind_eq_ok.mp read
    obtain ⟨range, given, read⟩ := bind_eq_ok.mp read
    obtain ⟨confidencePpm, stated, read⟩ := bind_eq_ok.mp read
    obtain ⟨bounded, read⟩ := refuseIf_bind_eq_ok.mp read
    cases read
    obtain ⟨ofText, ofKind, start, stop, confidence⟩ := finding
    have fields := placed.fields
    dsimp only at fields
    obtain ⟨rfl, rfl, rfl⟩ := fields
    refine refuseIf_bind_eq_ok.mpr ⟨object, bind_eq_ok.mpr ⟨_, named, bind_eq_ok.mpr
      ⟨_, allowed, bind_eq_ok.mpr ⟨contextBefore, before, bind_eq_ok.mpr
        ⟨contextAfter, after, bind_eq_ok.mpr ⟨occurrence, numbered, bind_eq_ok.mpr
          ⟨range, given, bind_eq_ok.mpr ⟨(start, stop), presentOr_eq_ok.mpr chosen, bind_eq_ok.mpr
            ⟨_, stated, refuseIf_bind_eq_ok.mpr
              ⟨bounded, refuseIf_bind_eq_ok.mpr ⟨?_, rfl⟩⟩⟩⟩⟩⟩⟩⟩⟩⟩⟩
    exact checked_of_slice nonempty exact agrees

end Locating

/-! ## Responses -/

section Rejecting

variable {source : List Char} {item : Json}

theorem optionalContext_fails (item : Json) (name : String) :
    FailsOnlyWith "ai_response_invalid" (optionalContext item name) := by
  rw [optionalContext]
  split
  · exact .ok none
  · exact (FailsOnlyWith.presentOr _).bind fun _ => (FailsOnlyWith.refuseIf _).bind fun _ => .ok _

theorem optionalNumber_fails (item : Json) (name : String) :
    FailsOnlyWith "ai_response_invalid" (optionalNumber item name) := by
  rw [optionalNumber]
  split
  · exact .ok none
  · next value _ =>
      intro other failed
      cases number : value.asU64 with
      | none =>
          rw [number] at failed
          cases failed
          rfl
      | some _ =>
          rw [number] at failed
          cases failed

theorem suppliedRange_fails (item : Json) :
    FailsOnlyWith "ai_response_invalid" (suppliedRange item) := by
  rw [suppliedRange]
  split
  · exact (FailsOnlyWith.presentOr _).bind fun _ => (FailsOnlyWith.presentOr _).bind fun _ => .ok _
  · exact .ok none

/-- An item is refused with the one error of the parser. -/
theorem parseFinding_fails (source : List Char) (item : Json) :
    FailsOnlyWith "ai_response_invalid" (parseFinding source item) :=
  (FailsOnlyWith.refuseIf _).bind fun _ => (FailsOnlyWith.presentOr _).bind fun _ =>
    (FailsOnlyWith.presentOr _).bind fun _ => (optionalContext_fails item _).bind fun _ =>
      (optionalContext_fails item _).bind fun _ => (optionalNumber_fails item _).bind fun _ =>
        (suppliedRange_fails item).bind fun _ => (FailsOnlyWith.presentOr _).bind fun _ =>
          (optionalNumber_fails item _).bind fun _ => (FailsOnlyWith.refuseIf _).bind fun _ =>
            (FailsOnlyWith.refuseIf _).bind fun _ => .ok _

theorem parseFindingsResponse_fails (parseJson : List Char → Option Json) (message : Json)
    (source : List Char) :
    FailsOnlyWith "ai_response_invalid" (parseFindingsResponse parseJson message source) :=
  (FailsOnlyWith.presentOr _).bind fun _ => (FailsOnlyWith.refuseIf _).bind fun _ =>
    (FailsOnlyWith.presentOr _).bind fun _ => (FailsOnlyWith.presentOr _).bind fun _ =>
      (FailsOnlyWith.refuseIf _).bind fun _ => .mapM (parseFinding_fails source) _

/-- An accepted response has one finding for each item, in the place of the item. -/
theorem parseFindingsResponse_eq_ok {parseJson : List Char → Option Json} {message : Json}
    {findings : List AiFinding}
    (parsed : parseFindingsResponse parseJson message source = .ok findings) :
    ∃ items, reportedItems parseJson message = some items ∧ List.Forall₂
      (fun item finding => ∃ reported, Placed source reported item finding) items findings := by
  obtain ⟨raw, text, parsed⟩ := bind_eq_ok.mp parsed
  obtain ⟨_, parsed⟩ := refuseIf_bind_eq_ok.mp parsed
  obtain ⟨value, read, parsed⟩ := bind_eq_ok.mp parsed
  obtain ⟨items, listed, parsed⟩ := bind_eq_ok.mp parsed
  obtain ⟨_, parsed⟩ := refuseIf_bind_eq_ok.mp parsed
  refine ⟨items, ?_, (mapM_eq_ok parsed).imp fun _ _ => parseFinding_eq_ok.mp⟩
  rw [reportedItems, presentOr_eq_ok.mp text, Option.bind_eq_bind, Option.bind_some,
    presentOr_eq_ok.mp read, Option.bind_eq_bind, Option.bind_some]
  exact presentOr_eq_ok.mp listed

/-- Every item of an accepted response has one finding, at the only place which the item has: the
match with its number, else the only match with its contexts, else its range, with the text of the
chunk there and around it. An item without a place rejects the response. -/
theorem findings_are_placed (parseJson : List Char → Option Json) (message : Json)
    (source : List Char) :
    (∀ findings, parseFindingsResponse parseJson message source = .ok findings →
      ∃ items, reportedItems parseJson message = some items ∧ List.Forall₂
        (fun item finding => ∃ reported, Placed source reported item finding) items findings) ∧
    ∀ items item, reportedItems parseJson message = some items → item ∈ items →
      (∀ reported finding, ¬ Placed source reported item finding) →
      parseFindingsResponse parseJson message source = .error "ai_response_invalid" := by
  refine ⟨fun findings => parseFindingsResponse_eq_ok, fun items item listed member unplaced => ?_⟩
  cases parsed : parseFindingsResponse parseJson message source with
  | error error => rw [parseFindingsResponse_fails parseJson message source error parsed]
  | ok findings =>
      obtain ⟨others, same, placed⟩ := parseFindingsResponse_eq_ok parsed
      rw [listed] at same
      cases same
      obtain ⟨finding, _, reported, here⟩ := exists_of_forall₂_left placed member
      exact absurd here (unplaced reported finding)

/-- The matches which agree with the contexts and have the number, where one was reported. -/
def Reported.consistent (source : List Char) (reported : Reported) : List (Nat × Nat) :=
  ((matchSpans source reported.text).zipIdx.filter fun found =>
    reported.occurrence.all (fun number => decide (number = found.2)) &&
      decide (reported.Agrees source found.1)).map Prod.fst

/-- A name which occurs twice, with a number which it does not have and its second range. -/
def staleItem : Json :=
  .object [("text", .string "李明"), ("kind", .string "person_name"),
    ("occurrence", Json.ofNat 99), ("start", Json.ofNat 9), ("end", Json.ofNat 15)]

/-- The response with this item. -/
def staleResponse : String :=
  "\x7b\"findings\":[\x7b\"text\":\"李明\",\"kind\":\"person_name\",\"occurrence\":99," ++
    "\"start\":9,\"end\":15\x7d]\x7d"

/-- The range is accepted although no match has the number. -/
theorem range_repairs_a_stale_number :
    ¬ ∀ parseJson message source findings,
      parseFindingsResponse parseJson message source = .ok findings →
      ∃ items, reportedItems parseJson message = some items ∧ List.Forall₂
        (fun item finding => ∃ reported, readReported item = .ok reported ∧
          (1 < (matchSpans source reported.text).length →
            reported.consistent source = [(finding.start, finding.end)])) items findings := by
  intro always
  let parseJson : List Char → Option Json := fun text =>
    if text = staleResponse.toList then some (.object [("findings", .array [staleItem])]) else none
  have read : readReported staleItem = .ok ⟨"李明".toList, "person_name", none, none, some 99,
      some (9, 15), none⟩ := rfl
  have items : reportedItems parseJson (.string staleResponse) = some [staleItem] := rfl
  have parsed : parseFindingsResponse parseJson (.string staleResponse) "李明；李明".toList =
      .ok [⟨"李明".toList, "person_name", 9, 15, none⟩] := rfl
  obtain ⟨listed, same, placed⟩ := always _ _ _ _ parsed
  rw [items] at same
  cases same
  obtain ⟨⟨reported, readAgain, single⟩, _⟩ := List.forall₂_cons.mp placed
  rw [read] at readAgain
  cases readAgain
  exact absurd (single (by decide)) (by decide)

end Rejecting

end LawyerAssistance.Redaction
