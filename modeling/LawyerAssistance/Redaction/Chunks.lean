import LawyerAssistance.Redaction.Responses
import LawyerAssistance.Std.Machine
import Mathlib.Data.Finset.Card
import Mathlib.Data.Finset.Dedup

/-!
# Cached chunks of a redaction

A text is redacted in two passes over its chunks. The findings of a chunk are kept as soon as
the answer of the model parses, and are not asked for again. What the parser accepts is placed
exactly, also in the whole text, but the analysis bounds the length of a finding and the number of
both passes together, which no pass does.
-/

namespace LawyerAssistance.Redaction

open PrivacyText Storage

/-- The parts of a cache key which differ within the redactions of one text by one model. -/
structure ChunkKey where
  phase : String
  pass : String
  chunkStart : Nat
  chunkEnd : Nat
  promptFingerprint : String
deriving DecidableEq

/-- The cached chunks: `ai_redaction_chunk`. -/
abbrev ChunkCache := ChunkKey → Option (List AiFinding)

/-- `save_ai_chunk`. -/
def ChunkCache.save (cache : ChunkCache) (key : ChunkKey) (findings : List AiFinding) :
    ChunkCache :=
  fun other => if other = key then some findings else cache other

/-- The answers of the model to each attempt for a chunk, or the error of the dispatch. -/
abbrev Answers := ChunkKey → Nat → Except String Json

/-- `MAX_PARSE_RETRIES`. -/
def maxParseRetries : Nat := 3

section Passes

variable (parseJson : List Char → Option Json)

/-- `complete_findings_with_retry`, with the attempts which are left. -/
def completeFindingsWithRetry (answers : Nat → Except String Json) (chunk : List Char) :
    Nat → Except String (List AiFinding)
  | 0 => responseInvalid
  | left + 1 => do
      let message ← answers (maxParseRetries - (left + 1))
      match parseFindingsResponse parseJson message chunk with
      | .ok findings => pure findings
      | .error code =>
          if code = "ai_response_invalid" then completeFindingsWithRetry answers chunk left
          else .error code

/-- `adjust_findings` for one finding. -/
def adjustFinding (source : Text) (chunkStart : Nat) (finding : AiFinding) :
    Except String AiFinding := do
  let start := finding.start + chunkStart
  let stop := finding.end + chunkStart
  refuseIf (stop ≤ start ∨ Text.byteLength source < stop ∨
    Text.slice source start stop ≠ some finding.text) "ai_response_invalid"
  pure { finding with start := start, «end» := stop }

/-- The findings of one chunk: those which are cached, or those of the model, which are cached. -/
def chunkFindings (source : Text) (answers : Answers) (cache : ChunkCache) (key : ChunkKey) :
    ChunkCache × Except String (List AiFinding) :=
  match Text.slice source key.chunkStart key.chunkEnd with
  | none => (cache, responseInvalid)
  | some chunk =>
      match cache key with
      | some findings => (cache, .ok findings)
      | none =>
          match completeFindingsWithRetry parseJson (answers key) chunk maxParseRetries with
          | .error code => (cache, .error code)
          | .ok findings => (cache.save key findings, .ok findings)

/-- `locate_entities` and `check_omissions`: the loop over the chunks, with what was found. -/
def passFindings (source : Text) (answers : Answers) :
    List ChunkKey → List AiFinding → ChunkCache → ChunkCache × Except String (List AiFinding)
  | [], found, cache => (cache, .ok found)
  | key :: rest, found, cache =>
      match chunkFindings parseJson source answers cache key with
      | (cache, .error code) => (cache, .error code)
      | (cache, .ok findings) =>
          match findings.mapM (adjustFinding source key.chunkStart) with
          | .error code => (cache, .error code)
          | .ok adjusted =>
              if maxFindings < (found ++ adjusted).length then (cache, responseInvalid)
              else passFindings source answers rest (found ++ adjusted) cache

/-- What identifies a finding to `merge_findings`. -/
def findingKey (finding : AiFinding) : Nat × Nat × String × Text :=
  (finding.start, finding.end, finding.kind, finding.text)

/-- The findings which were not seen, each one once. -/
def keepUnseen : List (Nat × Nat × String × Text) → List AiFinding → List AiFinding
  | _, [] => []
  | seen, finding :: rest =>
      if findingKey finding ∈ seen then keepUnseen seen rest
      else finding :: keepUnseen (findingKey finding :: seen) rest

/-- `merge_findings`. -/
def mergeFindings (primary omissions : List AiFinding) : List AiFinding :=
  keepUnseen [] (primary ++ omissions)

/-- One attempt to redact the text: the chunks of both passes, and the answers of the model. The
omission pass asks with a summary of what the first analysis covers. -/
structure Attempt where
  located : List ChunkKey
  checked : List AiFinding → List ChunkKey
  answers : Answers

/-- The findings which both passes of an attempt accept, and the cache behind them. -/
def acceptedFindings (source : Text) (cache : ChunkCache) (attempt : Attempt) :
    ChunkCache × Except String (List AiFinding × List AiFinding) :=
  match passFindings parseJson source attempt.answers attempt.located [] cache with
  | (cache, .error code) => (cache, .error code)
  | (cache, .ok primary) =>
      match passFindings parseJson source attempt.answers
          (attempt.checked (mergeFindings primary [])) [] cache with
      | (cache, .error code) => (cache, .error code)
      | (cache, .ok omissions) => (cache, .ok (primary, omissions))

/-- `redact_with_ai`, up to the findings which the analysis admits: those of the first pass, then
those of both. -/
def redactWithAi (source : Text) (cache : ChunkCache) (attempt : Attempt) :
    ChunkCache × Except String (List AiFinding) :=
  match passFindings parseJson source attempt.answers attempt.located [] cache with
  | (cache, .error code) => (cache, .error code)
  | (cache, .ok primary) =>
      let primary := mergeFindings primary []
      match validateAiInputs source primary with
      | .error error => (cache, .error error.code)
      | .ok _ =>
          match passFindings parseJson source attempt.answers (attempt.checked primary) []
              cache with
          | (cache, .error code) => (cache, .error code)
          | (cache, .ok omissions) =>
              let findings := mergeFindings primary omissions
              match validateAiInputs source findings with
              | .error error => (cache, .error error.code)
              | .ok _ => (cache, .ok findings)

/-- The redactions of one text as a machine on its cache. -/
def redactions (source : Text) : Machine ChunkCache Attempt where
  step cache attempt := some (redactWithAi parseJson source cache attempt).1

end Passes

/-! ## Merged findings -/

section Merged

variable {seen : List (Nat × Nat × String × Text)} {findings primary omissions : List AiFinding}

/-- The findings which are kept have the keys which were not seen, each one once. -/
theorem keys_keepUnseen (seen : List (Nat × Nat × String × Text)) (findings : List AiFinding) :
    ((keepUnseen seen findings).map findingKey).Nodup ∧
      ∀ key, key ∈ (keepUnseen seen findings).map findingKey ↔
        key ∈ findings.map findingKey ∧ key ∉ seen := by
  induction findings generalizing seen with
  | nil => simp [keepUnseen]
  | cons finding rest inductionHypothesis =>
      rw [keepUnseen]
      split_ifs with known
      · obtain ⟨once, keys⟩ := inductionHypothesis seen
        refine ⟨once, fun key => (keys key).trans (and_congr_left fun unseen => ?_)⟩
        rw [List.map_cons, List.mem_cons]
        have other : key ≠ findingKey finding := fun same => unseen (by rwa [same])
        exact (or_iff_right other).symm
      · obtain ⟨once, keys⟩ := inductionHypothesis (findingKey finding :: seen)
        refine ⟨List.nodup_cons.mpr ⟨fun again => ?_, once⟩, fun key => ?_⟩
        · exact ((keys _).mp again).2 List.mem_cons_self
        · rw [List.map_cons, List.map_cons, List.mem_cons, List.mem_cons, keys key, List.mem_cons]
          by_cases same : key = findingKey finding
          · simp [same, known]
          · simp [same]

theorem mem_keys_mergeFindings (key : Nat × Nat × String × Text) :
    key ∈ (mergeFindings primary omissions).map findingKey ↔
      key ∈ (primary ++ omissions).map findingKey := by
  rw [mergeFindings, (keys_keepUnseen [] _).2]
  simp

/-- Merged findings are findings of the two lists. -/
theorem mem_of_mem_keepUnseen {finding : AiFinding} (member : finding ∈ keepUnseen seen findings) :
    finding ∈ findings := by
  induction findings generalizing seen with
  | nil => cases member
  | cons head rest inductionHypothesis =>
      rw [keepUnseen] at member
      split_ifs at member with known
      · exact List.mem_cons_of_mem _ (inductionHypothesis member)
      · obtain rfl | inRest := List.mem_cons.mp member
        · exact List.mem_cons_self
        · exact List.mem_cons_of_mem _ (inductionHypothesis inRest)

/-- The number of different findings. -/
def distinctFindings (findings : List AiFinding) : Nat := (findings.map findingKey).toFinset.card

/-- Merging keeps each finding once. -/
theorem length_mergeFindings :
    (mergeFindings primary omissions).length = distinctFindings (primary ++ omissions) := by
  have once := (keys_keepUnseen [] (primary ++ omissions)).1
  rw [distinctFindings, ← List.length_map (f := findingKey), mergeFindings,
    ← List.toFinset_card_of_nodup once]
  congr 1
  ext key
  rw [List.mem_toFinset, List.mem_toFinset]
  exact mem_keys_mergeFindings key

/-- The first list may be merged before. -/
theorem distinctFindings_merged :
    distinctFindings (mergeFindings primary [] ++ omissions) =
      distinctFindings (primary ++ omissions) := by
  rw [distinctFindings, distinctFindings]
  congr 1
  ext key
  simp only [List.mem_toFinset, List.map_append, List.mem_append, mem_keys_mergeFindings,
    List.append_nil]

/-- The texts of findings are within the bound of the analysis. -/
def Short (findings : List AiFinding) : Prop :=
  ∀ finding ∈ findings, Text.byteLength finding.text ≤ maxAiFindingTextBytes

instance : Decidable (Short findings) :=
  inferInstanceAs (Decidable (∀ finding ∈ findings, _))

/-- Merging keeps every text. -/
theorem short_mergeFindings :
    Short (mergeFindings primary omissions) ↔ Short (primary ++ omissions) := by
  constructor
  · intro short finding member
    obtain ⟨kept, inMerged, same⟩ := List.mem_map.mp
      ((mem_keys_mergeFindings _).mpr (List.mem_map_of_mem (f := findingKey) member))
    have text : kept.text = finding.text := congrArg (fun key => key.2.2.2) same
    exact text ▸ short kept inMerged
  · exact fun short finding member => short finding (mem_of_mem_keepUnseen member)

end Merged

/-! ## Exact places -/

section Exactness

variable {parseJson : List Char → Option Json} {source : Text} {cache : ChunkCache}
  {found findings : List AiFinding}

/-- The cached findings of a chunk stand at their places in it. -/
def Sound (source : Text) (cache : ChunkCache) : Prop :=
  ∀ key findings chunk, cache key = some findings →
    Text.slice source key.chunkStart key.chunkEnd = some chunk →
    ∀ finding ∈ findings, Exact chunk finding

/-- The findings which the model returns for a chunk stand at their places in it. -/
theorem completeFindingsWithRetry_exact {answer : Nat → Except String Json} {chunk : List Char}
    {left : Nat}
    (done : completeFindingsWithRetry parseJson answer chunk left = .ok findings) :
    ∀ finding ∈ findings, Exact chunk finding := by
  induction left with
  | zero => cases done
  | succ left inductionHypothesis =>
      obtain ⟨message, _, done⟩ := bind_eq_ok.mp done
      split at done
      · next parsed =>
          cases done
          exact parseFindingsResponse_exact parsed
      · split_ifs at done
        exact inductionHypothesis done

/-- A finding at its place in a chunk is adjusted to its place in the text. -/
theorem adjustFinding_exact {chunk : List Char} {chunkStart chunkEnd : Nat} {finding : AiFinding}
    (part : Text.slice source chunkStart chunkEnd = some chunk) (exact : Exact chunk finding) :
    ∃ adjusted, adjustFinding source chunkStart finding = .ok adjusted ∧ Exact source adjusted := by
  have placed := Text.slice_slice part exact.place
  have ordered : finding.start + chunkStart < finding.end + chunkStart := by
    obtain ⟨_, _, _, _, stop⟩ := Text.slice_eq_some.mp exact.place
    have positive := Text.byteLength_pos exact.nonempty
    omega
  refine ⟨_, refuseIf_bind_eq_ok.mpr ⟨?_, rfl⟩, exact.nonempty, placed, exact.kind,
    exact.confidence⟩
  simp only [not_or, not_not, Nat.not_le, Nat.not_lt]
  exact ⟨ordered, Text.stop_le_of_slice placed, placed⟩

/-- The findings of a chunk stand at their places in it, and a cache stays sound. -/
theorem chunkFindings_exact (parseJson : List Char → Option Json) (answers : Answers)
    (key : ChunkKey) (sound : Sound source cache) :
    Sound source (chunkFindings parseJson source answers cache key).1 ∧
      ∀ {findings}, (chunkFindings parseJson source answers cache key).2 = .ok findings →
        ∃ chunk, Text.slice source key.chunkStart key.chunkEnd = some chunk ∧
          ∀ finding ∈ findings, Exact chunk finding := by
  rw [chunkFindings]
  cases part : Text.slice source key.chunkStart key.chunkEnd with
  | none => exact ⟨sound, nofun⟩
  | some chunk =>
      cases cached : cache key with
      | some findings =>
          refine ⟨sound, ?_⟩
          rintro _ ⟨⟩
          exact ⟨chunk, rfl, sound key _ _ cached part⟩
      | none =>
          dsimp only
          cases done : completeFindingsWithRetry parseJson (answers key) chunk maxParseRetries with
          | error code => exact ⟨sound, nofun⟩
          | ok findings =>
              have exact := completeFindingsWithRetry_exact done
              refine ⟨?_, ?_⟩
              · intro other stored otherChunk found otherPart
                dsimp only at found
                rw [ChunkCache.save] at found
                split_ifs at found with same
                · cases found
                  subst same
                  obtain rfl : chunk = otherChunk :=
                    Option.some.inj (part.symm.trans otherPart)
                  exact exact
                · exact sound other _ _ found otherPart
              · rintro _ ⟨⟩
                exact ⟨chunk, rfl, exact⟩

/-- What a pass finds stands at its place in the text. -/
theorem passFindings_exact (parseJson : List Char → Option Json) (answers : Answers)
    (keys : List ChunkKey) (sound : Sound source cache)
    (exact : ∀ finding ∈ found, Exact source finding) :
    Sound source (passFindings parseJson source answers keys found cache).1 ∧
      ∀ {result}, (passFindings parseJson source answers keys found cache).2 = .ok result →
        ∀ finding ∈ result, Exact source finding := by
  induction keys generalizing found cache with
  | nil =>
      refine ⟨sound, ?_⟩
      rintro _ ⟨⟩
      exact exact
  | cons key rest inductionHypothesis =>
      have chunked := chunkFindings_exact parseJson answers key sound
      rw [passFindings]
      split
      · next code done =>
          rw [done] at chunked
          exact ⟨chunked.1, nofun⟩
      · next kept findings done =>
          rw [done] at chunked
          obtain ⟨chunk, part, inChunk⟩ := chunked.2 rfl
          split
          · exact ⟨chunked.1, nofun⟩
          · next adjusted moved =>
              split_ifs
              · exact ⟨chunked.1, nofun⟩
              · refine inductionHypothesis chunked.1 fun finding member => ?_
                obtain before | inAdjusted := List.mem_append.mp member
                · exact exact finding before
                · obtain ⟨original, inFindings, same⟩ :=
                    exists_of_forall₂_right (mapM_eq_ok moved) inAdjusted
                  obtain ⟨other, adjustedTo, placed⟩ :=
                    adjustFinding_exact part (inChunk original inFindings)
                  obtain rfl : other = finding := Except.ok.inj (adjustedTo.symm.trans same)
                  exact placed

/-- What a pass over all chunks finds stands at its place in the text. -/
theorem pass_exact (parseJson : List Char → Option Json) (answers : Answers)
    (keys : List ChunkKey) (sound : Sound source cache) :
    Sound source (passFindings parseJson source answers keys [] cache).1 ∧
      ∀ {result}, (passFindings parseJson source answers keys [] cache).2 = .ok result →
        ∀ finding ∈ result, Exact source finding :=
  passFindings_exact parseJson answers keys sound (by simp)

end Exactness

/-! ## Agreement with the analysis -/

section Agreement

variable {parseJson : List Char → Option Json} {source : Text} {cache : ChunkCache}
  {attempt : Attempt} {primary omissions : List AiFinding}

/-- The findings of both passes are within the bounds of the analysis. -/
def Bounded (primary omissions : List AiFinding) : Prop :=
  distinctFindings (primary ++ omissions) ≤ maxAiFindings ∧ Short (primary ++ omissions)

/-- Both passes of an attempt. -/
theorem acceptedFindings_eq_ok
    (accepted : (acceptedFindings parseJson source cache attempt).2 = .ok (primary, omissions)) :
    ∃ middle final,
      passFindings parseJson source attempt.answers attempt.located [] cache =
        (middle, .ok primary) ∧
      passFindings parseJson source attempt.answers
        (attempt.checked (mergeFindings primary [])) [] middle = (final, .ok omissions) := by
  rw [acceptedFindings] at accepted
  split at accepted
  · cases accepted
  · next middle first located =>
      split at accepted
      · cases accepted
      · next final second checked =>
          cases accepted
          exact ⟨middle, final, located, checked⟩

/-- An attempt whose passes accept their findings ends with the verdicts of the analysis. -/
theorem redactWithAi_eq {middle final : ChunkCache}
    (located : passFindings parseJson source attempt.answers attempt.located [] cache =
      (middle, .ok primary))
    (checked : passFindings parseJson source attempt.answers
      (attempt.checked (mergeFindings primary [])) [] middle = (final, .ok omissions)) :
    redactWithAi parseJson source cache attempt =
      match validateAiInputs source (mergeFindings primary []) with
      | .error error => (middle, .error error.code)
      | .ok _ =>
          match validateAiInputs source (mergeFindings (mergeFindings primary []) omissions) with
          | .error error => (final, .error error.code)
          | .ok _ => (final, .ok (mergeFindings (mergeFindings primary []) omissions)) := by
  rw [redactWithAi, located]
  dsimp only
  cases validateAiInputs source (mergeFindings primary []) with
  | error error => rfl
  | ok _ =>
      dsimp only
      rw [checked]

/-- A redaction keeps a cache sound. -/
theorem redactWithAi_sound (sound : Sound source cache) :
    Sound source (redactWithAi parseJson source cache attempt).1 := by
  have located := (pass_exact parseJson attempt.answers attempt.located sound).1
  rw [redactWithAi]
  split
  · next first => exact (congrArg Prod.fst first ▸ located)
  · next middle primary first =>
      rw [first] at located
      dsimp only
      split
      · exact located
      · have checked := (pass_exact parseJson attempt.answers
          (attempt.checked (mergeFindings primary [])) located).1
        split
        · next second =>
            rw [second] at checked
            exact checked
        · next second =>
            rw [second] at checked
            split <;> exact checked

/-- What is within the bounds is admitted after each pass. -/
theorem validate_of_bounded (plain : '\x00' ∉ source)
    (exactPrimary : ∀ finding ∈ primary, Exact source finding)
    (exactOmissions : ∀ finding ∈ omissions, Exact source finding) :
    (Bounded primary omissions → validateAiInputs source (mergeFindings primary []) = .ok ()) ∧
      (validateAiInputs source (mergeFindings (mergeFindings primary []) omissions) = .ok () ↔
        Bounded primary omissions) := by
  have exactMerged : ∀ finding ∈ mergeFindings primary [], Exact source finding :=
    fun finding member => exactPrimary finding (by simpa using mem_of_mem_keepUnseen member)
  have exactBoth : ∀ finding ∈ mergeFindings (mergeFindings primary []) omissions,
      Exact source finding := by
    intro finding member
    obtain first | second := List.mem_append.mp (mem_of_mem_keepUnseen member)
    · exact exactMerged finding first
    · exact exactOmissions finding second
  rw [validateAiInputs_iff plain exactMerged, validateAiInputs_iff plain exactBoth,
    length_mergeFindings, length_mergeFindings, distinctFindings_merged]
  have short : Short (mergeFindings (mergeFindings primary []) omissions) ↔
      Short (primary ++ omissions) := by
    rw [short_mergeFindings, Short, List.forall_mem_append, ← Short, ← Short, short_mergeFindings,
      List.append_nil, Short, Short, ← List.forall_mem_append, ← Short]
  refine ⟨fun bounded => ⟨?_, ?_⟩, and_congr_right fun _ => short⟩
  · refine (Finset.card_le_card ?_).trans bounded.1
    intro key member
    rw [List.mem_toFinset, List.append_nil] at member
    rw [List.mem_toFinset, List.map_append]
    exact List.mem_append_left _ member
  · refine short_mergeFindings.mpr fun finding member => bounded.2 finding ?_
    rw [List.append_nil] at member
    exact List.mem_append_left _ member

/-- When both passes of an attempt accept their findings, the analysis admits them exactly when
they are within its bounds. -/
theorem redactWithAi_iff (plain : '\x00' ∉ source) (sound : Sound source cache)
    (accepted : (acceptedFindings parseJson source cache attempt).2 = .ok (primary, omissions)) :
    (redactWithAi parseJson source cache attempt).2 =
        .ok (mergeFindings (mergeFindings primary []) omissions) ↔
      Bounded primary omissions := by
  obtain ⟨middle, final, located, checked⟩ := acceptedFindings_eq_ok accepted
  have first := pass_exact parseJson attempt.answers attempt.located sound
  rw [located] at first
  have second := pass_exact parseJson attempt.answers
    (attempt.checked (mergeFindings primary [])) first.1
  rw [checked] at second
  obtain ⟨afterFirst, afterBoth⟩ := validate_of_bounded plain (first.2 rfl) (second.2 rfl)
  rw [redactWithAi_eq located checked]
  cases admitted : validateAiInputs source (mergeFindings primary []) with
  | error error =>
      refine iff_of_false nofun fun bounded => ?_
      rw [afterFirst bounded] at admitted
      cases admitted
  | ok _ =>
      dsimp only
      rw [← afterBoth]
      cases validateAiInputs source (mergeFindings (mergeFindings primary []) omissions) with
      | error error => exact iff_of_false nofun nofun
      | ok _ => exact iff_of_true rfl rfl

/-- In every sequence of attempts to redact a text, findings which both passes accept are admitted
by the analysis exactly when no text of a finding exceeds its bound and both passes together have
at most as many different findings as it takes. -/
theorem accepted_findings_are_admitted_iff (plain : '\x00' ∉ source) (attempts : List Attempt) :
    (redactions parseJson source).Along (fun cache attempt _ => ∀ primary omissions,
      (acceptedFindings parseJson source cache attempt).2 = .ok (primary, omissions) →
        ((redactWithAi parseJson source cache attempt).2 =
            .ok (mergeFindings (mergeFindings primary []) omissions) ↔
          Bounded primary omissions)) (fun _ => none) attempts := by
  have start : Sound source fun _ => none := nofun
  refine Machine.along_of_step ?_ attempts start
  rintro cache attempt _ sound ⟨⟩
  exact ⟨redactWithAi_sound sound, fun primary omissions => redactWithAi_iff plain sound⟩

end Agreement

/-! ## Retries -/

section Retries

variable {parseJson : List Char → Option Json} {source : Text} {answers : Answers}
  {cache after later : ChunkCache} {attempt : Attempt} {primary omissions : List AiFinding}

/-- A cache which still has the chunks of another one. -/
def Extends (cache later : ChunkCache) : Prop :=
  ∀ key findings, cache key = some findings → later key = some findings

/-- A chunk which was found is answered by every later cache. -/
theorem chunkFindings_cases (key : ChunkKey) :
    Extends cache (chunkFindings parseJson source answers cache key).1 ∧
      ∀ {findings}, (chunkFindings parseJson source answers cache key).2 = .ok findings →
        ∀ later answers', Extends (chunkFindings parseJson source answers cache key).1 later →
          chunkFindings parseJson source answers' later key = (later, .ok findings) := by
  rw [chunkFindings]
  cases part : Text.slice source key.chunkStart key.chunkEnd with
  | none => exact ⟨fun _ _ cached => cached, nofun⟩
  | some chunk =>
      cases cached : cache key with
      | some findings =>
          refine ⟨fun _ _ cached => cached, ?_⟩
          rintro _ ⟨⟩ later answers' kept
          rw [chunkFindings, part]
          dsimp only
          rw [kept key findings cached]
      | none =>
          dsimp only
          cases completeFindingsWithRetry parseJson (answers key) chunk maxParseRetries with
          | error code => exact ⟨fun _ _ cached => cached, nofun⟩
          | ok findings =>
              refine ⟨fun other stored inCache => ?_, ?_⟩
              · dsimp only
                rw [ChunkCache.save, if_neg, inCache]
                rintro rfl
                rw [cached] at inCache
                cases inCache
              · rintro _ ⟨⟩ later answers' kept
                rw [chunkFindings, part]
                dsimp only
                rw [kept key findings (by simp [ChunkCache.save])]

/-- A pass which was complete is answered by every later cache, whatever the model says. -/
theorem passFindings_again {keys : List ChunkKey} {found result : List AiFinding}
    (done : passFindings parseJson source answers keys found cache = (after, .ok result)) :
    Extends cache after ∧ ∀ later answers', Extends after later →
      passFindings parseJson source answers' keys found later = (later, .ok result) := by
  induction keys generalizing found cache with
  | nil =>
      cases done
      exact ⟨fun _ _ cached => cached, fun _ _ _ => rfl⟩
  | cons key rest inductionHypothesis =>
      have chunked : Extends cache (chunkFindings parseJson source answers cache key).1 ∧ _ :=
        chunkFindings_cases key
      rw [passFindings] at done
      split at done
      · cases done
      · next kept findings first =>
          rw [first] at chunked
          split at done
          · cases done
          · next adjusted moved =>
              split_ifs at done with exceeded
              · cases done
              · obtain ⟨keeps, again⟩ := inductionHypothesis done
                refine ⟨fun other stored cached => keeps other stored (chunked.1 other stored cached),
                  fun later answers' kept => ?_⟩
                have answered := chunked.2 rfl later answers' fun other stored cached =>
                  kept other stored (keeps other stored cached)
                rw [passFindings, answered]
                dsimp only
                rw [moved]
                dsimp only
                rw [if_neg exceeded]
                exact again later answers' kept

/-- An attempt whose chunks are all cached, but whose findings the analysis does not admit, is
refused again at every retry, whatever the model answers. -/
theorem redactWithAi_again
    (accepted : (acceptedFindings parseJson source cache attempt).2 = .ok (primary, omissions))
    (answers' : Answers) :
    (redactWithAi parseJson source (redactWithAi parseJson source cache attempt).1
      { attempt with answers := answers' }).2 = (redactWithAi parseJson source cache attempt).2 := by
  obtain ⟨middle, final, located, checked⟩ := acceptedFindings_eq_ok accepted
  obtain ⟨_, firstAgain⟩ := passFindings_again located
  obtain ⟨grows, secondAgain⟩ := passFindings_again checked
  have unchanged (later : ChunkCache) : Extends later later := fun _ _ cached => cached
  cases admitted : validateAiInputs source (mergeFindings primary []) with
  | error error =>
      have first : redactWithAi parseJson source cache attempt = (middle, .error error.code) := by
        rw [redactWithAi_eq located checked, admitted]
      rw [first, redactWithAi, firstAgain middle answers' (unchanged middle)]
      dsimp only
      rw [admitted]
  | ok _ =>
      have first : (redactWithAi parseJson source cache attempt).1 = final := by
        rw [redactWithAi_eq located checked, admitted]
        dsimp only
        split <;> rfl
      have again : redactWithAi parseJson source final { attempt with answers := answers' } = _ :=
        redactWithAi_eq (firstAgain final answers' grows) (secondAgain final answers' (unchanged final))
      rw [first, again, redactWithAi_eq located checked, admitted]

end Retries

/-! ## A text which is one finding -/

section WholeText

/-- An answer which lists the whole text. -/
def wholeText (source : Text) : Json :=
  .object [("findings", .array [.object [("text", .string (String.ofList source)),
    ("kind", .string "custom")]])]

/-- The answer as the model writes it, for a text of letters. -/
def wholeResponse (source : Text) : List Char :=
  '\x7b' :: ("\"findings\":[\x7b\"text\":\"".toList ++ source ++
    "\",\"kind\":\"custom\"\x7d]".toList) ++ ['\x7d']

/-- The parser, on this answer. -/
def wholeJson (source : Text) (text : List Char) : Option Json :=
  if text = wholeResponse source then some (wholeText source) else none

/-- The chunk of the first pass. -/
def locateKey (source : Text) : ChunkKey :=
  ⟨"locate", "primary", 0, Text.byteLength source, "local-hints:0"⟩

/-- The chunk of the omission pass. -/
def omissionKey (source : Text) : ChunkKey :=
  ⟨"omission", "check", 0, Text.byteLength source, "[]"⟩

/-- One chunk for each pass. -/
def wholeAttempt (source : Text) : Attempt where
  located := [locateKey source]
  checked _ := [omissionKey source]
  answers _ _ := .ok (.string (String.ofList (wholeResponse source)))

/-- The finding which is the whole text. -/
def wholeFinding (source : Text) : AiFinding :=
  ⟨source, "custom", 0, Text.byteLength source, none⟩

variable {source : Text}

/-- A text occurs once in itself. -/
theorem matchSpans_self (nonempty : source ≠ []) :
    matchSpans source source = [(0, Text.byteLength source)] := by
  have whole : Text.splitFirst source source = some ([], []) := by
    cases source with
    | nil => exact absurd rfl nonempty
    | cons character rest => simp [Text.splitFirst]
  rw [matchSpans, Text.matchIndices_eq nonempty, whole]
  simp [Text.matchIndices, nonempty]

/-- The parser accepts the finding. -/
theorem parseFinding_whole (nonempty : source ≠ []) :
    parseFinding source (.object [("text", .string (String.ofList source)),
      ("kind", .string "custom")]) = .ok (wholeFinding source) := by
  have spelled : String.ofList source ≠ "" := fun empty =>
    nonempty (by simpa using congrArg String.toList empty)
  have place : Text.slice source 0 (Text.byteLength source) = some source :=
    Text.slice_eq_some.mpr ⟨[], [], by simp, rfl, by simp⟩
  have boundaries := Text.isCharBoundary_of_slice place
  have positive := (Text.byteLength_pos nonempty).ne'
  have unique : uniqueOccurrenceSpanWithContext source source none none =
      some (0, Text.byteLength source) := by
    rw [uniqueOccurrenceSpanWithContext, matchSpans_self nonempty]
    rfl
  have allowed : allowedAiKind "custom" = true := by decide
  simp [parseFinding, Option.filter, Json.get?, Json.asStr, Json.isObject, List.lookup_cons, spelled,
    allowed, optionalContext, optionalNumber, suppliedRange, unique, refuseIf, presentOr, place,
    boundaries, positive, contextMatches, wholeFinding, bind, Except.bind, pure, Except.pure]

/-- The answer is accepted for a text of letters which is not too long. -/
theorem parseFindingsResponse_whole (nonempty : source ≠ []) (plain : '\x00' ∉ source)
    (small : Text.byteLength source ≤ 1024 * 1024) :
    parseFindingsResponse (wholeJson source) (.string (String.ofList (wholeResponse source)))
      source = .ok [wholeFinding source] := by
  have unfenced : withoutFence (wholeResponse source) = wholeResponse source := by
    have trimmed : Text.trim (wholeResponse source) = wholeResponse source :=
      Text.trimMatches_between _ (by decide) (by decide)
    rw [withoutFence, trimmed]
    rfl
  have clean : '\x00' ∉ wholeResponse source := by
    simp [wholeResponse, plain]
  have bounded : Text.byteLength (wholeResponse source) ≤ maxModelResponseBytes := by
    have front : Text.byteLength ('\x7b' :: "\"findings\":[\x7b\"text\":\"".toList) ≤ 100 := by
      decide
    have back : Text.byteLength ("\",\"kind\":\"custom\"\x7d]".toList ++ ['\x7d']) ≤ 100 := by
      decide
    rw [wholeResponse, ← List.cons_append, ← List.cons_append, List.append_assoc, List.append_assoc,
      Text.byteLength_append, Text.byteLength_append, maxModelResponseBytes]
    omega
  refine bind_eq_ok.mpr ⟨wholeResponse source, ?_, refuseIf_bind_eq_ok.mpr
    ⟨not_or.mpr ⟨Nat.not_lt.mpr bounded, clean⟩, bind_eq_ok.mpr ⟨wholeText source, ?_,
      bind_eq_ok.mpr ⟨_, rfl, refuseIf_bind_eq_ok.mpr ⟨by simp [maxFindings], ?_⟩⟩⟩⟩⟩
  · simp [messageText, Json.get?, Json.asStr, presentOr]
  · rw [unfenced, wholeJson, if_pos rfl]
    rfl
  · rw [List.mapM_cons, parseFinding_whole nonempty]
    rfl

/-- Both passes accept the finding, each for its chunk. -/
theorem acceptedFindings_whole (nonempty : source ≠ []) (plain : '\x00' ∉ source)
    (small : Text.byteLength source ≤ 1024 * 1024) :
    (acceptedFindings (wholeJson source) source (fun _ => none) (wholeAttempt source)).2 =
      .ok ([wholeFinding source], [wholeFinding source]) := by
  have place : Text.slice source 0 (Text.byteLength source) = some source :=
    Text.slice_eq_some.mpr ⟨[], [], by simp, rfl, by simp⟩
  have asked : completeFindingsWithRetry (wholeJson source)
      (fun _ => .ok (.string (String.ofList (wholeResponse source)))) source maxParseRetries =
        .ok [wholeFinding source] := by
    rw [maxParseRetries, completeFindingsWithRetry]
    refine bind_eq_ok.mpr ⟨_, rfl, ?_⟩
    rw [parseFindingsResponse_whole nonempty plain small]
    rfl
  have adjusted : adjustFinding source 0 (wholeFinding source) = .ok (wholeFinding source) :=
    refuseIf_bind_eq_ok.mpr
      ⟨by simp [wholeFinding, place, (Text.byteLength_pos nonempty).ne'], rfl⟩
  have pass (cache : ChunkCache) (key : ChunkKey) (whole : key.chunkStart = 0 ∧
      key.chunkEnd = Text.byteLength source) (fresh : cache key = none) :
      passFindings (wholeJson source) source (wholeAttempt source).answers [key] [] cache =
        (cache.save key [wholeFinding source], .ok [wholeFinding source]) := by
    have chunk : chunkFindings (wholeJson source) source (wholeAttempt source).answers cache key =
        (cache.save key [wholeFinding source], .ok [wholeFinding source]) := by
      rw [chunkFindings, whole.1, whole.2, place]
      dsimp only [wholeAttempt]
      rw [fresh]
      dsimp only
      rw [asked]
    rw [passFindings, chunk]
    dsimp only
    rw [whole.1, List.mapM_cons, adjusted]
    rfl
  have located := pass (fun _ => none) (locateKey source) ⟨rfl, rfl⟩ rfl
  have other : omissionKey source ≠ locateKey source := by simp [omissionKey, locateKey]
  have checked := pass (ChunkCache.save (fun _ => none) (locateKey source) [wholeFinding source])
    (omissionKey source) ⟨rfl, rfl⟩ (by simp [ChunkCache.save, other])
  have firstChunks : (wholeAttempt source).located = [locateKey source] := rfl
  have secondChunks (primary : List AiFinding) :
      (wholeAttempt source).checked primary = [omissionKey source] := rfl
  rw [acceptedFindings, firstChunks, located]
  dsimp only
  rw [secondChunks, checked]

/-- A text of one letter which is one finding is admitted at the first attempt. -/
theorem accepted_findings_are_admitted_iff_for_letter :
    (redactWithAi (wholeJson ['a']) ['a'] (fun _ => none) (wholeAttempt ['a'])).2 =
      .ok (mergeFindings (mergeFindings [wholeFinding ['a']] []) [wholeFinding ['a']]) := by
  have plain : '\x00' ∉ ['a'] := by decide
  have along : (redactions (wholeJson ['a']) ['a']).Along _ _ _ :=
    accepted_findings_are_admitted_iff plain [wholeAttempt ['a']]
  have accepted := acceptedFindings_whole (List.cons_ne_nil 'a' []) plain (by decide)
  exact ((along _ rfl).1 _ _ accepted).mpr ⟨by decide, by decide⟩

/-- The analysis does not admit a finding of more than its bound, so the text is refused, and at
every attempt after the first one, whatever the model answers. -/
theorem long_finding_is_refused_again :
    let source := List.replicate 16385 'a'
    let first := redactWithAi (wholeJson source) source (fun _ => none) (wholeAttempt source)
    '\x00' ∉ source ∧
      (acceptedFindings (wholeJson source) source (fun _ => none) (wholeAttempt source)).2 =
        .ok ([wholeFinding source], [wholeFinding source]) ∧
      first.2 ≠ .ok (mergeFindings (mergeFindings [wholeFinding source] []) [wholeFinding source]) ∧
      ∀ answers', (redactWithAi (wholeJson source) source first.1
        { wholeAttempt source with answers := answers' }).2 = first.2 := by
  intro source first
  have length : Text.byteLength source = 16385 * Char.utf8Size 'a' :=
    Text.byteLength_replicate 16385 'a'
  have letter : Char.utf8Size 'a' = 1 := rfl
  rw [letter] at length
  have plain : '\x00' ∉ source := fun member => by
    have same := List.eq_of_mem_replicate member
    revert same
    decide
  clear_value source
  have nonempty : source ≠ [] := by
    rintro rfl
    cases length
  have accepted := acceptedFindings_whole nonempty plain (by omega)
  have sound : Sound source fun _ => none := nofun
  refine ⟨plain, accepted, fun admitted => ?_, redactWithAi_again accepted⟩
  obtain ⟨_, short⟩ := (redactWithAi_iff plain sound accepted).mp admitted
  have within := short (wholeFinding source) (by simp)
  rw [show (wholeFinding source).text = source from rfl, length] at within
  revert within
  decide

end WholeText

end LawyerAssistance.Redaction
