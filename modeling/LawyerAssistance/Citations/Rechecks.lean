import LawyerAssistance.Citations.Passed
import LawyerAssistance.Std.Machine

/-!
# Re-checks of one revision

A re-check compares the text which it reads with the hash in the evidence of the check before it.
The checks of one revision all visit the same sources, so a source which was read once is either
remembered by the latest check, or that check failed to read it. In the second case the hash is
gone, and a changed text counts as seen for the first time.
-/

namespace LawyerAssistance.Citations

/-! ## Histories -/

/-- The evidence which a run carries. -/
def CitedRun.sources (run : CitedRun) : List AiCitationSourceEvidence :=
  (run.citationVerification.map fun verification => verification.sources).getD []

/-- The hash of a source in the evidence of a check. -/
def hashIn (key : String) (check : List AiCitationSourceEvidence) : Option String :=
  (previousSourceHashes check).get key

/-- The hash of the latest check, newest first, which read a source. -/
def lastRead (key : String) : List (List AiCitationSourceEvidence) → Option String
  | [] => none
  | check :: older => (hashIn key check).or (lastRead key older)

/-- Some check behind the latest one which read a source failed to read it. -/
def failedSince (key : String) : List (List AiCitationSourceEvidence) → Bool
  | [] => false
  | check :: older =>
      match hashIn key check with
      | some _ => false
      | none =>
          check.any (fun evidence => evidence.key = key && evidence.fullTextRead ≠ .passed) ||
            failedSince key older

/-- A run, and the evidence of its checks, the newest first. The oldest is the evidence which the
run carried at the start. No operation reads the history. -/
structure World where
  run : CitedRun
  checks : List (List AiCitationSourceEvidence)

/-- A request for a re-check, with the answers of the databases. -/
structure Event where
  services : CheckServices
  now : Nat
  expectedRevision : Nat

section Histories

variable (answerCitations : String → Option (List CitationValue)) (hash : String → String)

/-- The start of a history. -/
def World.initial (run : CitedRun) : World := ⟨run, [run.sources]⟩

/-- The answer to a re-check. -/
def World.rechecked (world : World) (event : Event) : Except String CitedRun :=
  recheckAiCitations answerCitations hash event.services event.now world.run
    event.expectedRevision

/-- The world after a re-check. One which fails changes nothing. -/
def World.next (world : World) (event : Event) : World :=
  match world.rechecked answerCitations hash event with
  | .error _ => world
  | .ok run => ⟨run, run.sources :: world.checks⟩

/-- The re-checks of a run as a machine. -/
def rechecks : Machine World Event where
  step world event := some (world.next answerCitations hash event)

end Histories

/-- A check reports the text of a source as changed and does not pass. -/
def ReportsChange (run : CitedRun) (evidence : AiCitationSourceEvidence) : Prop :=
  evidence.sourceContent = .changed ∧
    ∀ verification, run.citationVerification = some verification → verification.state ≠ .passed

/-! ## Remembered hashes -/

section Remembering

variable {key : String} {sources : List AiCitationSourceEvidence}

theorem get_rememberHash_other {hashes : Table String} {evidence : AiCitationSourceEvidence}
    (other : evidence.key ≠ key) : (rememberHash hashes evidence).get key = hashes.get key := by
  rw [rememberHash]
  cases evidence.sourceFullTextSha256 with
  | none => rfl
  | some hash => exact Table.get_put_other _ _ other.symm

/-- Evidence of a source which was not remembered gives its hash. -/
theorem get_rememberHash {hashes : Table String} {evidence : AiCitationSourceEvidence}
    (unknown : hashes.get evidence.key = none) :
    (rememberHash hashes evidence).get evidence.key = evidence.sourceFullTextSha256 := by
  rw [rememberHash]
  cases evidence.sourceFullTextSha256 with
  | none => exact unknown
  | some hash => exact Table.get_put_self _ _ _

/-- A check remembers nothing of a source which it does not visit. -/
theorem get_foldl_rememberHash_other {hashes : Table String}
    (absent : ∀ evidence ∈ sources, evidence.key ≠ key) :
    (sources.foldl rememberHash hashes).get key = hashes.get key := by
  induction sources generalizing hashes with
  | nil => rfl
  | cons evidence rest inductionHypothesis =>
      rw [List.forall_mem_cons] at absent
      rw [List.foldl_cons, inductionHypothesis absent.2, get_rememberHash_other absent.1]

/-- A check which visits every source once remembers the hash of its evidence. -/
theorem get_foldl_rememberHash {hashes : Table String}
    (distinct : (sources.map AiCitationSourceEvidence.key).Nodup)
    {evidence : AiCitationSourceEvidence} (member : evidence ∈ sources)
    (unknown : hashes.get evidence.key = none) :
    (sources.foldl rememberHash hashes).get evidence.key = evidence.sourceFullTextSha256 := by
  induction sources generalizing hashes with
  | nil => cases member
  | cons head rest inductionHypothesis =>
      rw [List.map_cons, List.nodup_cons] at distinct
      rw [List.foldl_cons]
      obtain rfl | inRest := List.mem_cons.mp member
      · rw [get_foldl_rememberHash_other, get_rememberHash unknown]
        exact fun other inRest same => distinct.1 (same ▸ List.mem_map_of_mem inRest)
      · refine inductionHypothesis distinct.2 inRest ?_
        rw [get_rememberHash_other, unknown]
        exact fun same => distinct.1 (same ▸ List.mem_map_of_mem inRest)

/-- The hash which a check remembers of a source is the one in its evidence. -/
theorem hashIn_of_mem (distinct : (sources.map AiCitationSourceEvidence.key).Nodup)
    {evidence : AiCitationSourceEvidence} (member : evidence ∈ sources) :
    hashIn evidence.key sources = evidence.sourceFullTextSha256 :=
  get_foldl_rememberHash distinct member rfl

end Remembering

/-! ## The evidence of one source -/

section Evidence

variable {hash : String → String} {services : CheckServices} {caseDate : Option String}
  {previousHashes : Table String} {input : CitationInput} {citation : CitationValue}
  {evidence : AiCitationSourceEvidence}

/-- The evidence of a source has its key, and says whether the source was read: then its text was
compared with the remembered hash. The citation names the same source. -/
theorem checkSource_evidence (checked : checkSource hash services caseDate previousHashes true
    input = .ok (citation, evidence)) :
    evidence.key = input.key ∧
      (∀ {read}, evidence.sourceFullTextSha256 = some read →
        evidence.sourceContent = contentState (previousHashes.get input.key) read) ∧
      (evidence.sourceFullTextSha256 = none → evidence.fullTextRead ≠ .passed) ∧
      citation.kind = some input.kind ∧
      (if input.kind = "case" then citation.caseId else citation.articleId) = some input.id := by
  obtain ⟨kind, resolved⟩ | ⟨kind, resolved⟩ | ⟨rfl, missing | unavailable⟩ :=
    checkSource_cases checked
  · obtain ⟨article, found, resolved⟩ := bind_eq_ok.mp resolved
    cases resolved
    have named := services.articleNamed (mapError_eq_ok found)
    refine ⟨?_, fun same => ?_, nofun, ?_, ?_⟩
    · rw [AiCitationSourceEvidence.key, CitationInput.key, kind, named]
    · cases same
      rfl
    · rw [kind]
    · rw [kind, if_neg (by decide), named]
  · obtain ⟨judicial, found, resolved⟩ := bind_eq_ok.mp resolved
    cases resolved
    have named := services.caseNamed (mapError_eq_ok found)
    refine ⟨?_, fun same => ?_, nofun, ?_, ?_⟩
    · rw [AiCitationSourceEvidence.key, CitationInput.key, kind, named]
    · cases same
      rfl
    · rw [kind]
    · rw [kind, if_pos rfl, named]
  · rw [missing]
    refine ⟨rfl, nofun, nofun, ?_, ?_⟩ <;> rw [fallbackCitation] <;> split_ifs <;> rfl
  · rw [unavailable]
    refine ⟨rfl, nofun, nofun, ?_, ?_⟩ <;> rw [fallbackCitation] <;> split_ifs <;> rfl

end Evidence

/-! ## The sources of a run -/

section Sources

variable {source : CitationValue → Except String (String × String)} {quoteLimited : Bool}
  {seen : List String} {values : List CitationValue} {inputs : List CitationInput}

/-- The sources which are collected are those of the list, each one once. -/
theorem collectInputs_keys (collected : collectInputs source quoteLimited seen values = .ok inputs) :
    (inputs.map CitationInput.key).Nodup ∧ (∀ input ∈ inputs, input.key ∉ seen) ∧
      ∀ input ∈ inputs, ∃ value ∈ values, source value = .ok (input.kind, input.id) := by
  induction values generalizing seen inputs with
  | nil =>
      cases collected
      simp
  | cons value rest inductionHypothesis =>
      obtain ⟨kind, id, named, collected | ⟨input, others, unseen, cited, collectedRest, rfl⟩⟩ :=
        collectInputs_cons_eq_ok collected
      · obtain ⟨once, fresh, listed⟩ := inductionHypothesis collected
        refine ⟨once, fresh, fun input member => ?_⟩
        obtain ⟨other, inRest, same⟩ := listed input member
        exact ⟨other, List.mem_cons_of_mem _ inRest, same⟩
      · obtain ⟨once, fresh, listed⟩ := inductionHypothesis collectedRest
        obtain ⟨rfl, rfl, _⟩ := citedInput_eq_ok cited
        refine ⟨?_, ?_, ?_⟩
        · rw [List.map_cons, List.nodup_cons]
          refine ⟨fun again => ?_, once⟩
          obtain ⟨other, member, same⟩ := List.mem_map.mp again
          exact fresh other member (same ▸ List.mem_cons_self)
        · exact List.forall_mem_cons.mpr ⟨unseen, fun other member inSeen =>
            fresh other member (List.mem_cons_of_mem _ inSeen)⟩
        · refine List.forall_mem_cons.mpr ⟨⟨value, List.mem_cons_self, named⟩, fun other member => ?_⟩
          obtain ⟨value, inRest, same⟩ := listed other member
          exact ⟨value, List.mem_cons_of_mem _ inRest, same⟩

theorem exists_citedInput (kind id : String) (value : CitationValue) :
    ∃ input, citedInput false kind id value = .ok input ∧ input.key = sourceKey kind id :=
  ⟨_, refuseIf_bind_eq_ok.mpr ⟨by simp, rfl⟩, rfl⟩

/-- Citations which name the sources of a list are collected to the same sources. -/
theorem collectInputs_again {citations : List CitationValue}
    (named : List.Forall₂ (fun input citation =>
      shownSource citation = .ok (input.kind, input.id)) inputs citations)
    (once : (inputs.map CitationInput.key).Nodup) (fresh : ∀ input ∈ inputs, input.key ∉ seen) :
    ∃ again, collectInputs shownSource false seen citations = .ok again ∧
      again.map CitationInput.key = inputs.map CitationInput.key := by
  induction named generalizing seen with
  | nil => exact ⟨[], rfl, rfl⟩
  | @cons input citation inputs citations here _ inductionHypothesis =>
      rw [List.map_cons, List.nodup_cons] at once
      rw [List.forall_mem_cons] at fresh
      have freshRest : ∀ other ∈ inputs, other.key ∉ input.key :: seen := by
        intro other member inSeen
        obtain same | inSeen := List.mem_cons.mp inSeen
        · exact once.1 (same ▸ List.mem_map_of_mem member)
        · exact fresh.2 other member inSeen
      obtain ⟨again, collected, same⟩ := inductionHypothesis once.2 freshRest
      have unseen : sourceKey input.kind input.id ∉ seen := fresh.1
      obtain ⟨checked, cited, key⟩ := exists_citedInput input.kind input.id citation
      refine ⟨checked :: again, bind_eq_ok.mpr ⟨_, here, ?_⟩, ?_⟩
      · dsimp only
        rw [if_neg unseen]
        exact bind_eq_ok.mpr ⟨checked, cited, bind_eq_ok.mpr ⟨again, collected, rfl⟩⟩
      · rw [List.map_cons, List.map_cons, same, key]
        rfl

end Sources

/-! ## One re-check -/

section Rechecking

variable {answerCitations : String → Option (List CitationValue)} {hash : String → String}
  {run checked : CitedRun} {services : CheckServices} {now expectedRevision : Nat}
  {inputs : List CitationInput}

theorem answeredInputs_congr {other : CitedRun} (same : other.allowedSources = run.allowedSources)
    (messages : List String) :
    answeredInputs answerCitations other messages = answeredInputs answerCitations run messages := by
  induction messages with
  | nil => rfl
  | cons message older inductionHypothesis =>
      simp only [answeredInputs, finalCitationInputs, same, inductionHypothesis]

/-- The sources of a run are collected from an answer or from its citations. -/
theorem persistedCitationInputs_eq_ok
    (persisted : persistedCitationInputs answerCitations run = .ok inputs) :
    (answeredInputs answerCitations run run.messages.reverse = .ok inputs ∧ inputs ≠ []) ∨
      (answeredInputs answerCitations run run.messages.reverse = .ok [] ∧
        collectInputs shownSource false [] run.citations = .ok inputs) := by
  obtain ⟨answered, fromMessages, persisted⟩ := bind_eq_ok.mp persisted
  split_ifs at persisted with empty
  · exact .inr ⟨empty ▸ fromMessages, persisted⟩
  · cases persisted
    exact .inl ⟨fromMessages, empty⟩

/-- Each source of an answer is checked once. -/
theorem answeredInputs_once {messages : List String}
    (answered : answeredInputs answerCitations run messages = .ok inputs) :
    (inputs.map CitationInput.key).Nodup := by
  induction messages with
  | nil =>
      cases answered
      exact List.nodup_nil
  | cons message older inductionHypothesis =>
      rw [answeredInputs] at answered
      split at answered
      · exact inductionHypothesis answered
      · obtain ⟨found, collected, answered⟩ := bind_eq_ok.mp answered
        split_ifs at answered with empty
        · exact inductionHypothesis answered
        · cases answered
          exact (collectInputs_keys collected).1

theorem persistedCitationInputs_once
    (persisted : persistedCitationInputs answerCitations run = .ok inputs) :
    (inputs.map CitationInput.key).Nodup := by
  obtain ⟨answered, _⟩ | ⟨_, collected⟩ := persistedCitationInputs_eq_ok persisted
  · exact answeredInputs_once answered
  · exact (collectInputs_keys collected).1

/-- A re-check which succeeds keeps the run but for its citations and their evidence. -/
theorem recheckAiCitations_eq_ok
    (done : recheckAiCitations answerCitations hash services now run expectedRevision =
      .ok checked) :
    ∃ inputs result, persistedCitationInputs answerCitations run = .ok inputs ∧
      resolveCitationSources hash services inputs (hash run.content) run.revision run.caseDate
        (previousSourceHashes run.sources) true now = .ok result ∧
      checked.messages = run.messages ∧ checked.allowedSources = run.allowedSources ∧
      checked.citations = result.citations ∧
      checked.citationVerification = some result.verification := by
  obtain ⟨_, done⟩ := refuseIf_bind_eq_ok.mp done
  obtain ⟨_, done⟩ := refuseIf_bind_eq_ok.mp done
  obtain ⟨inputs, persisted, done⟩ := bind_eq_ok.mp done
  obtain ⟨_, _, done⟩ := bind_eq_ok.mp done
  obtain ⟨result, resolved, done⟩ := bind_eq_ok.mp done
  obtain ⟨_, _, done⟩ := bind_eq_ok.mp done
  cases done
  exact ⟨inputs, result, persisted, resolved, rfl, rfl, rfl, rfl⟩

/-- What a shown citation names. -/
theorem shownSource_eq_ok {value : CitationValue} {kind id : String} :
    shownSource value = .ok (kind, id) ↔
      value.kind = some kind ∧ isSourceKind kind = true ∧
        (if kind = "article" then value.articleId else value.caseId) = some id ∧
        id ≠ "" ∧ id.utf8ByteSize ≤ 200 := by
  simp only [shownSource, bind_eq_ok, presentOr_eq_ok, Option.filter_eq_some_iff,
    Bool.and_eq_true, decide_eq_true_eq]
  constructor
  · rintro ⟨found, ⟨named, valid⟩, other, ⟨identified, bounds⟩, same⟩
    cases same
    exact ⟨named, valid, identified, bounds⟩
  · rintro ⟨named, valid, identified, bounds⟩
    exact ⟨kind, ⟨named, valid⟩, id, ⟨identified, bounds⟩, rfl⟩

/-- The citations of a check name the sources which were checked. -/
theorem shownSource_of_checked {previousHashes : Table String} {caseDate : Option String}
    {input : CitationInput} {value : CitationValue}
    {result : CitationValue × AiCitationSourceEvidence}
    (named : shownSource value = .ok (input.kind, input.id))
    (found : checkSource hash services caseDate previousHashes true input = .ok result) :
    shownSource result.1 = .ok (input.kind, input.id) := by
  obtain ⟨_, valid, _, bounds⟩ := shownSource_eq_ok.mp named
  obtain ⟨_, _, _, kind, identified⟩ := checkSource_evidence found
  refine shownSource_eq_ok.mpr ⟨kind, valid, ?_, bounds⟩
  rw [← identified]
  simp only [isSourceKind, Bool.or_eq_true, decide_eq_true_eq] at valid
  obtain article | judicial := valid
  · rw [article, if_pos rfl, if_neg (by decide)]
  · rw [judicial, if_neg (by decide), if_pos rfl]

/-- The next re-check visits the same sources. -/
theorem persistedCitationInputs_again
    (done : recheckAiCitations answerCitations hash services now run expectedRevision =
      .ok checked)
    (persisted : persistedCitationInputs answerCitations run = .ok inputs) :
    ∃ again, persistedCitationInputs answerCitations checked = .ok again ∧
      again.map CitationInput.key = inputs.map CitationInput.key := by
  obtain ⟨others, result, persisted', resolved, messages, allowed, shown, _⟩ :=
    recheckAiCitations_eq_ok done
  obtain rfl : inputs = others := Except.ok.inj (persisted.symm.trans persisted')
  obtain ⟨results, each, citations, _⟩ := resolveCitationSources_eq_ok resolved
  have unchanged : answeredInputs answerCitations checked checked.messages.reverse =
      answeredInputs answerCitations run run.messages.reverse := by
    rw [messages]
    exact answeredInputs_congr allowed _
  obtain ⟨answered, nonempty⟩ | ⟨answered, collected⟩ := persistedCitationInputs_eq_ok persisted
  · refine ⟨inputs, bind_eq_ok.mpr ⟨inputs, unchanged.trans answered, ?_⟩, rfl⟩
    rw [if_neg nonempty]
    rfl
  · obtain ⟨once, _, listed⟩ := collectInputs_keys collected
    have named : List.Forall₂ (fun input citation =>
        shownSource citation = .ok (input.kind, input.id)) inputs (results.map Prod.fst) := by
      rw [List.forall₂_map_right_iff]
      refine ((List.forall₂_and_left _ _).mpr ⟨listed, each⟩).imp fun input result both => ?_
      obtain ⟨⟨value, _, named⟩, found⟩ := both
      exact shownSource_of_checked named found
    obtain ⟨again, collectedAgain, same⟩ :=
      collectInputs_again named once fun _ _ => List.not_mem_nil
    refine ⟨again, bind_eq_ok.mpr ⟨[], unchanged.trans answered, ?_⟩, same⟩
    rw [if_pos rfl, shown, citations]
    exact collectedAgain

end Rechecking

/-! ## Histories of re-checks -/

section Runs

variable {answerCitations : String → Option (List CitationValue)} {hash : String → String}
  {world : World} {event : Event}

/-- The newest evidence of a history is the one of the run. After a re-check it has an entry for
every source which the next one visits, and an entry without a hash is a failed read. -/
def World.Sound (answerCitations : String → Option (List CitationValue)) (world : World) : Prop :=
  ∃ older, world.checks = world.run.sources :: older ∧ (older ≠ [] →
    (∃ inputs, persistedCitationInputs answerCitations world.run = .ok inputs ∧
      world.run.sources.map AiCitationSourceEvidence.key = inputs.map CitationInput.key) ∧
    ∀ evidence ∈ world.run.sources, evidence.sourceFullTextSha256 = none →
      evidence.fullTextRead ≠ .passed)

theorem sound_initial (run : CitedRun) : (World.initial run).Sound answerCitations :=
  ⟨[], rfl, fun nonempty => absurd rfl nonempty⟩

/-- The evidence of a check has the keys of its sources. -/
theorem keys_of_checked {services : CheckServices} {caseDate : Option String}
    {previousHashes : Table String} {inputs : List CitationInput}
    {results : List (CitationValue × AiCitationSourceEvidence)}
    (each : List.Forall₂ (fun input found =>
      checkSource hash services caseDate previousHashes true input = .ok found) inputs results) :
    results.map (AiCitationSourceEvidence.key ∘ Prod.snd) = inputs.map CitationInput.key := by
  induction each with
  | nil => rfl
  | cons here _ inductionHypothesis =>
      rw [List.map_cons, List.map_cons, inductionHypothesis]
      exact congrArg (· :: _) (checkSource_evidence here).1

/-- The evidence of a re-check belongs to the sources of the run. -/
theorem evidence_of_rechecked {checked : CitedRun}
    (done : world.rechecked answerCitations hash event = .ok checked) :
    ∃ inputs, persistedCitationInputs answerCitations world.run = .ok inputs ∧
      ∃ results : List (CitationValue × AiCitationSourceEvidence),
        List.Forall₂ (fun input found => checkSource hash event.services world.run.caseDate
          (previousSourceHashes world.run.sources) true input = .ok found) inputs results ∧
        checked.sources = results.map Prod.snd ∧
        checked.sources.map AiCitationSourceEvidence.key = inputs.map CitationInput.key ∧
        ∀ verification, checked.citationVerification = some verification →
          verification.state = .passed → ∀ found ∈ results, evidenceReasons found.2 = [] := by
  obtain ⟨inputs, result, persisted, resolved, _, _, _, verified⟩ := recheckAiCitations_eq_ok done
  obtain ⟨results, each, _, sources, _, _, _, passes⟩ := resolveCitationSources_eq_ok resolved
  have shown : checked.sources = results.map Prod.snd := by
    rw [CitedRun.sources, verified]
    exact sources
  refine ⟨inputs, persisted, results, each, shown, ?_, fun verification same passed => ?_⟩
  · rw [shown, List.map_map]
    exact keys_of_checked each
  · obtain rfl : result.verification = verification := Option.some.inj (verified.symm.trans same)
    exact (passes passed).2

/-- A re-check keeps a history sound. -/
theorem World.Sound.next (sound : world.Sound answerCitations) :
    (world.next answerCitations hash event).Sound answerCitations := by
  rw [World.next]
  cases done : world.rechecked answerCitations hash event with
  | error code => exact sound
  | ok checked =>
      obtain ⟨inputs, persisted, results, each, sources, keys, _⟩ := evidence_of_rechecked done
      refine ⟨world.checks, rfl, fun _ => ⟨?_, fun evidence member => ?_⟩⟩
      · obtain ⟨again, persistedAgain, same⟩ := persistedCitationInputs_again done persisted
        exact ⟨again, persistedAgain, keys.trans same.symm⟩
      · dsimp only at member
        rw [sources] at member
        obtain ⟨found, inResults, rfl⟩ := List.mem_map.mp member
        obtain ⟨input, _, here⟩ := exists_of_forall₂_right each inResults
        exact (checkSource_evidence here).2.2.1

/-- A re-check reports another text than the last one which was read, exactly when no check
between the two failed to read the source. -/
theorem World.Sound.reportsChange_iff (sound : world.Sound answerCitations) {checked : CitedRun}
    (done : world.rechecked answerCitations hash event = .ok checked)
    {evidence : AiCitationSourceEvidence} (member : evidence ∈ checked.sources)
    {read known : String} (now : evidence.sourceFullTextSha256 = some read)
    (before : lastRead evidence.key world.checks = some known) (different : known ≠ read) :
    ReportsChange checked evidence ↔ failedSince evidence.key world.checks = false := by
  obtain ⟨older, checks, complete⟩ := sound
  obtain ⟨inputs, persisted, results, each, sources, _, passes⟩ := evidence_of_rechecked done
  rw [sources] at member
  obtain ⟨found, inResults, rfl⟩ := List.mem_map.mp member
  obtain ⟨input, inInputs, here⟩ := exists_of_forall₂_right each inResults
  obtain ⟨key, compared, _⟩ := checkSource_evidence here
  have content : found.2.sourceContent = contentState (hashIn found.2.key world.run.sources) read :=
    (compared now).trans (by rw [key]; rfl)
  rw [checks] at before ⊢
  cases remembered : hashIn found.2.key world.run.sources with
  | some previous =>
      rw [lastRead, remembered, Option.some_or] at before
      cases before
      have changed : found.2.sourceContent = .changed := by
        rw [content, remembered, contentState, if_pos different]
      refine iff_of_true ⟨changed, fun verification verified passed => ?_⟩ ?_
      · exact (evidenceReasons_eq_nil (passes _ verified passed _ inResults)).2.2.2 changed
      · rw [failedSince, remembered]
  | none =>
      rw [lastRead, remembered, Option.none_or] at before
      have nonempty : older ≠ [] := by
        rintro rfl
        cases before
      obtain ⟨⟨visited, persistedBefore, keys⟩, unread⟩ := complete nonempty
      obtain rfl : inputs = visited := Except.ok.inj (persisted.symm.trans persistedBefore)
      refine iff_of_false (fun reported => ?_) ?_
      · rw [ReportsChange, content, remembered, contentState] at reported
        cases reported.1
      · have inKeys : found.2.key ∈ world.run.sources.map AiCitationSourceEvidence.key := by
          rw [keys, key]
          exact List.mem_map_of_mem inInputs
        obtain ⟨entry, inSources, same⟩ := List.mem_map.mp inKeys
        have once : (world.run.sources.map AiCitationSourceEvidence.key).Nodup := by
          rw [keys]
          exact persistedCitationInputs_once persisted
        have failed := unread entry inSources (by
          rw [← hashIn_of_mem once inSources, same, remembered])
        rw [failedSince, remembered, Bool.not_eq_false, Bool.or_eq_true, List.any_eq_true]
        refine .inl ⟨entry, inSources, ?_⟩
        simp [same, failed]

/-- In every history of re-checks of one revision, a re-check which reads another text than the
last check which read the source reports the source as changed and does not pass, exactly when
no check between the two failed to read it. -/
theorem rechecks_detect_changes_iff (run : CitedRun) (events : List Event) :
    (rechecks answerCitations hash).Along (fun world event _ => ∀ checked,
      world.rechecked answerCitations hash event = .ok checked → ∀ evidence ∈ checked.sources,
        ∀ read known, evidence.sourceFullTextSha256 = some read →
          lastRead evidence.key world.checks = some known → known ≠ read →
            (ReportsChange checked evidence ↔ failedSince evidence.key world.checks = false))
      (World.initial run) events := by
  have start : (World.initial run).Sound answerCitations := sound_initial run
  refine Machine.along_of_step ?_ events start
  rintro world event _ sound ⟨⟩
  exact ⟨sound.next, fun checked done evidence member read known now before different =>
    sound.reportsChange_iff done member now before different⟩

end Runs

/-- Databases which hold one case, or are not there. -/
def oneCase (text : Option String) : CheckServices where
  readArticle _ := .error "not_found"
  readCase id :=
    match text with
    | some fullText => .ok { caseId := id, fullText }
    | none => .error "database_unavailable"
  articleNamed := nofun
  caseNamed := by
    intro id found read
    split at read <;> cases read
    rfl
  cancelledAt _ := false
  admits := .ok ()
  commits := .ok ()

/-- A run whose answer quotes a case. -/
def quotingRun : CitedRun where
  revision := 1
  completed := true
  content := "正文"
  caseDate := none
  messages := ["answer"]
  allowedSources := (∅ : Table (Option String)).put "case:guiding-1" (some "case")
  citations := []
  citationVerification := none
  updatedAt := 0

/-- The citations of the answer. -/
def quotingAnswer (_ : String) : Option (List CitationValue) :=
  some [{ caseId := some "guiding-1", quote := some "争议" }]

/-- The case is read, cannot be read, and is read again. -/
def interruptedReads : List Event :=
  [⟨oneCase (some "争议焦点"), 1, 1⟩, ⟨oneCase none, 2, 1⟩]

/-- The last of the reads finds another text. -/
def changedRead : Event := ⟨oneCase (some "争议已改"), 3, 1⟩

/-- A failed read between two reads of different texts: the last check passes, and counts the text
as seen for the first time. -/
theorem failed_read_hides_change :
    ∃ world checked evidence,
      (rechecks quotingAnswer plainHash).run (World.initial quotingRun) interruptedReads =
        some world ∧
      world.rechecked quotingAnswer plainHash changedRead = .ok checked ∧
      evidence ∈ checked.sources ∧ evidence.sourceFullTextSha256 = some "争议已改" ∧
      lastRead evidence.key world.checks = some "争议焦点" ∧
      evidence.sourceContent = .firstSeen ∧
      checked.citationVerification.map AiCitationVerification.state = some .passed := by
  have runs : (((rechecks quotingAnswer plainHash).run (World.initial quotingRun)
      interruptedReads).any fun world =>
        (world.rechecked quotingAnswer plainHash changedRead).toOption.any fun checked =>
          decide (checked.citationVerification.map AiCitationVerification.state = some .passed) &&
            checked.sources.any fun evidence =>
              decide (evidence.sourceFullTextSha256 = some "争议已改" ∧
                lastRead evidence.key world.checks = some "争议焦点" ∧
                evidence.sourceContent = .firstSeen)) = true := by
    decide
  obtain ⟨world, reached, checks⟩ := (Option.any_eq_true _ _).mp runs
  obtain ⟨checked, done, checks⟩ := any_toOption checks
  rw [Bool.and_eq_true, decide_eq_true_eq, List.any_eq_true] at checks
  obtain ⟨passed, evidence, member, facts⟩ := checks
  obtain ⟨read, known, first⟩ := of_decide_eq_true facts
  exact ⟨world, checked, evidence, reached, done, member, read, known, first, passed⟩

end LawyerAssistance.Citations
