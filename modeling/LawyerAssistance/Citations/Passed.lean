import LawyerAssistance.Citations.Evidence

/-!
# What a passed check means

A check passes when it found no reason against any of its sources, so every single check of every
source passed. The state which a run shows is bound to the text, the revision and the date which
were checked.
-/

namespace LawyerAssistance.Citations

variable {hash : String → String} {services : CheckServices} {caseDate : Option String}
  {previousHashes : Table String} {allowMissingSources : Bool} {input : CitationInput}
  {citation : CitationValue} {evidence : AiCitationSourceEvidence}

/-! ## Meanings -/

/-- A text holds a quote: nowhere before the place which is recorded, and not again behind it. -/
def OccursOnce (quote text : String) : Prop :=
  ∃ before after, text.toList = before ++ quote.toList ++ after ∧
    (∀ {start rest}, text.toList = start ++ quote.toList ++ rest → before.length ≤ start.length) ∧
    ¬ quote.toList <:+: after

/-- Evidence without a reason against it. -/
theorem evidenceReasons_eq_nil (none : evidenceReasons evidence = []) :
    evidence.fullTextRead = .passed ∧ evidence.citationMatch = .matched ∧
      (evidence.timeCheck = .passed ∨ evidence.timeCheck = .notApplicable) ∧
      evidence.sourceContent ≠ .changed := by
  simp only [evidenceReasons, List.append_eq_nil_iff] at none
  obtain ⟨⟨⟨⟨⟨_, read⟩, _⟩, matched⟩, time⟩, content⟩ := none
  refine ⟨?_, ?_, ?_, ?_⟩
  · by_contra unread
    simp [unread] at read
  · cases state : evidence.citationMatch <;> simp_all
  · cases state : evidence.timeCheck <;> simp_all
  · intro changed
    simp [changed] at content

/-! ## The check of a source -/

/-- What the check of a source which was read or which is allowed to be unread returns. -/
theorem checkSource_cases (checked : checkSource hash services caseDate previousHashes
    allowMissingSources input = .ok (citation, evidence)) :
    (input.kind = "article" ∧ resolveArticle hash services input caseDate
        (previousHashes.get input.key) = .ok (citation, evidence)) ∨
      (input.kind = "case" ∧ resolveCase hash services input
        (previousHashes.get input.key) = .ok (citation, evidence)) ∨
      (citation = fallbackCitation input ∧ (evidence = missingSourceEvidence hash input ∨
        evidence = unavailableSourceEvidence hash input)) := by
  obtain ⟨_, checked⟩ := refuseIf_bind_eq_ok.mp checked
  dsimp only at checked
  split at checked
  · next found resolved =>
      cases checked
      split_ifs at resolved with article judicial
      · exact .inl ⟨article, resolved⟩
      · exact .inr (.inl ⟨judicial, resolved⟩)
  · split_ifs at checked <;> cases checked
    · exact .inr (.inr ⟨rfl, .inl rfl⟩)
    · exact .inr (.inr ⟨rfl, .inr rfl⟩)

theorem mapError_eq_ok {α : Type} {answer : Except String α} {found : α}
    (read : answer.mapError mapLegalError = .ok found) : answer = .ok found := by
  cases answer with
  | error code => cases read
  | ok other =>
      cases read
      rfl

section Inputs

variable {source : CitationValue → Except String (String × String)} {quoteLimited : Bool}
  {kind id : String} {value : CitationValue} {seen : List String} {values : List CitationValue}
  {inputs : List CitationInput}

/-- A source is checked under its key, and not for an empty quote. -/
theorem citedInput_eq_ok (cited : citedInput quoteLimited kind id value = .ok input) :
    input.kind = kind ∧ input.id = id ∧ input.quote ≠ some "" := by
  obtain ⟨_, cited⟩ := refuseIf_bind_eq_ok.mp cited
  cases cited
  exact ⟨rfl, rfl, by simp [Option.filter_eq_some_iff]⟩

/-- The list of sources grows by one which was not seen. -/
theorem collectInputs_cons_eq_ok
    (collected : collectInputs source quoteLimited seen (value :: values) = .ok inputs) :
    ∃ kind id, source value = .ok (kind, id) ∧
      (collectInputs source quoteLimited seen values = .ok inputs ∨
        ∃ input others, sourceKey kind id ∉ seen ∧
          citedInput quoteLimited kind id value = .ok input ∧
          collectInputs source quoteLimited (sourceKey kind id :: seen) values = .ok others ∧
          inputs = input :: others) := by
  obtain ⟨⟨kind, id⟩, named, collected⟩ := bind_eq_ok.mp collected
  refine ⟨kind, id, named, ?_⟩
  dsimp only at collected
  split_ifs at collected with known
  · exact .inl collected
  · obtain ⟨input, cited, collected⟩ := bind_eq_ok.mp collected
    obtain ⟨others, collectedRest, collected⟩ := bind_eq_ok.mp collected
    cases collected
    exact .inr ⟨input, others, known, cited, collectedRest, rfl⟩

end Inputs

/-- A check of a run checks each of its sources, and passes when no source gives a reason against
it. -/
theorem resolveCitationSources_eq_ok {inputs : List CitationInput} {bodySha256 : String}
    {revision now : Nat} {result : CitationCheckResult}
    (checked : resolveCitationSources hash services inputs bodySha256 revision caseDate
      previousHashes allowMissingSources now = .ok result) :
    ∃ results : List (CitationValue × AiCitationSourceEvidence),
      List.Forall₂ (fun input checked => checkSource hash services caseDate previousHashes
        allowMissingSources input = .ok checked) inputs results ∧
      result.citations = results.map Prod.fst ∧
      result.verification.sources = results.map Prod.snd ∧
      result.verification.bodySha256 = bodySha256 ∧
      result.verification.runRevision = revision ∧ result.verification.caseDate = caseDate ∧
      (result.verification.state = .passed → results ≠ [] ∧
        ∀ checked ∈ results, evidenceReasons checked.2 = []) := by
  obtain ⟨results, each, checked⟩ := bind_eq_ok.mp checked
  cases checked
  refine ⟨results, mapM_eq_ok each, rfl, rfl, rfl, rfl, rfl, fun passed => ?_⟩
  have unopposed : results.map Prod.snd ≠ [] ∧
      (results.map Prod.snd).flatMap evidenceReasons = [] := by
    by_cases nonempty : results.map Prod.snd = []
    · simp [nonempty] at passed
    · simpa [nonempty] using passed
  refine ⟨fun empty => unopposed.1 (by rw [empty]; rfl), fun checked member => ?_⟩
  exact List.flatMap_eq_nil_iff.mp unopposed.2 _ (List.mem_map_of_mem member)

/-- A hash without collisions. -/
def plainHash (text : String) : String := text

end LawyerAssistance.Citations
