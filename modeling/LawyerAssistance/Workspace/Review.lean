import LawyerAssistance.Workspace.CloudConsent

/-!
# Reviews of model-led materials

A review of a material with model evidence publishes what the engine computes from the
persisted findings of the model, after it has verified them against the present source.
Without sound evidence it fails before its first transaction. A recorded stage is never
removed, so no later request or restart brings the findings-free review back.
-/

namespace LawyerAssistance.Workspace

open PrivacyText

/-- A stage of the model-led path is recorded for the material, or its analysis carries
findings of the model. -/
def HasAiEvidence (store : Store) (m : Material) : Prop :=
  (store.aiStages.get m.id).isSome ∨
    ∃ analysis, m.analysis = some analysis ∧ analysis.aiFindings.isSome

/-- The persisted findings belong to the stored source, and they are verified against it. -/
structure SoundEvidence (services : Services) (store : Store) (m : Material)
    (findings : List AiFinding) : Prop where
  source : ∃ bytes, store.sources.get m.id = some bytes ∧ services.hash bytes = m.sourceSha256
  stage : ∀ record, store.aiStages.get m.id = some record → record.sourceSha256 = m.sourceSha256
  analysis : ∃ analysis, m.analysis = some analysis ∧ analysis.aiFindings = some findings ∧
    services.verifyAnalysisSource m.originalText analysis = .ok ()

/-- The result which a review publishes from the findings of the model. -/
structure ReviewedWithAi (services : Services) (m : Material) (findings : List AiFinding)
    (request : ReviewRequest) (r : ReadyResult) : Prop where
  owner : r.materialId = m.id
  computed : ∃ analysis «namespace» entries,
    services.analyzeWithAi m.originalText «namespace» entries findings request.dismissed =
        .ok analysis ∧
      analysis.needsReview = false ∧ services.validateAnalysis analysis = .ok () ∧
      services.verifyAnalysisSource m.originalText analysis = .ok () ∧
      r.text = analysis.text ∧ r.findings = analysis.findings ∧
      r.replacements = analysis.replacements ∧ r.sourceSha256 = analysis.sourceSha256

/-- The evidence of a model-led material is found exactly when it is sound. -/
theorem reviewAiEvidenceLocked_eq_ok {services : Services} {store : Store} {m : Material}
    (evidence : HasAiEvidence store m) {found : Option (List AiFinding)}
    {stage : Option AiStageRecord} :
    reviewAiEvidenceLocked services store m = .ok (found, stage) ↔
      ∃ findings, found = some findings ∧ stage = store.aiStages.get m.id ∧
        SoundEvidence services store m findings := by
  have staged : (¬ ((store.aiStages.get m.id).any fun record =>
      record.sourceSha256 ≠ m.sourceSha256) = true) ↔
      ∀ record, store.aiStages.get m.id = some record → record.sourceSha256 = m.sourceSha256 := by
    cases store.aiStages.get m.id <;> simp
  simp only [reviewAiEvidenceLocked, bind_eq_ok, presentOr_eq_ok, refuseIf_eq_ok, staged,
    Decidable.not_not]
  cases analyzed : m.analysis with
  | none =>
    have recorded : (store.aiStages.get m.id).isSome := by
      rcases evidence with recorded | ⟨analysis, present, -⟩
      · exact recorded
      · simp [analyzed] at present
    constructor
    · rintro ⟨bytes, -, -, -, -, -, ends⟩
      obtain ⟨_, unrecorded, -⟩ := bind_eq_ok.mp ends
      exact absurd recorded (refuseIf_eq_ok.mp unrecorded)
    · rintro ⟨findings, -, -, sound⟩
      obtain ⟨analysis, present, -⟩ := sound.analysis
      simp [analyzed] at present
  | some analysis =>
    have isEvident : ((store.aiStages.get m.id).isSome || analysis.aiFindings.isSome) = true := by
      rcases evidence with recorded | ⟨other, present, findings⟩
      · simp [recorded]
      · obtain rfl := Option.some.inj (analyzed.symm.trans present)
        simp [findings]
    simp only [isEvident, if_true, bind_eq_ok, presentOr_eq_ok, textResultAs_eq_ok]
    constructor
    · rintro ⟨bytes, source, -, hashed, -, stages, _, verified, findings, present, ends⟩
      obtain ⟨rfl, rfl⟩ := Prod.mk.inj (Except.ok.inj ends)
      exact ⟨findings, rfl, rfl, ⟨bytes, source, hashed⟩, stages, analysis, analyzed, present, verified⟩
    · rintro ⟨findings, rfl, rfl, sound⟩
      obtain ⟨bytes, source, hashed⟩ := sound.source
      obtain ⟨other, same, present, verified⟩ := sound.analysis
      obtain rfl := Option.some.inj (analyzed.symm.trans same)
      exact ⟨bytes, source, (), hashed, (), sound.stage, (), verified, findings, present, rfl⟩

section Review

variable {services : Services} {store : Store} {now : Nat} {resultId materialId : Id}
  {m : Material} {request : ReviewRequest}

/-- A review which fails at its evidence commits nothing. -/
theorem review_refused (found : store.materials.get materialId = some m)
    (evidence : HasAiEvidence store m)
    (unsound : ∀ findings, ¬ SoundEvidence services store m findings) (allowed : Option Nat) :
    let outcome := (review services now resultId materialId request).execute store allowed
    (∃ error, outcome.result = .error error) ∧ outcome.state = store := by
  intro outcome
  have refused : ∃ error, reviewAiEvidenceLocked services store m = .error error := by
    cases checked : reviewAiEvidenceLocked services store m with
    | error error => exact ⟨error, rfl⟩
    | ok found =>
      obtain ⟨findings, -, -, sound⟩ := (reviewAiEvidenceLocked_eq_ok evidence).mp checked
      exact absurd sound (unsound findings)
  obtain ⟨error, refused⟩ := refused
  have known : store.material materialId = .ok m := Store.material_eq_ok.mpr found
  simp only [outcome, review, Op.execute_current, Op.execute_lift, Op.execute_refuse, known, refused]
  split
  · exact ⟨⟨_, rfl⟩, rfl⟩
  · split
    · exact ⟨⟨_, rfl⟩, rfl⟩
    · exact ⟨⟨_, rfl⟩, rfl⟩

/-- A review of a material with evidence publishes what it computes from the findings. -/
theorem review_publishes (holds : Published store)
    (found : store.materials.get materialId = some m) (evidence : HasAiEvidence store m)
    (unused : store.results.get resultId = none) :
    (review services now resultId materialId request).Holds Store.putMany
      (fun _ rows => ∀ r, .result resultId r ∈ rows → ∃ findings,
        SoundEvidence services store m findings ∧
          ReviewedWithAi services m findings request r) (fun _ _ => True) store := by
  simp only [review, Program.holds_bind, Program.holds_lift, Program.holds_refuse,
    Program.holds_current, Store.material_eq_ok, Store.require_eq_ok]
  rintro before beforeFound _ _ ⟨aiFindings, stage⟩ checked group groupFound
  obtain rfl := Option.some.inj (found.symm.trans beforeFound)
  obtain ⟨findings, rfl, -, sound⟩ := (reviewAiEvidenceLocked_eq_ok evidence).mp checked
  refine reviewDictionary_holds ⟨holds, unused, found, groupFound⟩
    (fun rows (rewrites : Rewrite [] store rows) r member => ?_) ?_
  · obtain ⟨-, -, old, -, oldFound, -⟩ := rewrites.withdraws.result member
    simp [unused] at oldFound
  · intro later g state same reviewable analysis analyzed
    have noRevoked : ∀ {revoked}, revokedResult state later.resultId = .ok revoked →
        ∀ r, .result resultId r ∉ revoked := by
      intro revoked revokes r member
      rcases revokedResult_eq_ok.mp revokes with ⟨-, rfl⟩ | ⟨id, old, -, oldFound, rfl⟩
      · cases member
      · obtain ⟨rfl, -⟩ : resultId = id ∧ _ := by simpa using member
        simp [reviewable.unused] at oldFound
    have stageOnly : ∀ {state : Store},
        (saveReviewedStage now materialId (reviewedMaterial later request) stage).Holds
          Store.putMany (fun _ rows => ∀ r, .result resultId r ∈ rows → ∃ findings,
            SoundEvidence services store m findings ∧
              ReviewedWithAi services m findings request r) (fun _ _ => True) state := by
      intro state
      cases stage with
      | none => trivial
      | some record => exact ⟨by simp, trivial⟩
    refine finishLocked_holds ?_ ?_
    · intro revoked review (revokes : revokedResult state later.resultId = .ok revoked)
      refine ⟨fun r member => ?_, stageOnly⟩
      exact absurd (by simpa using member) (noRevoked revokes r)
    · intro revoked ready valid verified (revokes : revokedResult state later.resultId = .ok revoked)
      refine ⟨fun r member => ⟨findings, sound, ?_⟩, stageOnly⟩
      obtain rfl : r = publishedResult services now resultId (reviewedMaterial later request) g
          analysis := by
        have absent := noRevoked revokes r
        simpa [absent, publishedResult] using member
      have analyzedWithAi : services.analyzeWithAi m.originalText g.namespace g.entries findings
          request.dismissed = .ok analysis := by
        simpa [analyzeReview, same.originalText] using analyzed
      replace verified : services.verifyAnalysisSource m.originalText analysis = .ok () := by
        rw [← same.originalText]
        exact verified
      exact ⟨same.id, analysis, g.namespace, g.entries, analyzedWithAi, ready, valid, verified, rfl,
        rfl, rfl, rfl⟩

end Review

/-- A request brings only results whose identifiers it draws. -/
theorem Lawful.results_absent {fresh : List Id} {store : Store} {rows : List Row}
    (lawful : Lawful fresh store rows) {id : Id} (undrawn : id ∉ fresh)
    (absent : store.results.get id = none) : (store.putMany rows).results.get id = none := by
  cases lawful with
  | rewrite rewrites => exact rewrites.results_absent absent
  | @consent rows taskId c rewrites =>
    have kept := rewrites.results_absent absent
    simpa [Store.putMany_append, Store.writeRow] using kept
  | @publish stored m r revoked publishes isFresh =>
    rw [results_putMany_of_absent, absent]
    intro other member
    rcases revokedResult_eq_ok.mp publishes.revokes with ⟨-, rfl⟩ | ⟨old, _, -, found, rfl⟩
    · obtain ⟨rfl, -⟩ : id = r.id ∧ other = r := by simpa using member
      exact undrawn isFresh
    · rcases (by simpa using member : (id = old ∧ _) ∨ (id = r.id ∧ _)) with ⟨rfl, -⟩ | ⟨rfl, -⟩
      · simp [absent] at found
      · exact undrawn isFresh

/-- No run removes a recorded stage. -/
theorem stages_persist {services : Services} {pool : Nat} {world final : World}
    {events : List Event} (sound : Sound world) {id : Id}
    (recorded : (world.store.aiStages.get id).isSome)
    (runs : (machine services pool).run world events = some final) :
    (final.store.aiStages.get id).isSome := by
  refine (Machine.run_invariant
    (fun world => Sound world ∧ (world.store.aiStages.get id).isSome) ?_ ⟨sound, recorded⟩ runs).2
  rintro world event next ⟨sound, recorded⟩ taken
  refine ⟨sound.step taken, sound.store_invariant taken
    (fun store => (store.aiStages.get id).isSome) ?_ ?_ ?_ ?_ recorded⟩
  · exact fun _ _ _ stored _ => aiStages_putMany_isSome stored
  · exact fun _ stored _ => aiStages_putMany_isSome stored
  · exact fun stored _ => aiStages_putMany_isSome stored
  · exact fun stored _ => aiStages_putMany_isSome stored

/-- Whatever happened since a stage of a material was recorded, a review of it publishes a
result only from sound persisted findings of the model, and without them it fails and
changes no record. -/
theorem review_keeps_ai_evidence {services : Services} {pool : Nat} {recorded world next : World}
    (reachable : (machine services pool).Reachable World.initial recorded) {events : List Event}
    (runs : (machine services pool).run recorded events = some world) {materialId : Id}
    {m : Material} (stored : world.store.materials.get materialId = some m)
    (evidence : (recorded.store.aiStages.get materialId).isSome ∨ HasAiEvidence world.store m)
    {now : Nat} {resultId : Id} {request : ReviewRequest} {allowed : Option Nat}
    (taken : (machine services pool).step world
      (.request now (.review resultId materialId request) allowed) = some next) :
    (∀ id r, next.store.results.get id = some r → world.store.results.get id = none →
      ∃ findings, SoundEvidence services world.store m findings ∧
        ReviewedWithAi services m findings request r) ∧
    ((∀ findings, ¬ SoundEvidence services world.store m findings) →
      (∃ error, ((review services now resultId materialId request).execute world.store
        allowed).result = .error error) ∧ next.store = world.store) := by
  have sound := sound_of_reachable (reachable.run runs)
  obtain rfl := sound.published.materialKeyed stored
  have isEvident : HasAiEvidence world.store m := by
    rcases evidence with before | isEvident
    · exact .inl (stages_persist (sound_of_reachable reachable) before runs)
    · exact isEvident
  obtain ⟨⟨-, areFresh⟩, stepped⟩ := stepped_of_step taken
  have unused := (sound.known.unused areFresh).result resultId List.mem_cons_self
  cases stepped with
  | @request process _ _ _ live =>
    constructor
    · intro id r found absent
      have drawn : id = resultId := by
        by_contra different
        have lawful := Request.lawful sound.published services now
          (.review resultId m.id request) (sound.known.unused areFresh)
        have stays : ((review services now resultId m.id request).execute world.store
            allowed).state.results.get id = none :=
          lawful.run_invariant (fun store : Store => store.results.get id = none)
            (fun absent lawful => lawful.results_absent
              (fun drawn => different (List.mem_singleton.mp drawn)) absent) absent allowed
        exact absurd (found.symm.trans stays) (by simp)
      subst drawn
      refine (review_publishes sound.published stored isEvident absent).run_invariant
        (fun store : Store => ∀ r, store.results.get id = some r → ∃ findings,
          SoundEvidence services world.store m findings ∧
            ReviewedWithAi services m findings request r) ?_ ?_ allowed r found
      · intro store rows before published r found
        rcases results_putMany_cases found with member | ⟨kept, -⟩
        · exact published r member
        · exact before r kept
      · intro r found
        simp [absent] at found
    · intro unsound
      exact review_refused stored isEvident unsound allowed

/-- Services whose model finds something that waits for a decision. -/
def findingServices : Services :=
  { plainServices with
    analyzeWithAi := fun text _ _ findings dismissed =>
      .ok ⟨text, [], some findings, [], dismissed.isEmpty, String.ofList text, String.ofList text⟩ }

/-- The model-led leg for the submitted file, to its review. -/
def processedByModel : List Event :=
  [.claim 0 "mat" none,
    .work 0 3 "w1" (.selected (.ok ⟨"prov", "m"⟩)) none,
    .work 0 3 "w2" (.admitted (.ok ())) none,
    .work 0 3 "w3" .proceed none,
    .work 0 3 "w4" .proceed none,
    .work 0 3 "w5" (.extracted (.ok "hi".toList)) none,
    .work 0 3 "w6" .proceed none,
    .work 0 3 "w7" .proceed none,
    .work 0 3 "w8" .proceed none,
    .work 0 3 "w9" (.located (.ok [⟨"hi".toList, "person_name", 0, 2, none⟩])) none,
    .work 0 3 "w10" .proceed none,
    .work 0 3 "w11" .proceed none]

/-- The review which dismisses the finding. -/
def dismissingReview : Event :=
  .request 4 (.review "res" "mat" ⟨1, [], ["finding"]⟩) none

/-- The dismissing review publishes from the findings of the model. -/
theorem review_keeps_ai_evidence_dismissing :
    ∃ m r findings,
      (worldAfter findingServices 1 (submitted ++ processedByModel)).store.materials.get "mat" =
        some m ∧
      (worldAfter findingServices 1 (submitted ++ processedByModel ++ [dismissingReview])
        ).store.results.get "res" = some r ∧
      ReviewedWithAi findingServices m findings ⟨1, [], ["finding"]⟩ r := by
  have recorded : ((worldAfter findingServices 1 (submitted ++ processedByModel)).store.aiStages.get
      "mat").isSome := by decide +kernel
  have present : ((worldAfter findingServices 1 (submitted ++ processedByModel)).store.materials.get
      "mat").isSome := by decide +kernel
  have published : ((worldAfter findingServices 1 (submitted ++ processedByModel ++
      [dismissingReview])).store.results.get "res").isSome := by decide +kernel
  have taken := @worldAfter_run findingServices 1 (submitted ++ processedByModel) [dismissingReview]
    (by decide +kernel)
  rw [Machine.run_singleton] at taken
  obtain ⟨m, stored⟩ := Option.isSome_iff_exists.mp present
  obtain ⟨r, found⟩ := Option.isSome_iff_exists.mp published
  obtain ⟨findings, -, reviewed⟩ := (review_keeps_ai_evidence
    (worldAfter_reachable (by decide +kernel)) (Machine.run_nil _ _) stored (.inl recorded)
    taken).1 "res" r found (by decide +kernel)
  exact ⟨m, r, findings, stored, found, reviewed⟩

end LawyerAssistance.Workspace
