import LawyerAssistance.Privacy.RiskEngine
import Mathlib.Algebra.Group.Action.Defs
import Mathlib.Algebra.Order.Ring.Nat

/-!
# Soundness of automatic publication

The decision of the risk engine is sound when the counts of the pages add up to less than `2 ^ 32`
and no page is scored below what 32 bits hold. Beyond these bounds the evaluation panics in one
build, and in the other publishes what it should block.
-/

namespace LawyerAssistance.Privacy

/-! ## Bounds -/

section Bounds

variable {α : Type} {policy : RiskPolicy} {mode : Overflow}

/-- The exact sum of a count of the pages. -/
def trueSum (count : α → UInt32) (pages : List α) : Nat :=
  (pages.map fun page => (count page).toNat).sum

/-- The counts of the pages add up to what 32 bits hold. -/
structure SumsFit (pages : List PageAssessment) : Prop where
  p0 : trueSum PageAssessment.p0Count pages < 2 ^ 32
  p1 : trueSum PageAssessment.p1Count pages < 2 ^ 32
  p2 : trueSum PageAssessment.p2Count pages < 2 ^ 32
  conflicts : trueSum PageAssessment.detectorConflictCount pages < 2 ^ 32
  clusterInconsistencies : trueSum PageAssessment.clusterInconsistencyCount pages < 2 ^ 32

/-- What is subtracted from the score of every page fits in 32 bits. -/
def ScoresFit (policy : RiskPolicy) (pages : List PageAssessment) : Prop :=
  ∀ page ∈ pages, (penalties policy page).sum ≤ 2 ^ 31 + 100

/-- The totals of pages whose counts fit. -/
def exactTotals (pages : List PageAssessment) : Totals where
  p0 := UInt32.ofNat (trueSum PageAssessment.p0Count pages)
  p1 := UInt32.ofNat (trueSum PageAssessment.p1Count pages)
  p2 := UInt32.ofNat (trueSum PageAssessment.p2Count pages)
  conflicts := UInt32.ofNat (trueSum PageAssessment.detectorConflictCount pages)
  clusterInconsistencies := UInt32.ofNat (trueSum PageAssessment.clusterInconsistencyCount pages)

theorem sumCounts_eq_ok {count : α → UInt32} {pages : List α}
    (fits : trueSum count pages < 2 ^ 32) :
    sumCounts mode count pages = .ok (UInt32.ofNat (trueSum count pages)) :=
  bind_eq_ok.mpr ⟨_, Overflow.sum_eq_ok fits, rfl⟩

/-- A sum panics when it does not fit, or what is behind it does. -/
theorem sumCounts_bind_panics {β : Type} {count : α → UInt32} {pages : List α}
    {next : UInt32 → Except (Fault VNextSchemaError) β}
    (otherwise : trueSum count pages < 2 ^ 32 →
      next (UInt32.ofNat (trueSum count pages)) = .error .panicked) :
    (sumCounts .panics count pages >>= next) = .error .panicked := by
  by_cases fits : trueSum count pages < 2 ^ 32
  · rw [sumCounts_eq_ok fits]
    exact otherwise fits
  · rw [sumCounts, Overflow.sum_panics (Nat.not_lt.mp fits)]
    rfl

theorem totals_eq_ok {pages : List PageAssessment} (fits : SumsFit pages) :
    totals mode pages = .ok (exactTotals pages) :=
  bind_eq_ok.mpr ⟨_, sumCounts_eq_ok fits.p0, bind_eq_ok.mpr ⟨_, sumCounts_eq_ok fits.p1,
    bind_eq_ok.mpr ⟨_, sumCounts_eq_ok fits.p2, bind_eq_ok.mpr
      ⟨_, sumCounts_eq_ok fits.conflicts, bind_eq_ok.mpr
        ⟨_, sumCounts_eq_ok fits.clusterInconsistencies, rfl⟩⟩⟩⟩⟩

theorem totals_panics {pages : List PageAssessment} (large : ¬ SumsFit pages) :
    totals .panics pages = .error .panicked :=
  sumCounts_bind_panics fun p0 => sumCounts_bind_panics fun p1 => sumCounts_bind_panics fun p2 =>
    sumCounts_bind_panics fun conflicts => sumCounts_bind_panics fun clusterInconsistencies =>
      absurd ⟨p0, p1, p2, conflicts, clusterInconsistencies⟩ large

/-- Nothing negative is subtracted from a score. -/
theorem penalties_nonneg (policy : RiskPolicy) (page : PageAssessment) :
    ∀ value ∈ penalties policy page, 0 ≤ value := by
  have weighted (count : UInt32) (weight : Nat) : 0 ≤ penalty count weight := by
    rw [penalty]
    split_ifs
    · exact Int.natCast_nonneg _
    · decide
  intro value among
  simp only [penalties, List.mem_append, List.mem_cons, List.not_mem_nil, or_false] at among
  obtain (((rfl | rfl | rfl | rfl | rfl) | flat) | flat) | flat := among
  · exact weighted _ _
  · exact weighted _ _
  · exact weighted _ _
  · exact weighted _ _
  · exact weighted _ _
  all_goals
    split_ifs at flat
    · rw [List.mem_singleton.mp flat]
      decide
    · cases flat

/-- The readiness of a page whose score fits. -/
def exactReadiness (policy : RiskPolicy) (page : PageAssessment) : UInt32 :=
  UInt32.ofNat (max 0 (min (100 - (penalties policy page).sum) 100)).toNat

theorem exactReadiness_le (policy : RiskPolicy) (page : PageAssessment) :
    (exactReadiness policy page).toNat ≤ 100 := by
  rw [exactReadiness, UInt32.toNat_ofNat']
  omega

theorem toPageRisk_eq_ok {page : PageAssessment}
    (fits : (penalties policy page).sum ≤ 2 ^ 31 + 100) :
    toPageRisk mode policy page = .ok (pageRisk page (exactReadiness policy page)) :=
  bind_eq_ok.mpr ⟨_, bind_eq_ok.mpr ⟨_, Overflow.subAll_eq_ok (penalties_nonneg policy page)
    (by decide) (by omega), rfl⟩, rfl⟩

theorem toPageRisk_panics {page : PageAssessment}
    (large : ¬ (penalties policy page).sum ≤ 2 ^ 31 + 100) :
    toPageRisk .panics policy page = .error .panicked := by
  rw [toPageRisk, pageReadiness, Overflow.subAll_panics (penalties_nonneg policy page) (by decide)
    (by decide) (by omega)]
  rfl

/-- The risks of pages whose scores fit. -/
def exactPageRisks (policy : RiskPolicy) (pages : List PageAssessment) : List PageRisk :=
  pages.map fun page => pageRisk page (exactReadiness policy page)

/-- Pages whose scores fit have the exact risks. -/
theorem pageRisks_eq_ok {pages : List PageAssessment} (fits : ScoresFit policy pages) :
    pages.mapM (toPageRisk mode policy) = .ok (exactPageRisks policy pages) := by
  induction pages with
  | nil => rfl
  | cons page rest inductionHypothesis =>
      have each := List.forall_mem_cons.mp fits
      rw [List.mapM_cons, toPageRisk_eq_ok each.1, inductionHypothesis each.2]
      rfl

/-- Pages one of whose scores does not fit panic. -/
theorem pageRisks_panic {pages : List PageAssessment} (large : ¬ ScoresFit policy pages) :
    pages.mapM (toPageRisk .panics policy) = .error .panicked := by
  induction pages with
  | nil => exact absurd nofun large
  | cons page rest inductionHypothesis =>
      rw [List.mapM_cons]
      by_cases fits : (penalties policy page).sum ≤ 2 ^ 31 + 100
      · rw [toPageRisk_eq_ok fits, inductionHypothesis fun others =>
          large (List.forall_mem_cons.mpr ⟨fits, others⟩)]
        rfl
      · rw [toPageRisk_panics fits]
        rfl

end Bounds

/-! ## Gates -/

section Gates

variable {sha256Hex : Octets → Sha256Hex} {mode : Overflow} {policy : RiskPolicy}
  {qualification : QualificationSnapshot} {assessment : DocumentAssessment} {nowUnix : UInt64}
  {counts : Totals}

/-- A gate of the engine: it blocks, and what it says is printable. -/
structure HardGateResult.WellFormed (gate : HardGateResult) : Prop where
  blocking : gate.blocking = true
  named : gate.gateId.any Text.isControl = false
  single : gate.reasonCodes.length ≤ 1
  reasons : ∀ reason ∈ gate.reasonCodes, reason ≠ [] ∧ reason.any Text.isControl = false

/-- A gate with a printable name and a printable reason is well formed. -/
theorem wellFormed_gate {gateId failureReason : String} {passed : Bool}
    {evidenceHashes : List Sha256Hex}
    (plain : (!gateId.toList.any Text.isControl && !failureReason.toList.isEmpty &&
      !failureReason.toList.any Text.isControl) = true) :
    (gate gateId passed failureReason evidenceHashes).WellFormed := by
  simp only [Bool.and_eq_true, Bool.not_eq_true', List.isEmpty_eq_false_iff] at plain
  cases passed with
  | true => exact ⟨rfl, plain.1.1, Nat.zero_le 1, nofun⟩
  | false =>
      refine ⟨rfl, plain.1.1, Nat.le_refl 1, fun reason among => ?_⟩
      rw [List.mem_singleton.mp among]
      exact ⟨plain.1.2, plain.2⟩

/-- Every gate of a document is well formed. -/
theorem wellFormed_hardGates : ∀ gate ∈ hardGates policy qualification assessment nowUnix counts,
    gate.WellFormed := by
  have mode : (!"approval_mode_allows_automatic".toList.any Text.isControl &&
      !(approvalModeReason policy).toList.isEmpty &&
      !(approvalModeReason policy).toList.any Text.isControl) = true := by
    rw [approvalModeReason]
    split_ifs
    · decide
    · split <;> decide
    · decide
  simp only [hardGates, List.forall_mem_cons]
  exact ⟨wellFormed_gate (by decide), wellFormed_gate (by decide), wellFormed_gate (by decide),
    wellFormed_gate (by decide), wellFormed_gate (by decide), wellFormed_gate (by decide),
    wellFormed_gate (by decide), wellFormed_gate (by decide), wellFormed_gate (by decide),
    wellFormed_gate (by decide), wellFormed_gate (by decide), wellFormed_gate (by decide),
    wellFormed_gate (by decide), wellFormed_gate mode, wellFormed_gate (by decide),
    wellFormed_gate (by decide), wellFormed_gate (by decide), nofun⟩

theorem gateIds_hardGates : (hardGates policy qualification assessment nowUnix counts).map
    HardGateResult.gateId = requiredHardGates := rfl

/-- A well formed gate is valid. -/
theorem HardGateResult.WellFormed.validate {gate : HardGateResult} (formed : gate.WellFormed) :
    gate.validate = .ok () := by
  refine bind_eq_ok.mpr ⟨(), rejectControlChars_eq_ok.mpr formed.named, bind_eq_ok.mpr ⟨(), ?_,
    refuseIf_eq_ok.mpr ?_⟩⟩
  · refine forM_eq_ok.mpr fun reason among => ?_
    obtain ⟨nonempty, plain⟩ := formed.reasons reason among
    exact refuseIf_bind_eq_ok.mpr ⟨nonempty, rejectControlChars_eq_ok.mpr plain⟩
  · rintro (long | ⟨_, free⟩)
    · exact absurd (Nat.lt_of_lt_of_le long formed.single) (by decide)
    · rw [formed.blocking] at free
      cases free

/-- A well formed gate is printable. -/
theorem HardGateResult.WellFormed.printable {gate : HardGateResult} (formed : gate.WellFormed) :
    (HardGateResult.codec.write gate).Printable := by
  have names : ["gateId", "passed", "blocking", "reasonCodes", "evidenceHashes"].all
      (fun name => !name.toList.any Text.isControl) = true := by decide
  simp only [List.all_cons, List.all_nil, Bool.and_eq_true, Bool.not_eq_true', Bool.and_true]
    at names
  obtain ⟨gateId, passed, blocking, reasonCodes, evidenceHashes⟩ := names
  have reasons : PrintableAll (gate.reasonCodes.map Codec.text.write) := by
    rw [printableAll_iff]
    intro value among
    obtain ⟨reason, inside, rfl⟩ := List.mem_map.mp among
    exact (formed.reasons reason inside).2
  have hashes : PrintableAll (gate.evidenceHashes.map Sha256Hex.codec.write) := by
    rw [printableAll_iff]
    intro value among
    obtain ⟨hash, _, rfl⟩ := List.mem_map.mp among
    exact printable_of_validLowerHex hash.2
  exact ⟨gateId, formed.named, passed, trivial, blocking, trivial, reasonCodes, reasons,
    evidenceHashes, hashes, trivial⟩

/-- The gates of a document always have a hash and are valid. -/
theorem exists_gateEvaluation (sha256Hex : Octets → Sha256Hex) (policy : RiskPolicy)
    (qualification : QualificationSnapshot) (assessment : DocumentAssessment) (nowUnix : UInt64)
    (counts : Totals) : ∃ evaluationHash,
    gateEvaluation sha256Hex (hardGates policy qualification assessment nowUnix counts) nowUnix =
      .ok { gates := hardGates policy qualification assessment nowUnix counts
            evaluatedAtUnix := nowUnix, evaluationHash } := by
  have formed : ∀ gate ∈ hardGates policy qualification assessment nowUnix counts,
      gate.WellFormed := wellFormed_hardGates
  have names : ["engineVersion", "evaluatedAtUnix", "gates"].all
      (fun name => !name.toList.any Text.isControl) = true := by decide
  simp only [List.all_cons, List.all_nil, Bool.and_eq_true, Bool.not_eq_true', Bool.and_true]
    at names
  obtain ⟨engineVersion, evaluatedAtUnix, gates⟩ := names
  have printable : (Value.object (gateClaims.write (riskEngineVersion, nowUnix,
      hardGates policy qualification assessment nowUnix counts))).Printable := by
    refine ⟨engineVersion, show riskEngineVersion.any Text.isControl = false by decide,
      evaluatedAtUnix, trivial, gates, ?_, trivial⟩
    refine printableAll_iff.mpr fun value among => ?_
    obtain ⟨gate, inside, rfl⟩ := List.mem_map.mp among
    exact (formed gate inside).printable
  obtain ⟨bytes, encoded⟩ := exists_canonicalJsonV1 printable
  refine ⟨sha256Hex bytes, bind_eq_ok.mpr ⟨bytes, encoded, bind_eq_ok.mpr ⟨(), ?_, rfl⟩⟩⟩
  refine refuseIf_bind_eq_ok.mpr ⟨?_, forM_eq_ok.mpr fun gate among => (formed gate among).validate⟩
  rw [gateIds_hardGates]
  rintro (count | distinct | absent)
  · exact count rfl
  · exact distinct (by decide)
  · exact absurd absent (by decide)

end Gates

/-! ## Evaluations which do not panic -/

section Panics

variable {sha256Hex : Octets → Sha256Hex} {mode : Overflow} {policy : RiskPolicy}
  {qualification : QualificationSnapshot} {assessment : DocumentAssessment} {nowUnix : UInt64}

/-- A program which returns a result or a refusal. -/
def NoPanic {α : Type} (computed : Except (Fault VNextSchemaError) α) : Prop :=
  computed ≠ .error .panicked

theorem NoPanic.bind {α β : Type} {first : Except (Fault VNextSchemaError) α}
    {next : α → Except (Fault VNextSchemaError) β} (here : NoPanic first)
    (following : ∀ value, first = .ok value → NoPanic (next value)) : NoPanic (first >>= next) := by
  cases first with
  | error fault => exact fun same => here (congrArg Except.error (Except.error.inj same))
  | ok value => exact following value rfl

theorem noPanic_checked {α : Type} (computed : Except VNextSchemaError α) :
    NoPanic (checked computed) := by
  cases computed <;> exact nofun

theorem noPanic_of_eq_ok {α : Type} {computed : Except (Fault VNextSchemaError) α} {value : α}
    (done : computed = .ok value) : NoPanic computed := by
  rw [done]
  exact nofun

theorem noPanic_of_eq_error {α : Type} {computed : Except (Fault VNextSchemaError) α}
    {error : VNextSchemaError} (failed : computed = .error (.refused error)) :
    NoPanic computed := by
  rw [failed]
  exact nofun

/-- The readiness of a document whose pages score a hundred at most. -/
def exactDocumentReadiness (pages : List PageRisk) (p0 p1 : UInt32) : UInt32 :=
  if pages = [] then 0
  else
    let total := (pages.map fun page => page.readinessScore.toNat).sum
    let average := (toUInt32 (total / pages.length)).getD 0
    if 0 < p0 then 0 else if 0 < p1 then min average 49 else average

/-- A document whose pages score a hundred at most has the exact readiness. -/
theorem documentReadiness_eq_ok {pages : List PageRisk} (few : pages.length ≤ 100000)
    (small : ∀ page ∈ pages, page.readinessScore.toNat ≤ 100) (p0 p1 : UInt32) :
    documentReadiness mode pages p0 p1 = .ok (exactDocumentReadiness pages p0 p1) := by
  by_cases none : pages = []
  · rw [documentReadiness, exactDocumentReadiness, if_pos none, if_pos none]
    rfl
  · have bounded := List.sum_le_card_nsmul (pages.map fun page => page.readinessScore.toNat) 100
      (by simpa using small)
    rw [List.length_map, smul_eq_mul] at bounded
    rw [documentReadiness, exactDocumentReadiness, if_neg none, if_neg none,
      Overflow.sum_eq_ok (by omega)]
    rfl

theorem exactPageRisks_le (policy : RiskPolicy) (pages : List PageAssessment) :
    ∀ page ∈ exactPageRisks policy pages, page.readinessScore.toNat ≤ 100 := by
  intro risk among
  obtain ⟨page, _, rfl⟩ := List.mem_map.mp among
  exact exactReadiness_le policy page

theorem length_le_of_validateInputs (valid : validateInputs policy assessment = .ok ()) :
    assessment.pages.length ≤ 100000 := by
  obtain ⟨admitted, _⟩ := refuseIf_bind_eq_ok.mp valid
  exact Nat.not_lt.mp fun long => admitted (.inr (.inr (.inr long)))

theorem trueSum_exactPageRisks {count : PageRisk → UInt32} {counted : PageAssessment → UInt32}
    (same : ∀ page score, count (pageRisk page score) = counted page)
    (pages : List PageAssessment) :
    trueSum count (exactPageRisks policy pages) = trueSum counted pages := by
  rw [trueSum, trueSum, exactPageRisks, List.map_map]
  exact congrArg List.sum (List.map_congr_left fun page _ => congrArg UInt32.toNat (same page _))

/-- What `evaluate_document` validates at its end does not depend on the build, and does not
panic, when the sums fit. -/
theorem validate_of_sumsFit {pages : List PageAssessment} (sums : SumsFit pages)
    {risk : DocumentRisk} {gates : HardGateEvaluation}
    (scored : risk.pageRisks = exactPageRisks policy pages) :
    risk.validate mode gates = risk.validate .panics gates ∧
      NoPanic (risk.validate mode gates) := by
  have p0 : trueSum PageRisk.p0Count risk.pageRisks < 2 ^ 32 := by
    rw [scored, trueSum_exactPageRisks fun _ _ => rfl]
    exact sums.p0
  have p1 : trueSum PageRisk.p1Count risk.pageRisks < 2 ^ 32 := by
    rw [scored, trueSum_exactPageRisks fun _ _ => rfl]
    exact sums.p1
  have p2 : trueSum PageRisk.p2Count risk.pageRisks < 2 ^ 32 := by
    rw [scored, trueSum_exactPageRisks fun _ _ => rfl]
    exact sums.p2
  constructor
  · simp only [DocumentRisk.validate, sumCounts_eq_ok p0, sumCounts_eq_ok p1, sumCounts_eq_ok p2]
  · refine (noPanic_checked _).bind fun _ _ => ?_
    refine (noPanic_of_eq_ok (sumCounts_eq_ok p0)).bind fun _ _ => ?_
    refine (noPanic_of_eq_ok (sumCounts_eq_ok p1)).bind fun _ _ => ?_
    refine (noPanic_of_eq_ok (sumCounts_eq_ok p2)).bind fun _ _ => ?_
    refine NoPanic.bind ?_ fun _ _ => (noPanic_checked _).bind fun _ _ => noPanic_checked _
    rw [refuseIf]
    split_ifs
    · exact noPanic_of_eq_error rfl
    · exact noPanic_of_eq_ok rfl

/-- The risk of a document whose sums and scores fit. -/
def exactRisk (policy : RiskPolicy) (qualification : QualificationSnapshot)
    (assessment : DocumentAssessment) (gates : HardGateEvaluation) : DocumentRisk :=
  let counts := exactTotals assessment.pages
  let pageRisks := exactPageRisks policy assessment.pages
  documentRisk policy qualification assessment counts gates pageRisks
    (exactDocumentReadiness pageRisks counts.p0 counts.p1)

/-- What `evaluate_document` does with inputs which are admitted and fit. -/
theorem evaluateDocument_of_fits (sha256Hex : Octets → Sha256Hex)
    (qualification : QualificationSnapshot) (nowUnix : UInt64) (valid : validateInputs policy assessment = .ok ())
    (sums : SumsFit assessment.pages) (scores : ScoresFit policy assessment.pages) :
    ∃ evaluationHash, ∀ mode,
      let gates : HardGateEvaluation :=
        { gates := hardGates policy qualification assessment nowUnix (exactTotals assessment.pages)
          evaluatedAtUnix := nowUnix, evaluationHash }
      let risk := exactRisk policy qualification assessment gates
      evaluateDocument sha256Hex mode policy qualification assessment nowUnix =
        risk.validate mode gates >>= fun _ => pure (risk, gates) := by
  have admitted : checked (validateInputs policy assessment) = .ok () := by
    rw [valid]
    rfl
  obtain ⟨evaluationHash, evaluated⟩ := exists_gateEvaluation sha256Hex policy qualification
    assessment nowUnix (exactTotals assessment.pages)
  have few : (exactPageRisks policy assessment.pages).length ≤ 100000 := by
    rw [exactPageRisks, List.length_map]
    exact length_le_of_validateInputs valid
  have hashed : checked (gateEvaluation sha256Hex (hardGates policy qualification assessment nowUnix
      (exactTotals assessment.pages)) nowUnix) = .ok
        { gates := hardGates policy qualification assessment nowUnix (exactTotals assessment.pages)
          evaluatedAtUnix := nowUnix, evaluationHash } := by
    rw [evaluated]
    rfl
  refine ⟨evaluationHash, fun mode => ?_⟩
  rw [evaluateDocument, admitted, ok_bind, totals_eq_ok sums, ok_bind, hashed, ok_bind,
    pageRisks_eq_ok scores, ok_bind,
    documentReadiness_eq_ok few (exactPageRisks_le policy assessment.pages), ok_bind]
  rfl

/-- An evaluation of admitted inputs whose sums or scores do not fit panics. -/
theorem evaluateDocument_panics (valid : validateInputs policy assessment = .ok ())
    (large : ¬ (SumsFit assessment.pages ∧ ScoresFit policy assessment.pages)) :
    evaluateDocument sha256Hex .panics policy qualification assessment nowUnix =
      .error .panicked := by
  have admitted : checked (validateInputs policy assessment) = .ok () := by
    rw [valid]
    rfl
  rw [evaluateDocument, admitted, ok_bind]
  by_cases sums : SumsFit assessment.pages
  · obtain ⟨evaluationHash, evaluated⟩ := exists_gateEvaluation sha256Hex policy qualification
      assessment nowUnix (exactTotals assessment.pages)
    have scores : ¬ ScoresFit policy assessment.pages := fun scores => large ⟨sums, scores⟩
    rw [totals_eq_ok sums, ok_bind, evaluated, checked, ok_bind, pageRisks_panic scores]
    rfl
  · rw [totals_panics sums]
    rfl

end Panics

/-! ## Results -/

section Soundness

variable {sha256Hex : Octets → Sha256Hex} {mode : Overflow} {policy : RiskPolicy}
  {qualification : QualificationSnapshot} {assessment : DocumentAssessment} {nowUnix : UInt64}
  {gates : HardGateEvaluation}

/-- What an evaluation must satisfy: a document is published automatically only when every
required gate passed, no page has a finding of P0 or P1, the findings of P2 are within the limit
of the policy, the qualification is current and the route is that of automatic approval; and a
page with a finding of P0 blocks the document. -/
structure Sound (policy : RiskPolicy) (qualification : QualificationSnapshot)
    (assessment : DocumentAssessment) (nowUnix : UInt64) (risk : DocumentRisk)
    (gates : HardGateEvaluation) : Prop where
  gatesPassed : risk.automaticPublishAllowed = true → ∀ name ∈ requiredHardGates,
    ∃ gate ∈ gates.gates, gate.gateId = name ∧ gate.passed = true
  noHighRisk : risk.automaticPublishAllowed = true →
    ∀ page ∈ assessment.pages, page.p0Count = 0 ∧ page.p1Count = 0
  withinLimit : risk.automaticPublishAllowed = true →
    trueSum PageAssessment.p2Count assessment.pages ≤ policy.autoP2Limit.toNat
  current : risk.automaticPublishAllowed = true → qualification.revoked = false ∧
    ∃ expiresAt, qualification.expiresAtUnix = some expiresAt ∧ nowUnix < expiresAt
  eligible : risk.automaticPublishAllowed = true → risk.route = .autoApprovalEligible
  blocked : (∃ page ∈ assessment.pages, 0 < page.p0Count) → risk.route = .blocked

/-- A sum of counts which fits is zero only when every count is. -/
theorem count_eq_zero {α : Type} {count : α → UInt32} {pages : List α}
    (fits : trueSum count pages < 2 ^ 32) (zero : UInt32.ofNat (trueSum count pages) = 0) :
    ∀ page ∈ pages, count page = 0 := by
  have none : trueSum count pages = 0 := by
    have same := congrArg UInt32.toNat zero
    rw [UInt32.toNat_ofNat', Nat.mod_eq_of_lt fits] at same
    exact same
  intro page among
  rw [trueSum, List.sum_eq_zero_iff] at none
  exact UInt32.toNat_inj.mp (none _ (List.mem_map_of_mem among))

/-- Every gate of the engine passed when none blocks. -/
theorem passed_of_allBlockingGatesPassed {counts : Totals}
    (engine : gates.gates = hardGates policy qualification assessment nowUnix counts)
    (free : gates.allBlockingGatesPassed = true) : ∀ gate ∈ gates.gates, gate.passed = true := by
  intro gate among
  have here := List.all_eq_true.mp free gate among
  rw [engine] at among
  rw [(wellFormed_hardGates gate among).blocking, Bool.not_true, Bool.or_false] at here
  exact here

theorem route_exactRisk : (exactRisk policy qualification assessment gates).route =
    routeDocument gates assessment policy
      (exactRisk policy qualification assessment gates).automaticPublishAllowed
      (exactTotals assessment.pages) := rfl

/-- The risk of a document whose sums fit is sound. -/
theorem sound_exactRisk (sums : SumsFit assessment.pages)
    (engine : gates.gates = hardGates policy qualification assessment nowUnix
      (exactTotals assessment.pages)) :
    Sound policy qualification assessment nowUnix (exactRisk policy qualification assessment gates)
      gates := by
  have decided (automatic : (exactRisk policy qualification assessment
      gates).automaticPublishAllowed = true) :
      (∀ gate ∈ gates.gates, gate.passed = true) ∧
        (exactTotals assessment.pages).admitted policy = true := by
    rw [exactRisk, documentRisk] at automatic
    dsimp only at automatic
    rw [Bool.and_eq_true, Bool.and_eq_true] at automatic
    exact ⟨passed_of_allBlockingGatesPassed engine automatic.1.2, automatic.2⟩
  have counts (admitted : (exactTotals assessment.pages).admitted policy = true) :
      (exactTotals assessment.pages).p0 = 0 ∧ (exactTotals assessment.pages).p1 = 0 ∧
        (exactTotals assessment.pages).p2 ≤ policy.autoP2Limit := by
    rw [Totals.admitted, Bool.and_eq_true, Bool.and_eq_true, beq_iff_eq, beq_iff_eq,
      decide_eq_true_eq, and_assoc] at admitted
    exact admitted
  exact
    { gatesPassed := fun automatic name required => by
        have ids : gates.gates.map HardGateResult.gateId = requiredHardGates := by
          rw [engine, gateIds_hardGates]
        rw [← ids] at required
        obtain ⟨gate, among, named⟩ := List.mem_map.mp required
        exact ⟨gate, among, named, (decided automatic).1 gate among⟩
      noHighRisk := fun automatic page among => by
        obtain ⟨p0, p1, _⟩ := counts (decided automatic).2
        exact ⟨count_eq_zero sums.p0 p0 page among, count_eq_zero sums.p1 p1 page among⟩
      withinLimit := fun automatic => by
        obtain ⟨_, _, limit⟩ := counts (decided automatic).2
        rw [UInt32.le_iff_toNat_le] at limit
        rwa [exactTotals, UInt32.toNat_ofNat', Nat.mod_eq_of_lt sums.p2] at limit
      current := fun automatic => by
        have first : gate "qualified_processing_chain"
            (qualification.qualifiedAt nowUnix assessment.ocrUsed) "processing_chain_not_qualified"
            qualification.qualificationReportSha256.toList ∈ gates.gates := by
          rw [engine, hardGates]
          exact List.mem_cons_self
        have qualified : qualification.qualifiedAt nowUnix assessment.ocrUsed = true :=
          (decided automatic).1 _ first
        simp only [QualificationSnapshot.qualifiedAt, Bool.and_eq_true, Bool.not_eq_true',
          Option.any_eq_true, decide_eq_true_eq] at qualified
        exact ⟨qualified.1.2, qualified.1.1.2⟩
      eligible := fun automatic => by
        have free : ¬ (0 < (exactTotals assessment.pages).p0 ∨ (gates.gates.any fun gate =>
            !gate.passed && !reviewGates.contains gate.gateId) = true) := by
          rintro (found | failed)
          · rw [(counts (decided automatic).2).1] at found
            exact absurd found (by decide)
          · obtain ⟨gate, among, failed⟩ := List.any_eq_true.mp failed
            rw [(decided automatic).1 gate among] at failed
            cases failed
        rw [route_exactRisk, routeDocument, if_neg free, automatic]
        rfl
      blocked := fun ⟨page, among, found⟩ => by
        have some : 0 < (exactTotals assessment.pages).p0 := by
          rw [UInt32.pos_iff_ne_zero]
          intro none
          rw [count_eq_zero sums.p0 none page among] at found
          exact absurd found (by decide)
        rw [route_exactRisk, routeDocument, if_pos (.inl some)] }

/-- For all inputs the evaluation panics in no build and wraps in none, and every decision is sound,
exactly when the inputs are refused or the counts of P0, P1 and P2, of detector conflicts and of
cluster inconsistencies each add up to less than `2 ^ 32` and on no page more than `2 ^ 31 + 100`
is subtracted from the score. -/
theorem automatic_publication_is_sound_iff (sha256Hex : Octets → Sha256Hex) (policy : RiskPolicy)
    (qualification : QualificationSnapshot) (assessment : DocumentAssessment) (nowUnix : UInt64) :
    (evaluateDocument sha256Hex .panics policy qualification assessment nowUnix ≠
        .error .panicked ∧
      evaluateDocument sha256Hex .wraps policy qualification assessment nowUnix =
        evaluateDocument sha256Hex .panics policy qualification assessment nowUnix ∧
      ∀ mode risk gates,
        evaluateDocument sha256Hex mode policy qualification assessment nowUnix =
          .ok (risk, gates) → Sound policy qualification assessment nowUnix risk gates) ↔
    (validateInputs policy assessment = .ok () →
      SumsFit assessment.pages ∧ ScoresFit policy assessment.pages) := by
  constructor
  · rintro ⟨returned, _, _⟩ valid
    by_contra large
    exact returned (evaluateDocument_panics valid large)
  · intro bounded
    cases admitted : validateInputs policy assessment with
    | error error =>
        have refused (mode : Overflow) :
            evaluateDocument sha256Hex mode policy qualification assessment nowUnix =
              .error (.refused error) := by
          rw [evaluateDocument, admitted]
          rfl
        refine ⟨?_, (refused .wraps).trans (refused .panics).symm, fun mode risk gates done => ?_⟩
        · rw [refused]
          exact nofun
        · rw [refused] at done
          cases done
    | ok passed =>
        obtain ⟨sums, scores⟩ := bounded admitted
        obtain ⟨evaluationHash, evaluated⟩ := evaluateDocument_of_fits sha256Hex qualification
          nowUnix admitted sums scores
        refine ⟨?_, ?_, fun mode risk gates done => ?_⟩
        · rw [evaluated]
          exact (validate_of_sumsFit sums rfl).2.bind fun _ _ => nofun
        · rw [evaluated, evaluated, (validate_of_sumsFit sums rfl).1]
        · rw [evaluated] at done
          obtain ⟨_, _, done⟩ := bind_eq_ok.mp done
          cases done
          exact sound_exactRisk sums rfl

/-- A hash of the samples. -/
def sampleHash : Sha256Hex := ⟨List.replicate 64 '0', by decide⟩

theorem confidence_fits : (900000 : UInt32) ≤ 1000000 := by decide

theorem coverage_fits : (950000 : UInt32) ≤ 1000000 := by decide

/-- A policy which allows automatic publication. -/
def automaticPolicy : RiskPolicy :=
  { policyId := "strict".toList, policyVersion := 1, policySha256 := sampleHash
    minimumOcrConfidencePpm := ⟨900000, confidence_fits⟩, minimumOcrCoveragePpm := ⟨950000, coverage_fits⟩
    maximumQuickReviewP2 := 2, autoApprovalMode := .balanced, productionAutomaticEnabled := true
    calibratedForAutomatic := true, calibrationEvidenceSha256 := some sampleHash
    organizationAllowsAutomatic := true }

/-- A qualification which holds until 10000. -/
def currentQualification : QualificationSnapshot :=
  { qualificationReportId := some "qualification-v1".toList
    qualificationReportSha256 := some sampleHash
    processingChainQualified := true, exactWorkerModelMatch := true
    networkIsolationEnforced := true, modelManifestTrustEstablished := true
    productionCaseOcrAuthorized := true, expiresAtUnix := some 10000, revoked := false }

/-- A page with this many findings of P0 and nothing else. -/
def pageOfFindings (pageIndex p0Count : UInt32) : PageAssessment :=
  { pageIndex, p0Count, p1Count := 0, p2Count := 0, p3Count := 0, ocrUsed := false
    ocrMinPpm := none, ocrMeanPpm := none, ocrP10Ppm := none
    coveragePpm := ⟨990000, by decide⟩, unknownLongNumberCount := 0
    unresolvedEntityCounts := fun _ => none, unresolvedVisualRisks := []
    completenessPassed := true, detectorConflictCount := 0, clusterInconsistencyCount := 0
    reasonCodes := [] }

/-- A document of two pages with `2 ^ 31` findings of P0 each. -/
def crowdedDocument : DocumentAssessment :=
  { pages := [pageOfFindings 0 0x80000000, pageOfFindings 1 0x80000000]
    findingSummaryHash := sampleHash, dictionaryEntitiesStable := true
    deterministicHighRiskFieldsResolved := true, independentResidualScanPassed := true
    independentResidualScanHash := some sampleHash, provenanceReceiptable := true
    provenanceHash := some sampleHash, publicationTargetFixed := true
    publicationTargetHash := some sampleHash, requestedApprovalRoute := .automatic
    calibrationEvidenceVersion := some "v1".toList }

/-- The wrapping build publishes a document automatically although its pages have findings of P0,
and the checking build panics on it. -/
theorem findings_of_p0_are_published_automatically :
    (¬ ∀ mode risk gates,
      evaluateDocument (fun _ => sampleHash) mode automaticPolicy currentQualification
        crowdedDocument 9 = .ok (risk, gates) →
      Sound automaticPolicy currentQualification crowdedDocument 9 risk gates) ∧
    evaluateDocument (fun _ => sampleHash) .panics automaticPolicy currentQualification
      crowdedDocument 9 = .error .panicked := by
  constructor
  · intro sound
    have published : (evaluateDocument (fun _ => sampleHash) .wraps automaticPolicy
        currentQualification crowdedDocument 9).toOption.any (fun decision =>
          decision.1.automaticPublishAllowed) = true := by
      decide +kernel
    obtain ⟨⟨risk, gates⟩, returned, automatic⟩ := any_toOption published
    have none := (sound .wraps risk gates returned).noHighRisk automatic _ List.mem_cons_self
    exact absurd none.1 (by decide)
  · have valid : (validateInputs automaticPolicy crowdedDocument).toOption.isSome = true := by
      decide +kernel
    refine evaluateDocument_panics ?_ ?_
    · cases admitted : validateInputs automaticPolicy crowdedDocument with
      | ok passed => rfl
      | error error =>
          rw [admitted] at valid
          cases valid
    · rintro ⟨sums, _⟩
      exact absurd sums.p0 (by decide +kernel)

end Soundness

end LawyerAssistance.Privacy
