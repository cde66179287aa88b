import LawyerAssistance.Privacy.ReviewSession
import LawyerAssistance.Privacy.RiskSoundness

/-!
# What a refresh computes

The pages of a session are counted anew from the findings and the hits, page by page: the counts
of a page depend on its index only, and the reasons of a page on those which it keeps. A refresh
is then the settled pages and one evaluation of them.
-/

namespace LawyerAssistance.Privacy

/-! ## Reasons -/

section Codes

variable {known codes : List Text}

/-- The reasons of a page after those of its hits. -/
def pushCodes (known codes : List Text) : List Text := codes.foldl pushCode known

/-- The reasons which a page keeps when it is reset. -/
def keptCodes (codes : List Text) : List Text := codes.filter fun reason => !isResidual reason

theorem mem_pushCode {code other : Text} : other ∈ pushCode known code ↔
    other ∈ known ∨ other = code := by
  rw [pushCode]
  split_ifs with seen
  · exact ⟨.inl, fun among => among.elim id fun same => same ▸ List.contains_iff_mem.mp seen⟩
  · rw [List.mem_append, List.mem_singleton]

end Codes

/-! ## Pages -/

section Pages

/-- The pages with an item which changes those with its index. -/
def changeAll {α : Type} (index : α → UInt32) (change : α → PageAssessment → PageAssessment)
    (items : List α) (page : PageAssessment) : PageAssessment :=
  (items.filter fun item => index item = page.pageIndex).foldl (fun page item => change item page)
    page

variable {α : Type} {index : α → UInt32} {change : α → PageAssessment → PageAssessment}
  {items : List α} {pages : List PageAssessment} {page other : PageAssessment}
  {error : ReviewSessionError}

theorem pageIndex_foldl (keeps : ∀ item page, (change item page).pageIndex = page.pageIndex)
    (items : List α) (page : PageAssessment) :
    (items.foldl (fun page item => change item page) page).pageIndex = page.pageIndex := by
  induction items generalizing page with
  | nil => rfl
  | cons item rest inductionHypothesis =>
      rw [List.foldl_cons, inductionHypothesis, keeps]

theorem pageIndex_changeAll (keeps : ∀ item page, (change item page).pageIndex = page.pageIndex)
    (items : List α) (page : PageAssessment) :
    (changeAll index change items page).pageIndex = page.pageIndex :=
  pageIndex_foldl keeps _ page

/-- The first page with an index is the only one. -/
theorem changePage_eq_some {pageIndex : UInt32} {change : PageAssessment → PageAssessment}
    {result : List PageAssessment} (distinct : (pages.map PageAssessment.pageIndex).Nodup) :
    changePage pageIndex change pages = some result ↔
      pageIndex ∈ pages.map PageAssessment.pageIndex ∧
        result = pages.map fun page =>
          if page.pageIndex = pageIndex then change page else page := by
  induction pages generalizing result with
  | nil => simp [changePage]
  | cons page rest inductionHypothesis =>
      rw [List.map_cons, List.nodup_cons] at distinct
      rw [changePage, List.map_cons, List.map_cons, List.mem_cons]
      split_ifs with here
      · have others : (rest.map fun page =>
            if page.pageIndex = pageIndex then change page else page) = rest := by
          refine (List.map_congr_left fun other among => if_neg fun same => ?_).trans
            (List.map_id rest)
          exact distinct.1 (here.trans same.symm ▸ List.mem_map_of_mem among)
        rw [others, Option.some_inj]
        exact ⟨fun same => ⟨.inl here.symm, same.symm⟩, fun same => same.2.symm⟩
      · rw [Option.map_eq_some_iff]
        constructor
        · rintro ⟨changed, found, rfl⟩
          obtain ⟨among, rfl⟩ := (inductionHypothesis distinct.2).mp found
          exact ⟨.inr among, rfl⟩
        · rintro ⟨among, rfl⟩
          exact ⟨_, (inductionHypothesis distinct.2).mpr
            ⟨among.resolve_left fun same => here same.symm, rfl⟩, rfl⟩

/-- Items which change the pages with their indices one after another. -/
theorem foldlM_changePage (keeps : ∀ item page, (change item page).pageIndex = page.pageIndex)
    {result : List PageAssessment} (distinct : (pages.map PageAssessment.pageIndex).Nodup) :
    items.foldlM (fun pages item =>
        presentOr (changePage (index item) (change item) pages) error) pages = .ok result ↔
      (∀ item ∈ items, index item ∈ pages.map PageAssessment.pageIndex) ∧
        result = pages.map (changeAll index change items) := by
  induction items generalizing pages with
  | nil =>
      rw [List.foldlM_nil]
      constructor
      · intro same
        cases same
        exact ⟨nofun, (List.map_id _).symm⟩
      · rintro ⟨_, rfl⟩
        exact congrArg Except.ok (List.map_id pages).symm
  | cons item rest inductionHypothesis =>
      set changed := pages.map fun page =>
        if page.pageIndex = index item then change item page else page with onePage
      have indices : changed.map PageAssessment.pageIndex = pages.map PageAssessment.pageIndex := by
        rw [onePage, List.map_map]
        refine List.map_congr_left fun page _ => ?_
        rw [Function.comp_apply]
        split_ifs
        · exact keeps item page
        · rfl
      have parts : changed.map (changeAll index change rest) =
          pages.map (changeAll index change (item :: rest)) := by
        rw [onePage, List.map_map]
        refine List.map_congr_left fun page _ => ?_
        rw [Function.comp_apply]
        split_ifs with here
        · rw [changeAll, changeAll, keeps, List.filter_cons_of_pos (by simpa using here.symm),
            List.foldl_cons]
        · rw [changeAll, changeAll,
            List.filter_cons_of_neg (by simpa using fun same => here (Eq.symm same))]
      rw [List.foldlM_cons, bind_eq_ok, List.forall_mem_cons, ← parts, ← indices]
      constructor
      · rintro ⟨middle, first, others⟩
        obtain ⟨among, rfl⟩ := (changePage_eq_some distinct).mp (presentOr_eq_ok.mp first)
        obtain ⟨each, rfl⟩ := (inductionHypothesis (by rwa [indices])).mp others
        exact ⟨⟨indices ▸ among, each⟩, rfl⟩
      · rintro ⟨⟨among, each⟩, rfl⟩
        exact ⟨changed, presentOr_eq_ok.mpr ((changePage_eq_some distinct).mpr
          ⟨indices ▸ among, rfl⟩), (inductionHypothesis (by rwa [indices])).mpr ⟨each, rfl⟩⟩

end Pages

/-! ## Settled pages -/

/-- What is counted of a page. -/
structure PageCounts where
  p0Count : UInt32
  p1Count : UInt32
  p2Count : UInt32
  p3Count : UInt32
  unknownLongNumberCount : UInt32
  unresolvedEntityCounts : EntityType → Option UInt32
  detectorConflictCount : UInt32
  clusterInconsistencyCount : UInt32
  deriving DecidableEq

/-- The counts of a page. -/
def PageAssessment.counts (page : PageAssessment) : PageCounts where
  p0Count := page.p0Count
  p1Count := page.p1Count
  p2Count := page.p2Count
  p3Count := page.p3Count
  unknownLongNumberCount := page.unknownLongNumberCount
  unresolvedEntityCounts := page.unresolvedEntityCounts
  detectorConflictCount := page.detectorConflictCount
  clusterInconsistencyCount := page.clusterInconsistencyCount

/-- The counts of a page which was reset. -/
def PageCounts.zero : PageCounts where
  p0Count := 0
  p1Count := 0
  p2Count := 0
  p3Count := 0
  unknownLongNumberCount := 0
  unresolvedEntityCounts := fun _ => none
  detectorConflictCount := 0
  clusterInconsistencyCount := 0

/-- A page with other counts and other reasons. -/
def PageAssessment.withCounts (page : PageAssessment) (counts : PageCounts)
    (reasonCodes : List Text) : PageAssessment :=
  { page with
    p0Count := counts.p0Count, p1Count := counts.p1Count, p2Count := counts.p2Count
    p3Count := counts.p3Count, unknownLongNumberCount := counts.unknownLongNumberCount
    unresolvedEntityCounts := counts.unresolvedEntityCounts
    detectorConflictCount := counts.detectorConflictCount
    clusterInconsistencyCount := counts.clusterInconsistencyCount, reasonCodes }

/-- A page with the counts and the reasons of the findings and the hits. -/
def settledPage (findings : List PrivacyFinding) (hits : List ResidualHit)
    (page : PageAssessment) : PageAssessment :=
  changeAll ResidualHit.pageIndex countHit hits
    (changeAll PrivacyFinding.pageIndex (countFinding findings) findings (resetPage page))

section Settled

variable {findings : List PrivacyFinding} {hits : List ResidualHit}
  {page other : PageAssessment} {counts : PageCounts} {codes : List Text}

/-- A finding which is not resolved is counted with regard to the counts only. -/
theorem countUnresolved_withCounts (finding : PrivacyFinding) (page other : PageAssessment)
    (counts : PageCounts) (codes others : List Text) :
    countConflict finding (countEntity finding (countSeverity finding
        (page.withCounts counts codes))) =
      page.withCounts (countConflict finding (countEntity finding (countSeverity finding
        (other.withCounts counts others)))).counts codes := by
  rw [countConflict, countConflict]
  cases severity : finding.severity
  all_goals
    simp only [countSeverity, countEntity, severity]
    split_ifs
    · rfl
    · rfl

/-- A finding is counted with regard to the counts only. -/
theorem countFinding_withCounts (findings : List PrivacyFinding) (finding : PrivacyFinding)
    (page other : PageAssessment) (counts : PageCounts) (codes others : List Text) :
    countFinding findings finding (page.withCounts counts codes) =
      page.withCounts (countFinding findings finding (other.withCounts counts others)).counts
        codes := by
  rw [countFinding, countFinding]
  by_cases unresolved : finding.unresolved = true
  · rw [if_pos unresolved, if_pos unresolved,
      countUnresolved_withCounts finding page other counts codes others,
      countUnresolved_withCounts finding other other counts others others]
    split_ifs
    · rfl
    · rfl
  · rw [if_neg unresolved, if_neg unresolved]
    split_ifs
    · rfl
    · rfl

/-- Findings are counted with regard to the counts only. -/
theorem foldl_countFinding (findings items : List PrivacyFinding) (page other : PageAssessment)
    (counts : PageCounts) (codes others : List Text) :
    items.foldl (fun page finding => countFinding findings finding page)
        (page.withCounts counts codes) =
      page.withCounts (items.foldl (fun page finding => countFinding findings finding page)
        (other.withCounts counts others)).counts codes := by
  induction items generalizing counts with
  | nil => rfl
  | cons finding rest inductionHypothesis =>
      rw [List.foldl_cons, List.foldl_cons,
        countFinding_withCounts findings finding page other counts codes others,
        countFinding_withCounts findings finding other other counts others others]
      exact inductionHypothesis _

/-- Hits are counted with regard to the counts only, and their reasons are added. -/
theorem foldl_countHit (items : List ResidualHit) (page other : PageAssessment)
    (counts : PageCounts) (codes others : List Text) :
    items.foldl (fun page hit => countHit hit page) (page.withCounts counts codes) =
      page.withCounts (items.foldl (fun page hit => countHit hit page)
        (other.withCounts counts others)).counts
        (pushCodes codes (items.map ResidualHit.reasonCode)) := by
  induction items generalizing counts codes others with
  | nil => rfl
  | cons hit rest inductionHypothesis =>
      have step (page : PageAssessment) (codes : List Text) :
          countHit hit (page.withCounts counts codes) = page.withCounts
            { counts with
              unknownLongNumberCount :=
                if hit.riskClass = .longDigitSequence then
                  saturatingNext counts.unknownLongNumberCount
                else counts.unknownLongNumberCount } (pushCode codes hit.reasonCode) := rfl
      rw [List.foldl_cons, List.foldl_cons, List.map_cons, step, step]
      exact inductionHypothesis _ _ _

/-- The reasons of the hits on a page. -/
def hitCodes (hits : List ResidualHit) (pageIndex : UInt32) : List Text :=
  (hits.filter fun hit => hit.pageIndex = pageIndex).map ResidualHit.reasonCode

/-- Hits on pages with one index are counted with regard to the counts only. -/
theorem changeAll_countHit (hits : List ResidualHit) (same : other.pageIndex = page.pageIndex)
    (counts : PageCounts) (codes others : List Text) :
    changeAll ResidualHit.pageIndex countHit hits (page.withCounts counts codes) =
      page.withCounts (changeAll ResidualHit.pageIndex countHit hits
        (other.withCounts counts others)).counts
        (pushCodes codes (hitCodes hits page.pageIndex)) := by
  rw [changeAll, changeAll, hitCodes,
    show (page.withCounts counts codes).pageIndex = page.pageIndex from rfl,
    show (other.withCounts counts others).pageIndex = other.pageIndex from rfl, same]
  exact foldl_countHit _ page other counts codes others

/-- Findings on pages with one index are counted with regard to the counts only. -/
theorem changeAll_countFinding (findings items : List PrivacyFinding)
    (same : other.pageIndex = page.pageIndex) (counts : PageCounts) (codes others : List Text) :
    changeAll PrivacyFinding.pageIndex (countFinding findings) items
        (page.withCounts counts codes) =
      page.withCounts (changeAll PrivacyFinding.pageIndex (countFinding findings) items
        (other.withCounts counts others)).counts codes := by
  rw [changeAll, changeAll,
    show (page.withCounts counts codes).pageIndex = page.pageIndex from rfl,
    show (other.withCounts counts others).pageIndex = other.pageIndex from rfl, same]
  exact foldl_countFinding findings _ page other counts codes others

/-- A settled page has the counts of any page with its index, and its own reasons and those of its
hits. -/
theorem settledPage_eq (findings : List PrivacyFinding) (hits : List ResidualHit)
    (same : other.pageIndex = page.pageIndex) : settledPage findings hits page =
      page.withCounts (settledPage findings hits other).counts
        (pushCodes (keptCodes page.reasonCodes) (hitCodes hits page.pageIndex)) := by
  have reset (page : PageAssessment) :
      resetPage page = page.withCounts .zero (keptCodes page.reasonCodes) := rfl
  rw [settledPage, settledPage, reset page, reset other,
    changeAll_countFinding findings findings same .zero _ (keptCodes other.reasonCodes),
    changeAll_countFinding findings findings (Eq.refl other.pageIndex) .zero _
      (keptCodes other.reasonCodes)]
  exact changeAll_countHit hits same _ _ _

@[simp] theorem pageIndex_settledPage :
    (settledPage findings hits page).pageIndex = page.pageIndex := by
  rw [settledPage_eq findings hits rfl]
  rfl

theorem reasonCodes_settledPage : (settledPage findings hits page).reasonCodes =
    pushCodes (keptCodes page.reasonCodes) (hitCodes hits page.pageIndex) := by
  rw [settledPage_eq findings hits rfl]
  rfl

theorem counts_settledPage_again :
    (settledPage findings hits (settledPage findings hits page)).counts =
      (settledPage findings hits page).counts := by
  rw [settledPage_eq findings hits pageIndex_settledPage.symm]
  rfl

/-- What `countPages` returns. -/
theorem countPages_eq_ok {pages result : List PageAssessment}
    (distinct : (pages.map PageAssessment.pageIndex).Nodup) :
    countPages findings hits pages = .ok result ↔
      (∀ finding ∈ findings, finding.pageIndex ∈ pages.map PageAssessment.pageIndex) ∧
      (∀ hit ∈ hits, hit.pageIndex ∈ pages.map PageAssessment.pageIndex) ∧
      (∀ page ∈ pages, (settledPage findings hits page).reasonCodes.length ≤ maxReasonCodes) ∧
      result = pages.map (settledPage findings hits) := by
  have findingKeeps (finding : PrivacyFinding) (page : PageAssessment) :
      (countFinding findings finding page).pageIndex = page.pageIndex := by
    have := countFinding_withCounts findings finding page page page.counts page.reasonCodes
      page.reasonCodes
    rw [show page.withCounts page.counts page.reasonCodes = page from rfl] at this
    rw [this]
    rfl
  have hitKeeps (hit : ResidualHit) (page : PageAssessment) :
      (countHit hit page).pageIndex = page.pageIndex := rfl
  have reset : (pages.map resetPage).map PageAssessment.pageIndex =
      pages.map PageAssessment.pageIndex := by
    rw [List.map_map]
    rfl
  have counted : ((pages.map resetPage).map (changeAll PrivacyFinding.pageIndex
      (countFinding findings) findings)).map PageAssessment.pageIndex =
      pages.map PageAssessment.pageIndex := by
    rw [List.map_map, ← reset]
    exact List.map_congr_left fun page _ => pageIndex_changeAll findingKeeps findings page
  have settledAll : ((pages.map resetPage).map (changeAll PrivacyFinding.pageIndex
      (countFinding findings) findings)).map (changeAll ResidualHit.pageIndex countHit hits) =
      pages.map (settledPage findings hits) := by
    rw [List.map_map, List.map_map]
    rfl
  rw [countPages, bind_eq_ok]
  constructor
  · rintro ⟨middle, first, rest⟩
    obtain ⟨each, rfl⟩ := (foldlM_changePage findingKeeps (by rwa [reset])).mp first
    obtain ⟨last, second, rest⟩ := bind_eq_ok.mp rest
    obtain ⟨eachHit, rfl⟩ := (foldlM_changePage hitKeeps (by rwa [counted])).mp second
    obtain ⟨few, rest⟩ := refuseIf_bind_eq_ok.mp rest
    cases rest
    rw [reset] at each
    rw [counted] at eachHit
    rw [settledAll] at few ⊢
    refine ⟨each, eachHit, fun page among => Nat.not_lt.mp fun long => few ?_, rfl⟩
    exact List.any_eq_true.mpr ⟨_, List.mem_map_of_mem among, decide_eq_true long⟩
  · rintro ⟨each, eachHit, few, rfl⟩
    refine ⟨_, (foldlM_changePage findingKeeps (by rwa [reset])).mpr ⟨by rwa [reset], rfl⟩,
      bind_eq_ok.mpr ⟨_, (foldlM_changePage hitKeeps (by rwa [counted])).mpr
        ⟨by rwa [counted], rfl⟩, ?_⟩⟩
    rw [settledAll]
    refine refuseIf_bind_eq_ok.mpr ⟨?_, rfl⟩
    rw [List.any_map, List.any_eq_true]
    rintro ⟨page, among, long⟩
    exact Nat.not_lt.mpr (few page among) (of_decide_eq_true long)

end Settled

/-! ## Admitted inputs -/

section Admitted

variable {policy : RiskPolicy} {assessment : DocumentAssessment} {pages : List PageAssessment}
  {findings : List PrivacyFinding} {hits : List ResidualHit}

end Admitted

/-! ## Refreshing -/

section Refresh

variable {sha256Hex : Octets → Sha256Hex} {mode : Overflow} {session next : ReviewSession}
  {nowUnix : UInt64}

/-- What a refresh requires of the findings, the hits and the pages of a session. -/
structure Countable (sha256Hex : Octets → Sha256Hex) (session : ReviewSession) : Prop where
  residual : validateResidual sha256Hex session.residualScan session.assessment.pages.length =
    .ok ()
  checked : session.checkFindings = .ok ()
  findingPages : ∀ finding ∈ session.findings,
    finding.pageIndex ∈ session.assessment.pages.map PageAssessment.pageIndex
  hitPages : ∀ hit ∈ session.residualScan.hits,
    hit.pageIndex ∈ session.assessment.pages.map PageAssessment.pageIndex
  few : ∀ page ∈ session.assessment.pages,
    (settledPage session.findings session.residualScan.hits page).reasonCodes.length ≤
      maxReasonCodes
  written : ∃ bytes, canonicalJsonV1 (PrivacyFinding.codec.list.write session.findings) = .ok bytes

/-- The encoding of findings which have one. -/
def findingBytes (findings : List PrivacyFinding) : Octets :=
  match canonicalJsonV1 (PrivacyFinding.codec.list.write findings) with
  | .ok bytes => bytes
  | .error _ => []

/-- The pages of a session after a refresh. -/
def settledPages (session : ReviewSession) : List PageAssessment :=
  session.assessment.pages.map (settledPage session.findings session.residualScan.hits)

/-- The assessment of a session after a refresh. -/
def settledAssessment (sha256Hex : Octets → Sha256Hex) (session : ReviewSession) :
    DocumentAssessment :=
  session.withPages sha256Hex (settledPages session) (findingBytes session.findings)

theorem nodup_of_checkFindings (passed : session.checkFindings = .ok ()) :
    (session.assessment.pages.map PageAssessment.pageIndex).Nodup := by
  obtain ⟨_, _, passed⟩ := bind_eq_ok.mp passed
  obtain ⟨_, passed⟩ := refuseIf_bind_eq_ok.mp passed
  exact not_not.mp (refuseIf_eq_ok.mp passed)

theorem settled_eq_ok {α : Type} {computed : Except ReviewSessionError α} {value : α} :
    settled computed = .ok value ↔ computed = .ok value := by
  cases computed with
  | ok other => exact ⟨fun same => by cases same; rfl, fun same => by cases same; rfl⟩
  | error error => exact ⟨nofun, nofun⟩

theorem evaluated_eq_ok {α : Type} {computed : Except (Fault VNextSchemaError) α} {value : α} :
    evaluated computed = .ok value ↔ computed = .ok value := by
  rcases computed with (_ | _) | other
  · exact ⟨nofun, nofun⟩
  · exact ⟨nofun, nofun⟩
  · exact ⟨fun same => by cases same; rfl, fun same => by cases same; rfl⟩

theorem checked_eq_ok {α : Type} {computed : Except VNextSchemaError α} {value : α} :
    checked computed = .ok value ↔ computed = .ok value := by
  cases computed with
  | ok other => exact ⟨fun same => by cases same; rfl, fun same => by cases same; rfl⟩
  | error error => exact ⟨nofun, nofun⟩

/-- A refresh is the settled assessment with one evaluation of it. -/
theorem refreshRisk_of_countable (time : nowUnix ≠ 0) (countable : Countable sha256Hex session) :
    session.refreshRisk sha256Hex mode nowUnix = (do
      let (risk, gates) ← evaluated (evaluateDocument sha256Hex mode session.riskPolicy
        session.qualification (settledAssessment sha256Hex session) nowUnix)
      pure { session with
        assessment := settledAssessment sha256Hex session, documentRisk := risk
        hardGateEvaluation := gates }) := by
  obtain ⟨bytes, written⟩ := countable.written
  have counted : countPages session.findings session.residualScan.hits session.assessment.pages =
      .ok (settledPages session) :=
    (countPages_eq_ok (nodup_of_checkFindings countable.checked)).mpr
      ⟨countable.findingPages, countable.hitPages, countable.few, rfl⟩
  have encoded : findingBytes session.findings = bytes := by rw [findingBytes, written]
  have started : (refuseIf (nowUnix = 0) (.refused .invalidInput) :
      Except (Fault ReviewSessionError) Unit) = .ok () := refuseIf_eq_ok.mpr time
  rw [ReviewSession.refreshRisk, started, ok_bind, settled_eq_ok.mpr countable.residual, ok_bind,
    settled_eq_ok.mpr countable.checked, ok_bind, settled_eq_ok.mpr counted, ok_bind,
    evaluated_eq_ok.mpr (checked_eq_ok.mpr written), ok_bind, settledAssessment, encoded]

/-- What a refresh which succeeds started from, and what it returned. -/
theorem refreshRisk_eq_ok : session.refreshRisk sha256Hex mode nowUnix = .ok next ↔
    nowUnix ≠ 0 ∧ Countable sha256Hex session ∧ ∃ risk gates,
      evaluateDocument sha256Hex mode session.riskPolicy session.qualification
        (settledAssessment sha256Hex session) nowUnix = .ok (risk, gates) ∧
      next = { session with
        assessment := settledAssessment sha256Hex session, documentRisk := risk
        hardGateEvaluation := gates } := by
  constructor
  · intro done
    have whole := done
    obtain ⟨time, done⟩ := refuseIf_bind_eq_ok.mp done
    obtain ⟨_, residual, done⟩ := bind_eq_ok.mp done
    obtain ⟨_, passed, done⟩ := bind_eq_ok.mp done
    obtain ⟨pages, counted, done⟩ := bind_eq_ok.mp done
    obtain ⟨bytes, written, done⟩ := bind_eq_ok.mp done
    have passed := settled_eq_ok.mp passed
    obtain ⟨findingPages, hitPages, few, rfl⟩ :=
      (countPages_eq_ok (nodup_of_checkFindings passed)).mp (settled_eq_ok.mp counted)
    have countable : Countable sha256Hex session :=
      ⟨settled_eq_ok.mp residual, passed, findingPages, hitPages, few,
        bytes, checked_eq_ok.mp (evaluated_eq_ok.mp written)⟩
    rw [refreshRisk_of_countable time countable] at whole
    obtain ⟨⟨risk, gates⟩, evaluation, same⟩ := bind_eq_ok.mp whole
    cases same
    exact ⟨time, countable, risk, gates, evaluated_eq_ok.mp evaluation, rfl⟩
  · rintro ⟨time, countable, risk, gates, done, rfl⟩
    rw [refreshRisk_of_countable time countable, evaluated_eq_ok.mpr done]
    rfl

end Refresh

end LawyerAssistance.Privacy
