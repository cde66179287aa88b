import LawyerAssistance.AiRuns.Intervals

/-!
# The units of a manifest

A manifest requests the whole of a source, or pages or paragraphs of it. One canonical manifest
contains another one exactly when it selects every unit which the other one requests; the
inspection by which ranges were chosen is not compared.
-/

namespace LawyerAssistance.AiRuns

open Intervals

/-- A unit of a context: the whole of a source, or a page or paragraph of it by its number, as an
inspection of the source counts them. -/
structure ContextUnit where
  key : RangeKey
  part : Option (String × Nat)
  inspectionHash : Option String

/-- The units which a selection requests. -/
def AiContextRangeSelection.Requests (range : AiContextRangeSelection) (unit : ContextUnit) : Prop :=
  range.key = unit.key ∧ range.inspectionHash = unit.inspectionHash ∧
    if range.mode = "all" then unit.part = none
    else ∃ number, unit.part = some (range.mode, number) ∧ CoveredUnits range.ranges number

/-- The units which a selection admits: all those of a source, or those in its ranges. -/
def AiContextRangeSelection.Selects (range : AiContextRangeSelection) (unit : ContextUnit) : Prop :=
  range.key = unit.key ∧ (range.mode = "all" ∨
    ∃ number, unit.part = some (range.mode, number) ∧ CoveredUnits range.ranges number)

/-- The units which a manifest requests. -/
def AiContextManifest.Requests (manifest : AiContextManifest) (unit : ContextUnit) : Prop :=
  ∃ range ∈ manifestContextRanges manifest, range.Requests unit

/-- The units which a manifest selects. -/
def AiContextManifest.Selects (manifest : AiContextManifest) (unit : ContextUnit) : Prop :=
  ∃ range ∈ manifestContextRanges manifest, range.Selects unit

/-- The units which a manifest selects by the inspection by which they were requested. -/
def AiContextManifest.SelectsInspected (manifest : AiContextManifest) (unit : ContextUnit) : Prop :=
  ∃ range ∈ manifestContextRanges manifest, range.Selects unit ∧
    range.inspectionHash = unit.inspectionHash

/-- The form of a canonical selection. -/
inductive CanonicalSelection (range : AiContextRangeSelection) : Prop where
  | whole (mode : range.mode = "all")
  | parts (mode : range.mode ≠ "all") (nonempty : range.ranges ≠ [])
      (separated : SeparatedRanges range.ranges)

/-- A manifest in its canonical form: one selection of each of its sources. -/
structure CanonicalManifest (manifest : AiContextManifest) : Prop where
  named : ∀ key, key ∈ (manifestContextRanges manifest).map AiContextRangeSelection.key ↔
    manifest.names key
  once : ((manifestContextRanges manifest).map AiContextRangeSelection.key).Nodup
  selections : ∀ range ∈ manifestContextRanges manifest, CanonicalSelection range

/-! ## What the service accepts is canonical -/

section Accepted

variable {services : Services} {manifest : AiContextManifest}
  {range canonical : AiContextRangeSelection} {supplied : List AiContextRangeSelection}

theorem mem_map_key_implicit (key : RangeKey) :
    key ∈ (implicitContextRanges manifest.materials manifest.attachmentIds).map
      AiContextRangeSelection.key ↔ manifest.names key := by
  constructor
  · intro member
    obtain ⟨range, among, rfl⟩ := List.mem_map.mp member
    exact names_of_mem_implicit among
  · rintro (⟨material, named, rfl⟩ | ⟨attachmentId, named, rfl⟩)
    · refine List.mem_map.mpr ⟨materialRange material, (sortRanges_perm _).mem_iff.mpr ?_, rfl⟩
      exact List.mem_append_left _ (List.mem_map_of_mem named)
    · refine List.mem_map.mpr ⟨attachmentRange attachmentId, (sortRanges_perm _).mem_iff.mpr ?_, rfl⟩
      exact List.mem_append_right _ (List.mem_map_of_mem named)

theorem canonicalSelection_of_mem_implicit
    (member : range ∈ implicitContextRanges manifest.materials manifest.attachmentIds) :
    CanonicalSelection range := by
  obtain inMaterials | inAttachments := List.mem_append.mp ((sortRanges_perm _).mem_iff.mp member)
  · obtain ⟨_, _, rfl⟩ := List.mem_map.mp inMaterials
    exact .whole rfl
  · obtain ⟨_, _, rfl⟩ := List.mem_map.mp inAttachments
    exact .whole rfl

theorem canonicalSelection_of_canonicalRange (fits : ∀ unit ∈ range.ranges, unit.Fits)
    (done : canonicalRange services range = .ok canonical) : CanonicalSelection canonical := by
  by_cases all : range.mode = "all"
  · rw [canonicalRange, if_pos all] at done
    obtain ⟨_, done⟩ := refuseIf_bind_eq_ok.mp done
    cases done
    exact .whole all
  · rw [canonicalRange, if_neg all] at done
    obtain ⟨refused, done⟩ := refuseIf_bind_eq_ok.mp done
    obtain ⟨ranges, normalized, done⟩ := bind_eq_ok.mp done
    obtain ⟨_, _, done⟩ := bind_eq_ok.mp done
    obtain ⟨_, done⟩ := refuseIf_bind_eq_ok.mp done
    cases done
    obtain ⟨valid, separated, _, covers⟩ := (normalizeContextIntervals_eq_ok fits).mp normalized
    refine .parts all ?_ separated
    rintro rfl
    -- The first range which was supplied has a unit, and no unit is covered.
    obtain ⟨first, rest, same⟩ := List.exists_cons_of_ne_nil (not_or.mp refused).1
    have member : first ∈ range.ranges := same ▸ List.mem_cons_self
    exact covered_nil ((covers first.start).mpr
      ⟨first, member, Nat.le_refl _, (valid first member).ordered⟩)

/-- A manifest which the service accepts is canonical. -/
theorem canonicalManifest_of_accepted (fits : RangesFit supplied)
    (accepted : canonicalContextRangesMetadata services manifest.materials manifest.attachmentIds
      supplied = .ok manifest.contextRanges) : CanonicalManifest manifest := by
  obtain ⟨_, checked, ranges⟩ := bind_eq_ok.mp accepted
  obtain ⟨distinct, distinct', _⟩ := checkShape_eq_ok checked
  have implicit : manifestContextRanges manifest =
      implicitContextRanges manifest.materials manifest.attachmentIds →
      CanonicalManifest manifest := by
    intro same
    refine ⟨?_, ?_, ?_⟩ <;> rw [same]
    · exact mem_map_key_implicit
    · exact nodup_key_implicit distinct distinct'
    · exact fun range member => canonicalSelection_of_mem_implicit member
  by_cases none : manifest.contextRanges = []
  · exact implicit (if_pos none)
  have explicit : manifestContextRanges manifest = manifest.contextRanges := if_neg none
  split_ifs at ranges with empty
  · exact implicit (explicit.trans (Except.ok.inj ranges).symm)
  · obtain ⟨grouped, put, ranges⟩ := bind_eq_ok.mp ranges
    obtain ⟨complete, ranges⟩ := refuseIf_bind_eq_ok.mp ranges
    obtain ⟨canonical, done, ranges⟩ := bind_eq_ok.mp ranges
    have grouping : Grouping supplied grouped :=
      grouping_nil.run put
    have perm : (manifest.contextRanges.map AiContextRangeSelection.key).Perm
        (grouped.map AiContextRangeSelection.key) := by
      rw [← Except.ok.inj ranges]
      refine ((sortRanges_perm canonical).map _).trans ?_
      rw [map_key_canonical done]
      exact (sortRanges_perm grouped).map _
    refine ⟨fun key => ?_, ?_, fun range member => ?_⟩
    · rw [explicit, perm.mem_iff, mem_keys_of_complete put (not_not.mp complete),
        mem_map_key_implicit]
    · rw [explicit]
      exact perm.nodup_iff.mpr grouping.once
    · rw [explicit, ← Except.ok.inj ranges] at member
      obtain ⟨item, sorted, isCanonical⟩ := exists_of_forall₂_right (mapM_eq_ok done)
        ((sortRanges_perm _).mem_iff.mp member)
      refine canonicalSelection_of_canonicalRange ?_ isCanonical
      rw [grouping.ranges item ((sortRanges_perm _).mem_iff.mp sorted)]
      exact fits_of_mem_suppliedRanges fits

end Accepted

/-! ## Containment -/

section Containment

variable {current required middle : AiContextManifest} {available needed : AiContextRangeSelection}

theorem rangeSelectionContains_iff : rangeSelectionContains available needed = true ↔
    available.key = needed.key ∧ (available.mode = "all" ∨
      available.mode = needed.mode ∧ needed.mode ≠ "all" ∧ ∀ interval ∈ needed.ranges,
        ∃ other ∈ available.ranges, other.start ≤ interval.start ∧ interval.end ≤ other.end) := by
  simp only [rangeSelectionContains, intervalSetContains, Bool.and_eq_true, Bool.or_eq_true,
    beq_iff_eq, bne_iff_ne, List.all_eq_true, List.any_eq_true, decide_eq_true_eq, and_assoc]

/-- What a containing selection contains is contained. -/
theorem rangeSelectionContains_trans {range : AiContextRangeSelection}
    (outer : rangeSelectionContains range available = true)
    (inner : rangeSelectionContains available needed = true) :
    rangeSelectionContains range needed = true := by
  rw [rangeSelectionContains_iff] at outer inner ⊢
  refine ⟨outer.1.trans inner.1, ?_⟩
  obtain all | ⟨mode, partial_, intervals⟩ := outer.2
  · exact .inl all
  · obtain all | ⟨mode', partial', intervals'⟩ := inner.2
    · exact absurd all partial_
    · refine .inr ⟨mode.trans mode', partial', fun interval member => ?_⟩
      obtain ⟨other, among, above, below⟩ := intervals' interval member
      obtain ⟨outermost, among', above', below'⟩ := intervals other among
      exact ⟨outermost, among', above'.trans above, below.trans below'⟩

/-- What a contained manifest contains is contained. -/
theorem contextContainsManifest_trans (outer : contextContainsManifest current middle = true)
    (inner : contextContainsManifest middle required = true) :
    contextContainsManifest current required = true := by
  rw [contextContainsManifest_iff] at outer inner ⊢
  refine ⟨fun item member => outer.1 item (inner.1 item member),
    fun item member => outer.2.1 item (inner.2.1 item member), fun needed member => ?_⟩
  obtain ⟨available, among, contains⟩ := inner.2.2 needed member
  obtain ⟨range, amongCurrent, contains'⟩ := outer.2.2 available among
  exact ⟨range, amongCurrent, rangeSelectionContains_trans contains' contains⟩

/-- A canonical selection requests a unit. -/
theorem CanonicalSelection.exists_unit (canonical : CanonicalSelection needed) :
    ∃ unit, needed.Requests unit := by
  cases canonical with
  | whole mode =>
      refine ⟨⟨needed.key, none, needed.inspectionHash⟩, rfl, rfl, ?_⟩
      rw [if_pos mode]
  | parts mode nonempty separated =>
      obtain ⟨first, rest, same⟩ := List.exists_cons_of_ne_nil nonempty
      have member : first ∈ needed.ranges := same ▸ List.mem_cons_self
      refine ⟨⟨needed.key, some (needed.mode, first.start), needed.inspectionHash⟩, rfl, rfl, ?_⟩
      rw [if_neg mode]
      exact ⟨first.start, rfl, first, member, Nat.le_refl _, separated.ordered first member⟩

/-- A containing selection selects what is requested. -/
theorem selects_of_contains (contains : rangeSelectionContains available needed = true)
    {unit : ContextUnit} (requested : needed.Requests unit) : available.Selects unit := by
  obtain ⟨keys, all | ⟨mode, partial_, intervals⟩⟩ := rangeSelectionContains_iff.mp contains
  · exact ⟨keys.trans requested.1, .inl all⟩
  · refine ⟨keys.trans requested.1, .inr ?_⟩
    have parts := requested.2.2
    rw [if_neg partial_] at parts
    obtain ⟨number, part, interval, member, above, below⟩ := parts
    obtain ⟨other, among, above', below'⟩ := intervals interval member
    rw [mode]
    exact ⟨number, part, other, among, above'.trans above, below.trans below'⟩

/-- A selection which selects what is requested contains the request. -/
theorem contains_of_selects (canonical : CanonicalSelection available)
    (canonical' : CanonicalSelection needed)
    (selects : ∀ unit, needed.Requests unit → available.Selects unit) :
    rangeSelectionContains available needed = true := by
  obtain ⟨unit, requested⟩ := canonical'.exists_unit
  obtain ⟨keys, selected⟩ := selects unit requested
  refine rangeSelectionContains_iff.mpr ⟨keys.trans requested.1.symm, ?_⟩
  by_cases all : available.mode = "all"
  · exact .inl all
  · have isPart := selected.resolve_left all
    have parts := requested.2.2
    cases canonical with
    | whole mode => exact absurd mode all
    | parts _ _ separated =>
        cases canonical' with
        | whole mode =>
            -- The whole of a source is no part of it.
            rw [if_pos mode] at parts
            obtain ⟨_, part, _⟩ := isPart
            rw [parts] at part
            cases part
        | parts mode _ separated' =>
            rw [if_neg mode] at parts
            obtain ⟨_, part, _⟩ := parts
            obtain ⟨_, part', _⟩ := isPart
            have modes : available.mode = needed.mode := by
              rw [part] at part'
              exact (congrArg Prod.fst (Option.some.inj part')).symm
            refine .inr ⟨modes, mode, fun interval member => ?_⟩
            refine (separated.covers_interval_iff (separated'.ordered interval member)).mp
              fun number above below => ?_
            have requests : needed.Requests
                ⟨needed.key, some (needed.mode, number), needed.inspectionHash⟩ := by
              refine ⟨rfl, rfl, ?_⟩
              rw [if_neg mode]
              exact ⟨number, rfl, interval, member, above, below⟩
            obtain ⟨other, same, covered⟩ := (selects _ requests).2.resolve_left all
            obtain ⟨_, rfl⟩ := Prod.mk.inj (Option.some.inj same)
            exact covered

/-- Canonical manifests: what is requested is selected exactly when the manifest is contained. -/
theorem contextContainsManifest_iff_selects (canonical : CanonicalManifest current)
    (canonical' : CanonicalManifest required) :
    contextContainsManifest current required = true ↔
      ∀ unit, required.Requests unit → current.Selects unit := by
  rw [contextContainsManifest_iff]
  constructor
  · rintro ⟨_, _, ranges⟩ unit ⟨needed, member, requested⟩
    obtain ⟨available, among, contains⟩ := ranges needed member
    exact ⟨available, among, selects_of_contains contains requested⟩
  · intro selects
    -- The selection of a source which is requested is the only one of the current manifest.
    have selection {needed} (member : needed ∈ manifestContextRanges required) :
        ∃ available ∈ manifestContextRanges current, available.key = needed.key ∧
          ∀ unit, needed.Requests unit → available.Selects unit := by
      obtain ⟨unit, requested⟩ := (canonical'.selections needed member).exists_unit
      obtain ⟨available, among, keys, _⟩ := selects unit ⟨needed, member, requested⟩
      have sameKey := keys.trans requested.1.symm
      refine ⟨available, among, sameKey, fun other requestedToo => ?_⟩
      obtain ⟨available', among', selected⟩ := selects other ⟨needed, member, requestedToo⟩
      obtain rfl := List.inj_on_of_nodup_map canonical.once among' among
        ((selected.1.trans requestedToo.1.symm).trans sameKey.symm)
      exact selected
    have names {key : RangeKey} (named : required.names key) : current.names key := by
      obtain ⟨needed, member, rfl⟩ := List.mem_map.mp ((canonical'.named key).mpr named)
      obtain ⟨available, among, keys, _⟩ := selection member
      exact (canonical.named _).mp (List.mem_map.mpr ⟨available, among, keys⟩)
    refine ⟨fun item member => ?_, fun item member => ?_, fun needed member => ?_⟩
    · obtain ⟨material, among, same⟩ | ⟨_, _, same⟩ := names (.inl ⟨item, member, rfl⟩)
      · obtain ⟨id, source⟩ := item
        obtain ⟨id', source'⟩ := material
        simp only [Prod.mk.injEq, Option.some.injEq, true_and] at same
        obtain ⟨rfl, rfl⟩ := same
        exact among
      · exact absurd (congrArg Prod.fst same) (by simp)
    · obtain ⟨_, _, same⟩ | ⟨attachmentId, among, same⟩ := names (.inr ⟨item, member, rfl⟩)
      · exact absurd (congrArg Prod.fst same) (by simp)
      · have ids : item = attachmentId := congrArg (fun key : RangeKey => key.2.1) same
        exact ids ▸ among
    · obtain ⟨available, among, _, selectsAll⟩ := selection member
      exact ⟨available, among, contains_of_selects (canonical.selections available among)
        (canonical'.selections needed member) selectsAll⟩

/-- The messages of a turn of the history have manifests which the current one contains. -/
theorem contained_of_mem_history {messages : List ConversationMessage} {runId : String}
    (admitted : runId ∈ historyTurnIdsForContext messages current) :
    ∀ message ∈ messages, message.runId = some runId → ∃ manifest,
      message.contextManifest = some manifest ∧ contextContainsManifest current manifest = true := by
  intro message member turn
  have permitted := (List.mem_filter.mp admitted).2
  rw [permittedTurn, Bool.and_eq_true, List.all_eq_true] at permitted
  have inTurn : message ∈ turnMessages messages runId :=
    List.mem_filter.mpr ⟨member, beq_iff_eq.mpr turn⟩
  have allowed := permitted.2 message inTurn
  rw [permittedMessage, Bool.and_eq_true, Option.any_eq_true] at allowed
  exact allowed.2

/-- Containment of canonical manifests is selection of all units which are requested, whichever
inspection counted them; it is reflexive, transitive and monotone; and the history has only turns
whose manifests are contained. -/
theorem manifest_containment_is_unit_selection :
    (∀ current required, CanonicalManifest current → CanonicalManifest required →
      (contextContainsManifest current required = true ↔
        ∀ unit, required.Requests unit → current.Selects unit)) ∧
    (∀ manifest, contextContainsManifest manifest manifest = true) ∧
    (∀ current middle required, contextContainsManifest current middle = true →
      contextContainsManifest middle required = true →
      contextContainsManifest current required = true) ∧
    ∀ current messages runId, runId ∈ historyTurnIdsForContext messages current →
      ∀ message ∈ messages, message.runId = some runId → ∃ manifest,
        message.contextManifest = some manifest ∧
          contextContainsManifest current manifest = true :=
  ⟨fun _ _ canonical canonical' => contextContainsManifest_iff_selects canonical canonical',
    contextContainsManifest_self, fun _ _ _ => contextContainsManifest_trans,
    fun _ _ _ admitted => contained_of_mem_history admitted⟩

end Containment

/-! ## An inspection which is not compared -/

/-- A manifest of one paragraph of an attachment, as an inspection counted it. -/
def oneParagraph (inspectionHash : String) : AiContextManifest where
  revision := 1
  materials := []
  attachmentIds := ["a"]
  contextRanges := [⟨"attachment", "a", none, "paragraphs", [⟨1, 1⟩], some inspectionHash⟩]
  updatedAt := 0

theorem canonicalManifest_oneParagraph (inspectionHash : String) :
    CanonicalManifest (oneParagraph inspectionHash) := by
  refine ⟨fun key => ?_, List.nodup_singleton _, fun range member => ?_⟩
  · simp [manifestContextRanges, oneParagraph, AiContextManifest.names, AiContextRangeSelection.key]
  · obtain rfl := List.mem_singleton.mp member
    exact .parts (by simp) (by simp) ⟨by simp, List.pairwise_singleton _ _⟩

/-- The units of a canonical manifest are selected by itself. -/
theorem oneParagraph_contains_itself :
    ∀ unit, (oneParagraph "a").Requests unit → (oneParagraph "a").Selects unit :=
  (manifest_containment_is_unit_selection.1 _ _ (canonicalManifest_oneParagraph "a")
    (canonicalManifest_oneParagraph "a")).mp
      (manifest_containment_is_unit_selection.2.1 (oneParagraph "a"))

/-- A manifest contains one by another inspection, which counted other paragraphs. -/
theorem other_inspection_is_contained :
    CanonicalManifest (oneParagraph "new") ∧ CanonicalManifest (oneParagraph "old") ∧
    ¬ (contextContainsManifest (oneParagraph "new") (oneParagraph "old") = true ↔
      ∀ unit, (oneParagraph "old").Requests unit →
        (oneParagraph "new").SelectsInspected unit) := by
  refine ⟨canonicalManifest_oneParagraph _, canonicalManifest_oneParagraph _, fun exact_ => ?_⟩
  have contained : contextContainsManifest (oneParagraph "new") (oneParagraph "old") = true := by
    decide
  obtain ⟨range, member, _, same⟩ := exact_.mp contained
    ⟨("attachment", "a", none), some ("paragraphs", 1), some "old"⟩
    ⟨_, List.mem_singleton_self _, rfl, rfl, 1, rfl, ⟨1, 1⟩, List.mem_singleton_self _,
      Nat.le_refl _, Nat.le_refl _⟩
  obtain rfl := List.mem_singleton.mp member
  exact absurd same (by decide)

end LawyerAssistance.AiRuns
