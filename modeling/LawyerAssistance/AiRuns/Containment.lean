import LawyerAssistance.AiRuns.Operations

/-!
# What a context contains

Containment of manifests is reflexive, a replacement gives every context its shape, and a run
whose manifest a replacement does not contain any more has a relation to a source which was
removed or changed.
-/

namespace LawyerAssistance.AiRuns

open Storage

/-! ## Containment -/

section Containment

variable {current required : AiContextManifest}

/-- The three parts of containment. -/
theorem contextContainsManifest_iff :
    contextContainsManifest current required = true ↔
      (∀ item ∈ required.materials, item ∈ current.materials) ∧
      (∀ item ∈ required.attachmentIds, item ∈ current.attachmentIds) ∧
      ∀ needed ∈ manifestContextRanges required, ∃ available ∈ manifestContextRanges current,
        rangeSelectionContains available needed = true := by
  simp only [contextContainsManifest, Bool.and_eq_true, List.all_eq_true, List.any_eq_true,
    List.contains_iff_mem, and_assoc]

theorem key_eq_of_contains {available needed : AiContextRangeSelection}
    (contains : rangeSelectionContains available needed = true) : available.key = needed.key := by
  rw [rangeSelectionContains, Bool.and_eq_true, beq_iff_eq] at contains
  exact contains.1

/-- A selection contains itself. -/
theorem rangeSelectionContains_self (range : AiContextRangeSelection) :
    rangeSelectionContains range range = true := by
  have intervals : intervalSetContains range.ranges range.ranges = true := by
    rw [intervalSetContains, List.all_eq_true]
    intro item member
    exact List.any_eq_true.mpr ⟨item, member, by simp⟩
  by_cases all : range.mode = "all"
  · simp [rangeSelectionContains, all]
  · simp [rangeSelectionContains, all, intervals]

theorem contextContainsManifest_self (manifest : AiContextManifest) :
    contextContainsManifest manifest manifest = true :=
  contextContainsManifest_iff.mpr ⟨fun _ member => member, fun _ member => member,
    fun range member => ⟨range, member, rangeSelectionContains_self range⟩⟩

/-- Containment reads the sources and the ranges of the current manifest only. -/
theorem contextContainsManifest_congr {other : AiContextManifest}
    (materials : other.materials = current.materials)
    (attachments : other.attachmentIds = current.attachmentIds)
    (ranges : other.contextRanges = current.contextRanges) :
    contextContainsManifest other required = contextContainsManifest current required := by
  simp only [contextContainsManifest, manifestContextRanges, materials, attachments, ranges]

end Containment

/-! ## The shape of a context -/

section Shape

variable {materials : List AiMaterialReference} {attachmentIds : List String}

theorem sortRanges_perm (ranges : List AiContextRangeSelection) : (sortRanges ranges).Perm ranges :=
  List.perm_insertionSort _ _

/-- What checked materials are. -/
theorem checkMaterials_eq_ok {present : String → Except String Unit} {result : Unit}
    {seen : List AiMaterialReference} (checked : checkMaterials present seen materials = .ok result) :
    materials.Nodup ∧ (∀ material ∈ materials, material ∉ seen) ∧
      ∀ material ∈ materials, material.id ≠ "" ∧ material.source ≠ "" := by
  induction materials generalizing seen with
  | nil => simp
  | cons material rest inductionHypothesis =>
      obtain ⟨admitted, checked⟩ := refuseIf_bind_eq_ok.mp checked
      obtain ⟨_, _, checked⟩ := bind_eq_ok.mp checked
      obtain ⟨distinct, unseen, nonempty⟩ := inductionHypothesis checked
      obtain ⟨valid, known, fresh⟩ : validSourceId material.id ≠ false ∧
          ¬ (material.source ≠ "redacted" ∧ material.source ≠ "original") ∧ material ∉ seen := by
        simpa only [not_or] using admitted
      have id : material.id ≠ "" := by
        rintro empty
        rw [empty] at valid
        exact valid rfl
      have source : material.source ≠ "" := by
        intro empty
        rw [empty] at known
        exact known ⟨by decide, by decide⟩
      refine ⟨List.nodup_cons.mpr ⟨fun member => unseen material member List.mem_cons_self, distinct⟩,
        List.forall_mem_cons.mpr ⟨fresh, fun other member seenOther =>
          unseen other member (List.mem_cons_of_mem _ seenOther)⟩,
        List.forall_mem_cons.mpr ⟨⟨id, source⟩, nonempty⟩⟩

/-- What checked attachments are. -/
theorem checkAttachments_eq_ok {present : String → Except String Unit} {result : Unit}
    {seen : List String} (checked : checkAttachments present seen attachmentIds = .ok result) :
    attachmentIds.Nodup ∧ (∀ id ∈ attachmentIds, id ∉ seen) ∧ ∀ id ∈ attachmentIds, id ≠ "" := by
  induction attachmentIds generalizing seen with
  | nil => simp
  | cons id rest inductionHypothesis =>
      obtain ⟨admitted, checked⟩ := refuseIf_bind_eq_ok.mp checked
      obtain ⟨_, _, checked⟩ := bind_eq_ok.mp checked
      obtain ⟨distinct, unseen, nonempty⟩ := inductionHypothesis checked
      obtain ⟨valid, fresh⟩ := not_or.mp admitted
      have present : id ≠ "" := by
        rintro rfl
        exact valid rfl
      exact ⟨List.nodup_cons.mpr ⟨fun member => unseen id member List.mem_cons_self, distinct⟩,
        List.forall_mem_cons.mpr ⟨fresh, fun other member seenOther =>
          unseen other member (List.mem_cons_of_mem _ seenOther)⟩,
        List.forall_mem_cons.mpr ⟨present, nonempty⟩⟩

/-- What a checked shape is. -/
theorem checkShape_eq_ok {present : String → String → Except String Unit} {result : Unit}
    (checked : checkShape present materials attachmentIds = .ok result) :
    materials.Nodup ∧ attachmentIds.Nodup ∧
      (∀ material ∈ materials, material.id ≠ "" ∧ material.source ≠ "") ∧
      ∀ id ∈ attachmentIds, id ≠ "" := by
  obtain ⟨_, checked⟩ := refuseIf_bind_eq_ok.mp checked
  obtain ⟨_, first, second⟩ := bind_eq_ok.mp checked
  obtain ⟨distinct, _, nonempty⟩ := checkMaterials_eq_ok first
  obtain ⟨distinct', _, nonempty'⟩ := checkAttachments_eq_ok second
  exact ⟨distinct, distinct', nonempty, nonempty'⟩

/-- The implicit selections are of the sources of the manifest. -/
theorem names_of_mem_implicit {manifest : AiContextManifest} {range : AiContextRangeSelection}
    (member : range ∈ implicitContextRanges manifest.materials manifest.attachmentIds) :
    manifest.names range.key := by
  obtain inMaterials | inAttachments := List.mem_append.mp ((sortRanges_perm _).mem_iff.mp member)
  · obtain ⟨material, named, rfl⟩ := List.mem_map.mp inMaterials
    exact .inl ⟨material, named, rfl⟩
  · obtain ⟨attachmentId, named, rfl⟩ := List.mem_map.mp inAttachments
    exact .inr ⟨attachmentId, named, rfl⟩

/-- Distinct sources have distinct implicit selections. -/
theorem nodup_key_implicit (distinct : materials.Nodup) (distinct' : attachmentIds.Nodup) :
    ((implicitContextRanges materials attachmentIds).map AiContextRangeSelection.key).Nodup := by
  refine ((sortRanges_perm _).map _).nodup_iff.mpr ?_
  rw [List.map_append, List.map_map, List.map_map]
  refine List.nodup_append.mpr ⟨distinct.map ?_, distinct'.map ?_, ?_⟩
  · rintro ⟨id, source⟩ ⟨id', source'⟩ same
    simp only [Function.comp_apply, materialRange, AiContextRangeSelection.key, Prod.mk.injEq,
      Option.some.injEq, true_and] at same
    obtain ⟨rfl, rfl⟩ := same
    rfl
  · intro id id' same
    exact congrArg (fun key : RangeKey => key.2.1) same
  · intro key inMaterials other inAttachments same
    obtain ⟨material, _, rfl⟩ := List.mem_map.mp inMaterials
    obtain ⟨attachmentId, _, rfl⟩ := List.mem_map.mp inAttachments
    exact absurd (congrArg Prod.fst same) (by simp [materialRange, attachmentRange,
      AiContextRangeSelection.key])

/-- Grouped selections are one of each source, and their sources are expected. -/
theorem groupRange_keys {expected : List RangeKey} {grouped next : List AiContextRangeSelection}
    {range : AiContextRangeSelection} (grouping : groupRange expected grouped range = .ok next)
    (once : (grouped.map AiContextRangeSelection.key).Nodup)
    (within : ∀ item ∈ grouped, item.key ∈ expected) :
    (next.map AiContextRangeSelection.key).Nodup ∧ ∀ item ∈ next, item.key ∈ expected := by
  obtain ⟨admitted, grouping⟩ := refuseIf_bind_eq_ok.mp grouping
  have known : range.key ∈ expected := by
    by_contra unknown
    exact admitted (.inl unknown)
  split at grouping
  · obtain ⟨_, grouping⟩ := refuseIf_bind_eq_ok.mp grouping
    cases grouping
    have keys : (grouped.map fun item => if item.key = range.key then
        { item with ranges := item.ranges ++ range.ranges } else item).map
          AiContextRangeSelection.key = grouped.map AiContextRangeSelection.key := by
      rw [List.map_map]
      refine List.map_congr_left fun item _ => ?_
      rw [Function.comp_apply]
      split_ifs <;> rfl
    refine ⟨by rw [keys]; exact once, fun item member => ?_⟩
    have key : item.key ∈ grouped.map AiContextRangeSelection.key :=
      keys ▸ List.mem_map_of_mem member
    obtain ⟨original, inGrouped, same⟩ := List.mem_map.mp key
    exact same ▸ within original inGrouped
  · next absent =>
      cases grouping
      refine ⟨?_, fun item member => ?_⟩
      · rw [List.map_append, List.map_singleton, List.nodup_append]
        refine ⟨once, List.nodup_singleton _, fun key inGrouped other isNew same => ?_⟩
        rw [List.mem_singleton] at isNew
        obtain ⟨item, member, rfl⟩ := List.mem_map.mp inGrouped
        exact absurd (same.trans isNew) (by simpa using List.find?_eq_none.mp absent item member)
      · obtain inGrouped | isNew := List.mem_append.mp member
        · exact within item inGrouped
        · rw [List.mem_singleton.mp isNew]
          exact known

/-- All supplied selections are grouped. -/
theorem foldlM_groupRange_keys {expected : List RangeKey}
    {supplied grouped next : List AiContextRangeSelection}
    (grouping : supplied.foldlM (groupRange expected) grouped = .ok next)
    (once : (grouped.map AiContextRangeSelection.key).Nodup)
    (within : ∀ item ∈ grouped, item.key ∈ expected) :
    (next.map AiContextRangeSelection.key).Nodup ∧ ∀ item ∈ next, item.key ∈ expected := by
  induction supplied generalizing grouped with
  | nil =>
      cases grouping
      exact ⟨once, within⟩
  | cons range rest inductionHypothesis =>
      rw [List.foldlM_cons] at grouping
      obtain ⟨middle, first, grouping⟩ := bind_eq_ok.mp grouping
      obtain ⟨once', within'⟩ := groupRange_keys first once within
      exact inductionHypothesis grouping once' within'

/-- A canonical selection is of the same source. -/
theorem canonicalRange_key {services : Services} {range canonical : AiContextRangeSelection}
    (done : canonicalRange services range = .ok canonical) : canonical.key = range.key := by
  by_cases all : range.mode = "all"
  · rw [canonicalRange, if_pos all] at done
    obtain ⟨_, done⟩ := refuseIf_bind_eq_ok.mp done
    cases done
    rfl
  · rw [canonicalRange, if_neg all] at done
    obtain ⟨_, done⟩ := refuseIf_bind_eq_ok.mp done
    obtain ⟨_, _, done⟩ := bind_eq_ok.mp done
    obtain ⟨_, _, done⟩ := bind_eq_ok.mp done
    obtain ⟨_, done⟩ := refuseIf_bind_eq_ok.mp done
    cases done
    rfl

/-- Canonical selections are of the same sources. -/
theorem map_key_canonical {services : Services} {ranges canonical : List AiContextRangeSelection}
    (done : ranges.mapM (canonicalRange services) = .ok canonical) :
    canonical.map AiContextRangeSelection.key = ranges.map AiContextRangeSelection.key := by
  have pairs := mapM_eq_ok done
  clear done
  induction pairs with
  | nil => rfl
  | cons first _ inductionHypothesis =>
      rw [List.map_cons, List.map_cons, canonicalRange_key first, inductionHypothesis]

/-- A context which was checked has the shape. -/
theorem shaped_of_canonical {services : Services} {present : String → String → Except String Unit}
    {result : Unit} {supplied : List AiContextRangeSelection} {manifest : AiContextManifest}
    (checked : checkShape present manifest.materials manifest.attachmentIds = .ok result)
    (canonical : canonicalContextRangesMetadata services manifest.materials manifest.attachmentIds
      supplied = .ok manifest.contextRanges) : manifest.Shaped := by
  obtain ⟨distinct, distinct', nonempty, nonempty'⟩ := checkShape_eq_ok checked
  have implicit : ((implicitContextRanges manifest.materials manifest.attachmentIds).map
      AiContextRangeSelection.key).Nodup := nodup_key_implicit distinct distinct'
  suffices ranges : ∀ list, list = manifestContextRanges manifest →
      (list.map AiContextRangeSelection.key).Nodup ∧ ∀ range ∈ list, manifest.names range.key by
    obtain ⟨once, named⟩ := ranges _ rfl
    exact ⟨nonempty, nonempty', named, once⟩
  rintro _ rfl
  rw [manifestContextRanges]
  split_ifs with none
  · exact ⟨implicit, fun range member => names_of_mem_implicit member⟩
  obtain ⟨_, _, canonical⟩ := bind_eq_ok.mp canonical
  split_ifs at canonical with empty
  · rw [← Except.ok.inj canonical]
    exact ⟨implicit, fun range member => names_of_mem_implicit member⟩
  · obtain ⟨grouped, grouping, canonical⟩ := bind_eq_ok.mp canonical
    obtain ⟨_, canonical⟩ := refuseIf_bind_eq_ok.mp canonical
    obtain ⟨ranges, mapped, sorted⟩ := bind_eq_ok.mp canonical
    obtain ⟨once, within⟩ := foldlM_groupRange_keys grouping List.nodup_nil
      (fun _ member => nomatch member)
    have keys : (manifest.contextRanges.map AiContextRangeSelection.key).Perm
        (grouped.map AiContextRangeSelection.key) := by
      rw [← Except.ok.inj sorted]
      refine ((sortRanges_perm ranges).map _).trans ?_
      rw [map_key_canonical mapped]
      exact (sortRanges_perm grouped).map _
    refine ⟨keys.nodup_iff.mpr once, fun range member => ?_⟩
    obtain ⟨item, inGrouped, same⟩ := List.mem_map.mp
      (keys.mem_iff.mp (List.mem_map_of_mem member))
    obtain ⟨implied, inImplicit, same'⟩ := List.mem_map.mp (within item inGrouped)
    rw [← same, ← same']
    exact names_of_mem_implicit inImplicit

end Shape

/-! ## Relations of a run -/

section Relations

variable {run : AiRun} {manifest : AiContextManifest}

/-- The request of a run, as the index reads it. -/
def AiRun.requestValue (run : AiRun) : Json :=
  .object
    [("conversation_id", .ofOption run.request.conversationId),
      ("parent_id", .ofOption run.request.parentId),
      ("materials", .array (run.request.materials.map fun material =>
        .object [("id", .string material.id), ("source", .string material.source)])),
      ("attachment_ids", .array (run.request.attachmentIds.map .string))]

/-- The relations of the request are relations of the run. -/
theorem mem_relations {relation : Relation}
    (member : relation ∈ [("conversation", "conversation_id"), ("parent", "parent_id")].filterMap
        (relationField run.requestValue) ++
      relationPairs run.requestValue "material" "materials" ++
      relationPairs run.requestValue "attachment" "attachment_ids") :
    relation ∈ run.relations := by
  have request : (run.value.get? "request").getD .null = run.requestValue := rfl
  rw [AiRun.relations, relationsForValue, request]
  refine (List.perm_insertionSort _ _).mem_iff.mpr (List.mem_dedup.mpr ?_)
  rw [if_pos rfl]
  exact List.mem_append_right _ member

/-- A run is related to its conversation. -/
theorem conversation_mem_relations {conversationId : String} (nonempty : conversationId ≠ "")
    (inConversation : run.request.conversationId = some conversationId) :
    ("conversation", conversationId) ∈ run.relations := by
  have field : fieldString run.requestValue "conversation_id" = some conversationId := by
    have read : (run.requestValue.get? "conversation_id").bind Json.asStr = some conversationId := by
      simp [AiRun.requestValue, Json.get?, Json.ofOption, Json.asStr, inConversation]
    rw [fieldString, read]
    simp [nonempty]
  refine mem_relations (List.mem_append_left _ (List.mem_append_left _ ?_))
  exact List.mem_filterMap.mpr ⟨("conversation", "conversation_id"), List.mem_cons_self,
    by rw [relationField, field]; rfl⟩

/-- A run is related to the sources of its request. -/
theorem sourceRelation_mem_relations {key : RangeKey} (shaped : manifest.Shaped)
    (materials : run.request.materials = manifest.materials)
    (attachments : run.request.attachmentIds = manifest.attachmentIds)
    (named : manifest.names key) : sourceRelation key ∈ run.relations := by
  obtain ⟨material, member, rfl⟩ | ⟨attachmentId, member, rfl⟩ := named
  · obtain ⟨id, source⟩ := shaped.materials material member
    refine mem_relations (List.mem_append_left _ (List.mem_append_right _ ?_))
    have items : ((run.requestValue.get? "materials").bind Json.asArray) = some
        (manifest.materials.map fun material =>
          .object [("id", .string material.id), ("source", .string material.source)]) := by
      rw [← materials]
      rfl
    rw [relationPairs, items, Option.getD_some]
    refine List.mem_filterMap.mpr ⟨_, List.mem_map_of_mem member, ?_⟩
    have readId : fieldString (.object [("id", .string material.id),
        ("source", .string material.source)]) "id" = some material.id :=
      Option.filter_eq_some_iff.mpr ⟨rfl, by simpa using id⟩
    have readSource : fieldString (.object [("id", .string material.id),
        ("source", .string material.source)]) "source" = some material.source :=
      Option.filter_eq_some_iff.mpr ⟨rfl, by simpa using source⟩
    simp [relationPair, readId, readSource, source, sourceRelation]
  · have nonempty := shaped.attachments attachmentId member
    refine mem_relations (List.mem_append_right _ ?_)
    have items : ((run.requestValue.get? "attachment_ids").bind Json.asArray) =
        some (manifest.attachmentIds.map .string) := by
      rw [← attachments]
      rfl
    rw [relationPairs, items, Option.getD_some]
    refine List.mem_filterMap.mpr ⟨_, List.mem_map_of_mem member, ?_⟩
    simp [relationPair, nonempty, sourceRelation]

end Relations

end LawyerAssistance.AiRuns
