import LawyerAssistance.PrivacyText.Overlaps
import Mathlib.Data.Char
import Mathlib.Data.List.Lex

/-!
# Aliases of organizations

A text may declare a short name of an organization next to its full name.
`apply_explicit_organization_aliases` gives both names one placeholder when exactly one full name is
declared for the short one and both are candidates. A short name of several full names stays for
review, and what the dictionary says about a name comes first.
-/

namespace LawyerAssistance.PrivacyText

attribute [local instance] lawfulBEq_text

/-! ## Placeholders -/

/-- `entity_alias_stem`. -/
def entityAliasStem : EntityType → String
  | .personName => "PERSON"
  | .organizationName => "ORG"
  | .caseNumber => "CASE"
  | .identityNumber => "ID"
  | .passportNumber => "PASSPORT"
  | .phoneNumber | .landlineNumber => "PHONE"
  | .bankAccount | .paymentAccount => "ACCOUNT"
  | .emailAddress => "EMAIL"
  | .address => "ADDRESS"
  | .organizationCode | .businessLicenseNumber => "ORGCODE"
  | .vehiclePlate => "PLATE"
  | .ipAddress => "IP"
  | .socialAccount => "SOCIAL"
  | .accountName => "ACCOUNTNAME"
  | .contractNumber => "CONTRACT"
  | .trackingNumber => "TRACKING"
  | .propertyCertificateNumber => "PROPERTY"
  | .custom => "CUSTOM"

/-- `alias_token`: a letter for each of the first ten digits of a digest. -/
def aliasToken (hexDigest : String) : Text :=
  (hexDigest.toList.take 10).map fun value =>
    if '0' ≤ value ∧ value ≤ '9' then Char.ofNat ('a'.toNat + (value.toNat - '0'.toNat))
    else if 'a' ≤ value ∧ value ≤ 'f' then Char.ofNat ('k'.toNat + (value.toNat - 'a'.toNat))
    else 'z'

/-- `stable_alias`, over `sha256_hex`. -/
def stableAlias (sha256Hex : Octets → String) (namespaceText : Text) (kind : EntityType)
    (value : Text) : Text :=
  '[' :: ((entityAliasStem kind).toList ++ '_' :: (aliasToken (sha256Hex (hashMaterial
    [utf8 "privacy-text-alias-v1", textBytes namespaceText, utf8 (entityKind kind),
      textBytes (normalizeSensitiveText value)])) ++ [']']))

/-! ## Declarations -/

/-- The short names which a text declares, each with its full name. The captures are those of
`ORGANIZATION_ALIAS_PATTERN`: the full and the short name. -/
def declaredNames (captures : List (Text × Text)) : List (Text × Text) :=
  (captures.map fun (full, short) => (Text.trim short, Text.trim full)).filter
    fun (short, full) => full ≠ short && safeTerm full && safeTerm short

/-- The full names which are declared for a short one. -/
def fullNames (declared : List (Text × Text)) (short : Text) : List Text :=
  ((declared.filter fun pair => pair.1 = short).map Prod.snd).dedup

/-- The short names, in their order. -/
def shortNames (declared : List (Text × Text)) : List Text :=
  ((declared.map Prod.fst).dedup).mergeSort fun left right => left ≤ right

/-- The text of a candidate. -/
def Candidate.value (text : Text) (candidate : Candidate) : Option Text :=
  Text.slice text candidate.start candidate.end

/-- The names of organizations which are candidates. -/
def organizationValues (text : Text) (candidates : List Candidate) : List Text :=
  (candidates.filter fun candidate => candidate.kind = .organizationName).filterMap
    (Candidate.value text)

/-- The placeholders which the dictionary has for a name. -/
def dictionaryAliases (text : Text) (candidates : List Candidate) (name : Text) : List Text :=
  ((candidates.filter fun candidate => candidate.kind = .organizationName &&
    candidate.source = .dictionary && candidate.value text = some name).map Candidate.alias).dedup

section Aliases

variable (sha256Hex : Octets → String) (text namespaceText : Text) (declared : List (Text × Text))
  (candidates : List Candidate)

/-- The placeholder of a full name: that of the dictionary, or a stable one. Several placeholders of
the dictionary are a conflict. -/
def canonicalAlias (full : Text) : Option Text :=
  match dictionaryAliases text candidates full with
  | [] => some (stableAlias sha256Hex namespaceText .organizationName full)
  | [only] => some only
  | _ => none

/-- The placeholders of names, the last ones first, and the short names of several full names. -/
structure AliasState where
  canonical : List (Text × Text)
  ambiguous : List Text

/-- The loop over the short names. -/
def declareShortName (state : AliasState) (short : Text) : AliasState :=
  match fullNames declared short with
  | [] => state
  | [full] =>
      if full ∈ organizationValues text candidates ∧ short ∈ organizationValues text candidates then
        match canonicalAlias sha256Hex text namespaceText candidates full with
        | some canonical =>
            { state with canonical := (short, canonical) :: (full, canonical) :: state.canonical }
        | none => state
      else state
  | _ => { state with ambiguous := state.ambiguous ++ [short] }

/-- The placeholders of the declared names. -/
def declaredAliases : AliasState :=
  (shortNames declared).foldl (declareShortName sha256Hex text namespaceText declared candidates)
    ⟨[], []⟩

/-- The loop over the candidates. -/
def applyAlias (canonical : List (Text × Text)) (candidate : Candidate) :
    Except TextError Candidate :=
  if candidate.kind ≠ .organizationName ∨ candidate.source = .dictionary then .ok candidate
  else do
    let value ← presentOr (candidate.value text) .analysisFailed
    match canonical.lookup value with
    | some canonical => .ok { candidate with «alias» := canonical }
    | none => .ok candidate

/-- `apply_explicit_organization_aliases`: the candidates, and the short names of several full
names. -/
def applyExplicitOrganizationAliases (captures : List (Text × Text)) :
    Except TextError (List Candidate × List Text) := do
  let declared := declaredNames captures
  if declared = [] then .ok (candidates, [])
  else do
    let state := declaredAliases sha256Hex text namespaceText declared candidates
    let applied ← candidates.mapM (applyAlias text state.canonical)
    .ok (applied, state.ambiguous)

end Aliases

/-- The groups which an analysis reports: those of the candidates with the aliases which the text
declares. -/
def aliasedGroups (scanner : Scanner) (captures : List (Text × Text)) (text namespaceText : Text)
    (candidates : List Candidate) (dismissed : List String) : Except TextError (List Group) := do
  let (applied, ambiguous) ← applyExplicitOrganizationAliases scanner.sha256Hex text namespaceText
    candidates captures
  let groups ← groupsOf scanner text namespaceText applied dismissed ambiguous
  .ok (settledGroups text groups)

/-! ## What the placeholders mean -/

section Meaning

variable (sha256Hex : Octets → String) (text namespaceText : Text) (declared : List (Text × Text))
  (candidates : List Candidate)

/-- A short name with exactly one declared full name, both of them candidates, and the placeholder
of the full name. -/
structure LinkedNames (short full canonical : Text) : Prop where
  only : fullNames declared short = [full]
  fullFound : full ∈ organizationValues text candidates
  shortFound : short ∈ organizationValues text candidates
  canonical : canonicalAlias sha256Hex text namespaceText candidates full = some canonical

/-- A declaration gives a name a placeholder. -/
def GivesAlias (name canonical : Text) : Prop :=
  ∃ short full, LinkedNames sha256Hex text namespaceText declared candidates short full canonical ∧
    (name = short ∨ name = full)

/-- The full name of a declaration is no short name of another one, and its short name no full
name. -/
structure Unchained (short full : Text) : Prop where
  full : ∀ other canonical,
    ¬ LinkedNames sha256Hex text namespaceText declared candidates full other canonical
  short : ∀ other canonical,
    ¬ LinkedNames sha256Hex text namespaceText declared candidates other short canonical

/-- Every detector but the dictionary proposes the stable placeholder of what it found. -/
def StableAliases : Prop :=
  ∀ candidate ∈ candidates, candidate.source ≠ .dictionary →
    ∀ name, candidate.value text = some name →
      candidate.alias = stableAlias sha256Hex namespaceText candidate.kind name

/-- What the declarations do to a candidate. -/
inductive Merged (before : Candidate) : Candidate → Prop where
  | kept (unnamed : ∀ name canonical, before.kind = .organizationName →
      before.source ≠ .dictionary → before.value text = some name →
        ¬ GivesAlias sha256Hex text namespaceText declared candidates name canonical) :
      Merged before before
  | given (name canonical : Text) (kind : before.kind = .organizationName)
      (source : before.source ≠ .dictionary) (value : before.value text = some name)
      (gives : GivesAlias sha256Hex text namespaceText declared candidates name canonical) :
      Merged before { before with «alias» := canonical }

/-- The name by which a party goes: the declared full name of an organization, or the name. -/
inductive PartyName (kind : EntityType) (name : Text) : Text → Prop where
  | itself : PartyName kind name name
  | declared (full canonical : Text) (organization : kind = .organizationName)
      (linked : LinkedNames sha256Hex text namespaceText declared candidates name full canonical) :
      PartyName kind name full

/-- Two parties whose stable placeholders agree although they differ: their shortened digests
collide. -/
def Collide (kind kind' : EntityType) (party party' : Text) : Prop :=
  (kind, normalizeSensitiveText party) ≠ (kind', normalizeSensitiveText party') ∧
    stableAlias sha256Hex namespaceText kind party =
      stableAlias sha256Hex namespaceText kind' party'

end Meaning

/-! ## The declarations of a text -/

section Declarations

variable {sha256Hex : Octets → String} {text namespaceText : Text} {declared : List (Text × Text)}
  {candidates : List Candidate} {state : AliasState} {short full name canonical : Text}

theorem mem_shortNames (named : full ∈ fullNames declared short) : short ∈ shortNames declared := by
  obtain ⟨pair, listed, rfl⟩ := List.mem_map.mp (List.mem_dedup.mp named)
  obtain ⟨member, same⟩ := List.mem_filter.mp listed
  refine List.mem_mergeSort.mpr (List.mem_dedup.mpr (List.mem_map.mpr ⟨pair, member, ?_⟩))
  exact of_decide_eq_true same

/-- A short name puts the placeholder of its full name for both. -/
theorem mem_canonical_declareShortName :
    (name, canonical) ∈ (declareShortName sha256Hex text namespaceText declared candidates state
        short).canonical ↔
      (name, canonical) ∈ state.canonical ∨
        ∃ full, LinkedNames sha256Hex text namespaceText declared candidates short full canonical ∧
          (name = short ∨ name = full) := by
  constructor
  · intro member
    rw [declareShortName] at member
    split at member
    · exact .inl member
    · rename_i full only
      split_ifs at member with found
      · split at member
        · rename_i given same
          obtain entry | entry | entry := by simpa using member
          · exact .inr ⟨full, ⟨only, found.1, found.2, entry.2 ▸ same⟩, .inl entry.1⟩
          · exact .inr ⟨full, ⟨only, found.1, found.2, entry.2 ▸ same⟩, .inr entry.1⟩
          · exact .inl entry
        · exact .inl member
      · exact .inl member
    · exact .inl member
  · rintro (before | ⟨full, linked, named⟩)
    · rw [declareShortName]
      split
      · exact before
      · split_ifs
        · split
          · exact List.mem_cons_of_mem _ (List.mem_cons_of_mem _ before)
          · exact before
        · exact before
      · exact before
    · rw [declareShortName, linked.only]
      dsimp only
      rw [if_pos ⟨linked.fullFound, linked.shortFound⟩, linked.canonical]
      obtain rfl | rfl := named
      · exact List.mem_cons_self
      · exact List.mem_cons_of_mem _ List.mem_cons_self

/-- A short name of several full names is kept apart. -/
theorem mem_ambiguous_declareShortName :
    name ∈ (declareShortName sha256Hex text namespaceText declared candidates state
        short).ambiguous ↔
      name ∈ state.ambiguous ∨ (name = short ∧ 2 ≤ (fullNames declared short).length) := by
  rw [declareShortName]
  split
  · rename_i nothing
    simp [nothing]
  · rename_i full only
    have ambiguous : ¬ 2 ≤ (fullNames declared short).length := by simp [only]
    split_ifs
    · split <;> simp [only]
    · simp [only]
  · rename_i several
    have long : 2 ≤ (fullNames declared short).length := by
      match names : fullNames declared short with
      | [] => exact absurd names (by assumption)
      | [only] => exact absurd names (several only)
      | _ :: _ :: _ => exact Nat.le_add_left 2 _
    simp [long]

/-- The declarations give the placeholders of the linked names. -/
theorem mem_canonical_declaredAliases :
    (name, canonical) ∈
        (declaredAliases sha256Hex text namespaceText declared candidates).canonical ↔
      GivesAlias sha256Hex text namespaceText declared candidates name canonical := by
  have folded (shorts : List Text) (state : AliasState) :
      (name, canonical) ∈ (shorts.foldl
          (declareShortName sha256Hex text namespaceText declared candidates) state).canonical ↔
        (name, canonical) ∈ state.canonical ∨ ∃ short ∈ shorts, ∃ full,
          LinkedNames sha256Hex text namespaceText declared candidates short full canonical ∧
            (name = short ∨ name = full) := by
    induction shorts generalizing state with
    | nil => simp
    | cons short shorts inductionHypothesis =>
        rw [List.foldl_cons, inductionHypothesis, mem_canonical_declareShortName, or_assoc]
        simp
  rw [declaredAliases, folded]
  constructor
  · rintro (nothing | ⟨short, -, full, parts⟩)
    · cases nothing
    · exact ⟨short, full, parts⟩
  · rintro ⟨short, full, linked, named⟩
    have called : full ∈ fullNames declared short := by
      rw [linked.only]
      exact List.mem_singleton_self full
    exact .inr ⟨short, mem_shortNames called, full, linked, named⟩

/-- The names which are kept apart are those of several full names. -/
theorem mem_ambiguous_declaredAliases :
    name ∈ (declaredAliases sha256Hex text namespaceText declared candidates).ambiguous ↔
      2 ≤ (fullNames declared name).length := by
  have folded (shorts : List Text) (state : AliasState) :
      name ∈ (shorts.foldl (declareShortName sha256Hex text namespaceText declared candidates)
          state).ambiguous ↔
        name ∈ state.ambiguous ∨ (name ∈ shorts ∧ 2 ≤ (fullNames declared name).length) := by
    induction shorts generalizing state with
    | nil => simp
    | cons short shorts inductionHypothesis =>
        rw [List.foldl_cons, inductionHypothesis, mem_ambiguous_declareShortName, or_assoc,
          List.mem_cons]
        refine or_congr_right ?_
        constructor
        · rintro (⟨rfl, several⟩ | ⟨member, several⟩)
          · exact ⟨.inl rfl, several⟩
          · exact ⟨.inr member, several⟩
        · rintro ⟨rfl | member, several⟩
          · exact .inl ⟨rfl, several⟩
          · exact .inr ⟨member, several⟩
  rw [declaredAliases, folded]
  constructor
  · rintro (nothing | ⟨-, several⟩)
    · cases nothing
    · exact several
  · intro several
    obtain ⟨full, named⟩ := List.exists_mem_of_length_pos (Nat.zero_lt_of_lt several)
    exact .inr ⟨mem_shortNames named, several⟩

theorem mem_dictionaryAliases : canonical ∈ dictionaryAliases text candidates name ↔
    ∃ entry ∈ candidates, (entry.kind = .organizationName ∧ entry.source = .dictionary ∧
      entry.value text = some name) ∧ entry.alias = canonical := by
  rw [dictionaryAliases, List.mem_dedup, List.mem_map]
  simp only [List.mem_filter, Bool.and_eq_true, decide_eq_true_eq, and_assoc]

/-- The placeholder of a full name is the only one of the dictionary, or a stable one. -/
theorem canonicalAlias_eq_some
    (chosen : canonicalAlias sha256Hex text namespaceText candidates full = some canonical) :
    (∀ other ∈ dictionaryAliases text candidates full, other = canonical) ∧
      (canonical ∈ dictionaryAliases text candidates full ∨
        canonical = stableAlias sha256Hex namespaceText .organizationName full) := by
  rw [canonicalAlias] at chosen
  split at chosen
  · rename_i nothing
    rw [nothing]
    exact ⟨nofun, .inr (Option.some.inj chosen).symm⟩
  · rename_i only same
    cases chosen
    rw [same]
    exact ⟨fun other member => List.mem_singleton.mp member, .inl (List.mem_singleton_self _)⟩
  · cases chosen

/-- A placeholder which the loop finds is one of a declaration. -/
theorem givesAlias_of_lookup (found : (declaredAliases sha256Hex text namespaceText declared
      candidates).canonical.lookup name = some canonical) :
    GivesAlias sha256Hex text namespaceText declared candidates name canonical := by
  obtain ⟨before, behind, listed, -⟩ := List.lookup_eq_some_iff.mp found
  refine mem_canonical_declaredAliases.mp ?_
  rw [listed]
  exact List.mem_append_right _ List.mem_cons_self

theorem lookup_ne_none_of_givesAlias
    (gives : GivesAlias sha256Hex text namespaceText declared candidates name canonical) :
    (declaredAliases sha256Hex text namespaceText declared candidates).canonical.lookup name ≠
      none := by
  refine Option.isSome_iff_ne_none.mp (List.lookup_isSome_iff.mpr ⟨(name, canonical), ?_, ?_⟩)
  · exact mem_canonical_declaredAliases.mpr gives
  · exact beq_self_eq_true name

/-- Without a chain of declarations both names have the placeholder of the full one only. -/
theorem LinkedNames.unique {other : Text}
    (linked : LinkedNames sha256Hex text namespaceText declared candidates short full canonical)
    (unchained : Unchained sha256Hex text namespaceText declared candidates short full)
    (named : name = short ∨ name = full)
    (gives : GivesAlias sha256Hex text namespaceText declared candidates name other) :
    other = canonical := by
  obtain ⟨otherShort, otherFull, links, which⟩ := gives
  have same : otherFull = full := by
    obtain rfl | rfl := named
    · obtain rfl | rfl := which
      · exact (List.cons.inj (links.only.symm.trans linked.only)).1
      · exact absurd links (unchained.short _ _)
    · obtain rfl | rfl := which
      · exact absurd links (unchained.full _ _)
      · rfl
  subst same
  exact Option.some.inj (links.canonical.symm.trans linked.canonical)

end Declarations

/-! ## The candidates -/

section Applied

variable {sha256Hex : Octets → String} {text namespaceText : Text} {captures : List (Text × Text)}
  {declared : List (Text × Text)} {candidates applied : List Candidate}
  {candidate after : Candidate} {ambiguous : List Text}

/-- The loop merges a candidate by the declarations. -/
theorem merged_of_applyAlias (applies : applyAlias text
      (declaredAliases sha256Hex text namespaceText declared candidates).canonical candidate =
        .ok after) :
    Merged sha256Hex text namespaceText declared candidates candidate after := by
  rw [applyAlias] at applies
  split_ifs at applies with other
  · cases applies
    exact .kept fun _ _ kind source => absurd other (not_or.mpr ⟨not_not.mpr kind, source⟩)
  · obtain ⟨kind, source⟩ := not_or.mp other
    obtain ⟨name, present, applies⟩ := bind_eq_ok.mp applies
    have value := presentOr_eq_ok.mp present
    split at applies
    · rename_i canonical found
      cases applies
      exact .given name canonical (not_not.mp kind) source value (givesAlias_of_lookup found)
    · rename_i nothing
      cases applies
      refine .kept fun _ _ _ _ same gives => lookup_ne_none_of_givesAlias gives ?_
      rw [← Option.some.inj (value.symm.trans same), nothing]

theorem merged_nil : Merged sha256Hex text namespaceText [] candidates candidate candidate := by
  refine .kept fun _ _ _ _ _ gives => ?_
  obtain ⟨_, _, linked, _⟩ := gives
  cases linked.only

/-- The pass merges the candidates by the declarations, and reports the short names of several full
names. -/
theorem applied_spec (applies : applyExplicitOrganizationAliases sha256Hex text namespaceText
      candidates captures = .ok (applied, ambiguous)) :
    List.Forall₂ (Merged sha256Hex text namespaceText (declaredNames captures) candidates)
        candidates applied ∧
      ∀ name, name ∈ ambiguous ↔ 2 ≤ (fullNames (declaredNames captures) name).length := by
  rw [applyExplicitOrganizationAliases] at applies
  dsimp only at applies
  split_ifs at applies with nothing
  · cases applies
    rw [nothing]
    exact ⟨List.forall₂_same.mpr fun _ _ => merged_nil, fun _ => by simp [fullNames]⟩
  · obtain ⟨values, mapped, applies⟩ := bind_eq_ok.mp applies
    cases applies
    exact ⟨(mapM_eq_ok mapped).imp fun _ _ => merged_of_applyAlias,
      fun _ => mem_ambiguous_declaredAliases⟩

/-- A merge changes no more than the placeholder. -/
theorem Merged.unchanged {before after : Candidate}
    (merged : Merged sha256Hex text namespaceText declared candidates before after) :
    after = { before with «alias» := after.alias } ∧
      (before.source = .dictionary → after.alias = before.alias) := by
  cases merged with
  | kept => exact ⟨rfl, fun _ => rfl⟩
  | given name canonical kind source value gives =>
      exact ⟨rfl, fun dictionary => absurd dictionary source⟩

end Applied

/-! ## The groups -/

section Replaced

variable {sha256Hex : Octets → String} {text namespaceText : Text} {dismissedIds : List String}
  {ambiguous : List Text} {candidates values : List Candidate} {range : Nat × Nat}
  {group : Group} {groups : List Group} {canonical : Text}

/-- The placeholder of a group: what the dictionary has for it, or what all detectors propose. -/
theorem groupAlias_eq_some (chosen : groupAlias values = some canonical) :
    (∀ value ∈ values, value.source = .dictionary → value.alias = canonical) ∧
      ∃ value ∈ values, value.alias = canonical := by
  rw [groupAlias] at chosen
  have only (names : List Text) (one : names.dedup.length = 1)
      (head : names.dedup.head? = some canonical) (name : Text) :
      name ∈ names ↔ name = canonical := by
    obtain ⟨single, listed⟩ := List.length_eq_one_iff.mp one
    rw [listed] at head
    rw [← List.mem_dedup, listed, List.mem_singleton, Option.some.inj head]
  split_ifs at chosen with one two
  · have same := only _ one chosen
    refine ⟨fun value member dictionary => (same _).mp (List.mem_map_of_mem
      (List.mem_filter.mpr ⟨member, decide_eq_true dictionary⟩)), ?_⟩
    obtain ⟨value, listed, equal⟩ := List.mem_map.mp ((same canonical).mpr rfl)
    exact ⟨value, (List.mem_filter.mp listed).1, equal⟩
  · have same := only _ two.2 chosen
    exact ⟨fun value member _ => (same _).mp (List.mem_map_of_mem member),
      List.mem_map.mp ((same canonical).mpr rfl)⟩

/-- What a group says about the candidates of its range. -/
structure GroupFacts (text : Text) (ambiguous : List Text) (values : List Candidate)
    (group : Group) : Prop where
  value : Text.slice text group.start group.end = some group.finding.text
  apart : group.finding.kind = entityKind .organizationName → group.finding.text ∈ ambiguous →
    group.replace = false ∧ (group.finding.resolved = true → group.finding.dismissed = true)
  replaced : group.replace = true → ∃ kind canonical, group.finding.kind = entityKind kind ∧
    (∀ value ∈ values, value.kind = kind) ∧ group.finding.alias = some canonical ∧
      groupAlias values = some canonical

theorem mem_kinds {kind : EntityType} :
    kind ∈ (EntityType.all.filter fun kind => values.any fun value => value.kind = kind) ↔
      ∃ value ∈ values, value.kind = kind := by
  have listed : kind ∈ EntityType.all := by cases kind <;> decide
  simp [listed]

theorem entityKind_organization {kind : EntityType}
    (same : entityKind kind = entityKind .organizationName) : kind = .organizationName := by
  cases kind <;> first | rfl | (exact absurd same (by decide))

theorem groupFacts_of_candidateGroup (built : candidateGroup sha256Hex text namespaceText
      dismissedIds ambiguous range values = .ok group) :
    (group.start, group.end) = range ∧ GroupFacts text ambiguous values group := by
  rw [candidateGroup] at built
  obtain ⟨value, sliced, built⟩ := bind_eq_ok.mp built
  obtain ⟨kind, first, built⟩ := bind_eq_ok.mp built
  have head := presentOr_eq_ok.mp first
  cases built
  refine ⟨rfl, presentOr_eq_ok.mp sliced, fun organization apart => ?_, fun replaced => ?_⟩
  · have among : (decide (kind = .organizationName) && ambiguous.contains value) = true := by
      rw [Bool.and_eq_true, decide_eq_true_eq, List.contains_iff_mem]
      exact ⟨entityKind_organization organization, apart⟩
    dsimp only
    rw [among]
    simp
  · dsimp only at replaced
    simp only [Bool.and_eq_true, decide_eq_true_eq] at replaced
    obtain ⟨⟨⟨-, one⟩, proposed⟩, -⟩ := replaced
    obtain ⟨canonical, chosen⟩ := Option.isSome_iff_exists.mp proposed
    obtain ⟨only, listed⟩ := List.length_eq_one_iff.mp one
    rw [listed] at head
    cases head
    refine ⟨kind, canonical, rfl, fun value member => ?_, chosen, chosen⟩
    have among := mem_kinds.mpr ⟨value, member, rfl⟩
    rw [listed] at among
    exact List.mem_singleton.mp among

/-- What becomes of a group in the end: it stays, or it is left for review. -/
theorem mem_settledGroups (built : candidateGroups sha256Hex text namespaceText candidates
      dismissedIds ambiguous = .ok groups) (member : group ∈ settledGroups text groups) :
    ∃ before ∈ groups, group = before ∨ group = before.unresolved := by
  rw [settledGroups, resolveConflictingReplacementOverlaps_eq
    (orderly_mark (orderly_of_candidateGroups built)).ranges] at member
  obtain ⟨marked, among, rfl⟩ := List.mem_map.mp member
  rw [markConflictingRepeatedPeople] at among
  obtain ⟨before, found, rfl⟩ := List.mem_map.mp among
  refine ⟨before, found, ?_⟩
  have settled (group : Group) :
      settledBy (markConflictingRepeatedPeople text groups) group = group ∨
        settledBy (markConflictingRepeatedPeople text groups) group = group.unresolved := by
    rw [settledBy]
    split_ifs
    · exact .inr rfl
    · exact .inl rfl
  split_ifs
  · obtain same | same := settled before.unresolved
    · exact .inr same
    · exact .inr same
  · exact settled before

/-- What a replaced group says about the candidates of an analysis. -/
structure ReplacedFacts (text : Text) (candidates : List Candidate) (group : Group)
    (kind : EntityType) (canonical : Text) : Prop where
  named : group.finding.kind = entityKind kind
  chosen : group.finding.alias = some canonical
  dictionary : ∀ candidate ∈ candidates, (candidate.start, candidate.end) =
    (group.start, group.end) → candidate.source = .dictionary → candidate.alias = canonical
  proposed : ∃ candidate ∈ candidates, candidate.kind = kind ∧
    (candidate.start, candidate.end) = (group.start, group.end) ∧
      candidate.value text = some group.finding.text ∧ candidate.alias = canonical

theorem replacedFacts_of_settled (built : candidateGroups sha256Hex text namespaceText
      (suppressRedundantLocalNer text candidates) dismissedIds ambiguous = .ok groups)
    (member : group ∈ settledGroups text groups) (replaced : group.replace = true) :
    ∃ kind canonical, ReplacedFacts text candidates group kind canonical := by
  obtain ⟨before, listed, rfl | rfl⟩ := mem_settledGroups built member
  swap
  · cases replaced
  obtain ⟨range, -, made⟩ := exists_of_forall₂_right (mapM_eq_ok built) listed
  obtain ⟨place, facts⟩ := groupFacts_of_candidateGroup made
  obtain ⟨kind, canonical, named, kinds, chosen, choice⟩ := facts.replaced replaced
  obtain ⟨dictionary, candidate, among, proposed⟩ := groupAlias_eq_some choice
  refine ⟨kind, canonical, named, chosen, fun entry found same source => ?_, candidate, ?_,
    kinds candidate among, ?_⟩
  · refine dictionary entry (List.mem_filter.mpr ⟨List.mem_filter.mpr ⟨found, ?_⟩, ?_⟩) source
    · simp [source]
    · exact decide_eq_true (same.trans place)
  · exact (List.mem_filter.mp (List.mem_filter.mp among).1).1
  · have same := (of_decide_eq_true (List.mem_filter.mp among).2).trans place.symm
    refine ⟨same, ?_, proposed⟩
    rw [Candidate.value, (Prod.mk.inj same).1, (Prod.mk.inj same).2, facts.value]

/-- A group which is kept apart is not replaced, and resolved by a reviewer only. -/
theorem apart_of_settled (built : candidateGroups sha256Hex text namespaceText candidates
      dismissedIds ambiguous = .ok groups) (member : group ∈ settledGroups text groups)
    (organization : group.finding.kind = entityKind .organizationName)
    (apart : group.finding.text ∈ ambiguous) :
    group.replace = false ∧ (group.finding.resolved = true → group.finding.dismissed = true) := by
  obtain ⟨before, listed, rfl | rfl⟩ := mem_settledGroups built member
  · obtain ⟨range, -, made⟩ := exists_of_forall₂_right (mapM_eq_ok built) listed
    exact (groupFacts_of_candidateGroup made).2.apart organization apart
  · exact ⟨rfl, nofun⟩

end Replaced

/-! ## The placeholders of an analysis -/

section Analysis

variable {sha256Hex : Octets → String} {text namespaceText : Text}
  {declared : List (Text × Text)} {candidates applied : List Candidate}
  {group : Group} {kind : EntityType} {short full canonical given : Text}

/-- What the dictionary proposes for a group comes first. -/
theorem alias_of_dictionary
    (merges : List.Forall₂ (Merged sha256Hex text namespaceText declared candidates)
      candidates applied)
    (facts : ReplacedFacts text applied group kind given) {candidate : Candidate}
    (member : candidate ∈ candidates)
    (place : (candidate.start, candidate.end) = (group.start, group.end))
    (source : candidate.source = .dictionary) : group.finding.alias = some candidate.alias := by
  obtain ⟨after, listed, merged⟩ := exists_of_forall₂_left merges member
  obtain ⟨same, kept⟩ := merged.unchanged
  rw [facts.chosen, ← kept source, facts.dictionary after listed ?_ ?_]
  · rw [same]
    exact place
  · rw [same]
    exact source

/-- A linked name has the placeholder of the full name, unless the dictionary has one for it. -/
theorem alias_of_linked
    (merges : List.Forall₂ (Merged sha256Hex text namespaceText declared candidates)
      candidates applied)
    (facts : ReplacedFacts text applied group .organizationName given)
    (linked : LinkedNames sha256Hex text namespaceText declared candidates short full canonical)
    (unchained : Unchained sha256Hex text namespaceText declared candidates short full)
    (named : group.finding.text = full ∨ (group.finding.text = short ∧
      ∀ candidate ∈ candidates, (candidate.start, candidate.end) = (group.start, group.end) →
        candidate.source ≠ .dictionary)) :
    group.finding.alias = some canonical := by
  obtain ⟨after, listed, kind, place, value, proposed⟩ := facts.proposed
  obtain ⟨before, member, merged⟩ := exists_of_forall₂_right merges listed
  rw [facts.chosen, ← proposed]
  refine congrArg some ?_
  cases merged with
  | given name other kind' source value' gives =>
      have same : name = group.finding.text := Option.some.inj (value'.symm.trans value)
      refine linked.unique unchained ?_ gives
      rw [same]
      exact named.symm.imp And.left id
  | kept unnamed =>
      by_cases source : after.source = .dictionary
      · obtain rfl | ⟨-, silent⟩ := named
        · exact (canonicalAlias_eq_some linked.canonical).1 after.alias
            (mem_dictionaryAliases.mpr ⟨after, member, ⟨kind, source, value⟩, rfl⟩)
        · exact absurd source (silent after member place)
      · refine absurd ⟨short, full, linked, ?_⟩ (unnamed _ canonical kind source value)
        exact named.symm.imp And.left id

/-- The placeholder of a replaced group is one of the dictionary, or the stable one of its party. -/
theorem alias_of_replaced (stable : StableAliases sha256Hex text namespaceText candidates)
    (merges : List.Forall₂ (Merged sha256Hex text namespaceText declared candidates)
      candidates applied)
    (facts : ReplacedFacts text applied group kind given) :
    (∃ entry ∈ candidates, entry.source = .dictionary ∧ entry.alias = given) ∨
      ∃ party, PartyName sha256Hex text namespaceText declared candidates kind group.finding.text
        party ∧ given = stableAlias sha256Hex namespaceText kind party := by
  obtain ⟨after, listed, same, place, value, proposed⟩ := facts.proposed
  obtain ⟨before, member, merged⟩ := exists_of_forall₂_right merges listed
  cases merged with
  | kept =>
      by_cases source : after.source = .dictionary
      · exact .inl ⟨after, member, source, proposed⟩
      · refine .inr ⟨_, .itself, ?_⟩
        rw [← proposed, ← same]
        exact stable after member source _ value
  | given name other organization source value' gives =>
      obtain ⟨short, full, linked, named⟩ := gives
      have called : name = group.finding.text := Option.some.inj (value'.symm.trans value)
      have kinds : kind = .organizationName := same.symm.trans organization
      rw [← proposed, ← called, kinds]
      obtain ⟨-, dictionary | stably⟩ := canonicalAlias_eq_some linked.canonical
      · obtain ⟨entry, found, ⟨-, source, -⟩, proposed⟩ := mem_dictionaryAliases.mp dictionary
        exact .inl ⟨entry, found, source, proposed⟩
      · refine .inr ⟨full, ?_, stably⟩
        obtain rfl | rfl := named
        · exact .declared _ _ rfl linked
        · exact .itself

end Analysis

/-- The placeholders of an analysis with the declarations of its text. A candidate is merged by a
declaration of exactly one full name only; a short name of several full names is not replaced and
not resolved; a linked pair which is no part of a chain has one placeholder, unless the dictionary
has another one for the short name; what the dictionary proposes for a group is its placeholder; and
two replaced groups with one placeholder are the same party, unless the dictionary says so or the
shortened digests of two parties collide. -/
theorem organization_aliases_follow_declarations {scanner : Scanner}
    {captures : List (Text × Text)} {text namespaceText : Text} {candidates : List Candidate}
    {dismissed : List String} {groups : List Group}
    (analysed : aliasedGroups scanner captures text namespaceText candidates dismissed =
      .ok groups) :
    (∃ applied ambiguous, applyExplicitOrganizationAliases scanner.sha256Hex text namespaceText
        candidates captures = .ok (applied, ambiguous) ∧
      List.Forall₂ (Merged scanner.sha256Hex text namespaceText (declaredNames captures) candidates)
        candidates applied) ∧
    (∀ group ∈ groups, group.finding.kind = entityKind .organizationName →
      2 ≤ (fullNames (declaredNames captures) group.finding.text).length →
        group.replace = false ∧
          (group.finding.resolved = true → group.finding.dismissed = true)) ∧
    (∀ short full canonical, LinkedNames scanner.sha256Hex text namespaceText
        (declaredNames captures) candidates short full canonical →
      Unchained scanner.sha256Hex text namespaceText (declaredNames captures) candidates short
        full →
      ∀ group ∈ groups, group.replace = true →
        group.finding.kind = entityKind .organizationName →
        group.finding.text = full ∨ (group.finding.text = short ∧ ∀ candidate ∈ candidates,
          (candidate.start, candidate.end) = (group.start, group.end) →
            candidate.source ≠ .dictionary) →
        group.finding.alias = some canonical) ∧
    (∀ group ∈ groups, group.replace = true → ∀ candidate ∈ candidates,
      (candidate.start, candidate.end) = (group.start, group.end) →
        candidate.source = .dictionary → group.finding.alias = some candidate.alias) ∧
    (StableAliases scanner.sha256Hex text namespaceText candidates →
      ∀ first ∈ groups, ∀ second ∈ groups, first.replace = true → second.replace = true →
        first.finding.alias = second.finding.alias →
        (∃ entry ∈ candidates, entry.source = .dictionary ∧
          first.finding.alias = some entry.alias) ∨
        ∃ kind kind' party party', first.finding.kind = entityKind kind ∧
          second.finding.kind = entityKind kind' ∧
          PartyName scanner.sha256Hex text namespaceText (declaredNames captures) candidates kind
            first.finding.text party ∧
          PartyName scanner.sha256Hex text namespaceText (declaredNames captures) candidates kind'
            second.finding.text party' ∧
          ((kind, normalizeSensitiveText party) = (kind', normalizeSensitiveText party') ∨
            Collide scanner.sha256Hex namespaceText kind kind' party party')) := by
  obtain ⟨⟨applied, ambiguous⟩, applies, analysed⟩ := bind_eq_ok.mp analysed
  obtain ⟨built, grouped, same⟩ := bind_eq_ok.mp analysed
  cases same
  obtain ⟨merges, several⟩ := applied_spec applies
  refine ⟨⟨applied, ambiguous, applies, merges⟩, ?_, ?_, ?_, ?_⟩
  · intro group member organization long
    exact apart_of_settled grouped member organization ((several _).mpr long)
  · intro short full canonical linked unchained group member replaced organization named
    obtain ⟨kind, given, facts⟩ := replacedFacts_of_settled grouped member replaced
    cases entityKind_organization (facts.named.symm.trans organization)
    exact alias_of_linked merges facts linked unchained named
  · intro group member replaced candidate among place source
    obtain ⟨kind, given, facts⟩ := replacedFacts_of_settled grouped member replaced
    exact alias_of_dictionary merges facts among place source
  · intro stable first firstMember second secondMember firstReplaced secondReplaced same
    obtain ⟨kind, given, facts⟩ := replacedFacts_of_settled grouped firstMember firstReplaced
    obtain ⟨kind', given', facts'⟩ := replacedFacts_of_settled grouped secondMember secondReplaced
    have agree : given = given' :=
      Option.some.inj (facts.chosen.symm.trans (same.trans facts'.chosen))
    subst agree
    obtain ⟨entry, found, source, rfl⟩ | ⟨party, called, stably⟩ :=
      alias_of_replaced stable merges facts
    · exact .inl ⟨entry, found, source, facts.chosen⟩
    · obtain ⟨entry, found, source, rfl⟩ | ⟨party', called', stably'⟩ :=
        alias_of_replaced stable merges facts'
      · exact .inl ⟨entry, found, source, facts.chosen⟩
      · refine .inr ⟨kind, kind', party, party', facts.named, facts'.named, called, called', ?_⟩
        by_cases alike : (kind, normalizeSensitiveText party) =
            (kind', normalizeSensitiveText party')
        · exact .inl alike
        · exact .inr ⟨alike, stably.symm.trans stably'⟩

/-! ## A declared short name -/

/-- A text which declares a short name. -/
def declaringText : Text := "北京公司（简称京司）".toList

/-- The digests behind the placeholders of the two names. -/
def aliasDigest (bytes : Octets) : String :=
  if bytes = hashMaterial [utf8 "privacy-text-alias-v1", utf8 "case-1", utf8 "organization_name",
      utf8 "北京公司"] then
    "701ef40b7b2414602f9bfef58c750e77352c8ed1da7510b1984cc953fd266753"
  else if bytes = hashMaterial [utf8 "privacy-text-alias-v1", utf8 "case-1",
      utf8 "organization_name", utf8 "京司"] then
    "400ec5336af94039ba4b489600219ca28affa0202f456130c4aec24010fd9192"
  else if bytes = findingMaterial "case-1".toList 0 12 .organizationName "北京公司".toList then
    "5da815c21a3071a8d56315cd8d6c343c31572eb97191525a50a9ebb6cef88e0f"
  else "46d115782b2bb57c674c47393387a609f53f88c798889679e6217858693668dd"

/-- The model reports both names. -/
def declaredCandidates : List Candidate :=
  [⟨0, 12, .organizationName, .ai, "[ORG_habopealhl]".toList, false, true, Candidate.ruled_of_false⟩,
    ⟨21, 27, .organizationName, .ai, "[ORG_eaaomfddgk]".toList, false, true, Candidate.ruled_of_false⟩]

/-- The groups of the text. -/
def declaredGroups : List Group :=
  (aliasedGroups ⟨aliasDigest, fun _ _ => .ok false⟩ [("北京公司".toList, "京司".toList)] declaringText
    "case-1".toList declaredCandidates []).toOption.getD []

/-- In the sample the short name has the placeholder of the full one. -/
theorem short_name_has_alias_of_full_name : ∃ group ∈ declaredGroups, group.replace = true ∧
    group.finding.text = "京司".toList ∧
      group.finding.alias = some "[ORG_habopealhl]".toList := by
  have analysed : aliasedGroups ⟨aliasDigest, fun _ _ => .ok false⟩
      [("北京公司".toList, "京司".toList)] declaringText "case-1".toList declaredCandidates [] =
        .ok declaredGroups := by decide +kernel
  have declares : declaredNames [("北京公司".toList, "京司".toList)] =
      [("京司".toList, "北京公司".toList)] := by decide
  obtain ⟨group, member, replaced, named, called⟩ : ∃ group ∈ declaredGroups,
      group.replace = true ∧ group.finding.text = "京司".toList ∧
        group.finding.kind = entityKind .organizationName := by decide +kernel
  refine ⟨group, member, replaced, named, ?_⟩
  refine (organization_aliases_follow_declarations analysed).2.2.1 "京司".toList "北京公司".toList
    "[ORG_habopealhl]".toList ?_ ?_ group member replaced called (.inr ⟨named, ?_⟩)
  · exact ⟨by decide, by decide, by decide, by decide⟩
  · rw [declares]
    refine ⟨fun other canonical linked => ?_, fun other canonical linked => ?_⟩
    · exact absurd (linked.only.symm.trans (by decide :
        fullNames [("京司".toList, "北京公司".toList)] "北京公司".toList = [])) (List.cons_ne_nil _ _)
    · have listed : "京司".toList ∈ fullNames [("京司".toList, "北京公司".toList)] other := by
        rw [linked.only]
        exact List.mem_singleton_self _
      simp [fullNames] at listed
  · intro candidate listed _ source
    obtain rfl | rfl := by simpa [declaredCandidates] using listed
    · cases source
    · cases source

/-- Two organizations which the dictionary gives one placeholder. -/
def sharedAliasCandidates : List Candidate :=
  [⟨0, 6, .organizationName, .dictionary, "[ORG_abcdefgh]".toList, false, true, Candidate.ruled_of_false⟩,
    ⟨9, 15, .organizationName, .dictionary, "[ORG_abcdefgh]".toList, false, true, Candidate.ruled_of_false⟩]

/-- Two organizations of the dictionary share a placeholder. -/
theorem dictionary_shares_an_alias :
    ∃ groups, aliasedGroups quietScanner [] "甲社与乙社".toList "case-1".toList sharedAliasCandidates
        [] = .ok groups ∧
      ∃ first ∈ groups, ∃ second ∈ groups, first.replace = true ∧ second.replace = true ∧
        first.finding.text = "甲社".toList ∧ second.finding.text = "乙社".toList ∧
          first.finding.alias = second.finding.alias := by
  have run : ((aliasedGroups quietScanner [] "甲社与乙社".toList "case-1".toList sharedAliasCandidates
      []).toOption.any fun groups => ∃ first ∈ groups, ∃ second ∈ groups, first.replace = true ∧
        second.replace = true ∧ first.finding.text = "甲社".toList ∧
          second.finding.text = "乙社".toList ∧
            first.finding.alias = second.finding.alias) = true := by decide
  obtain ⟨groups, analysed, shared⟩ := any_toOption run
  exact ⟨groups, analysed, of_decide_eq_true shared⟩

end LawyerAssistance.PrivacyText
