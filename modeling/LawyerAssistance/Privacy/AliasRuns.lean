import LawyerAssistance.Privacy.AliasLedger
import LawyerAssistance.Privacy.ResidualFinds
import LawyerAssistance.Std.Machine
import Mathlib.Data.List.Perm.Basic

/-!
# Runs of the alias ledger

The records of a category are numbered from zero, whatever was assigned and restored before. Two
categories with one stem number their records apart, and so a ledger has no alias twice exactly
when it has no two such categories.
-/

namespace LawyerAssistance.Privacy

/-! ## Ordinals -/

/-- The letters are those from `A` to `Z`. -/
theorem toNat_ordinalLetter {digit : Nat} (small : digit < 26) :
    (ordinalLetter digit).toNat = 65 + digit := by
  have valid : (65 + digit).isValidChar := .inl (by omega)
  rw [ordinalLetter, show 'A'.toNat = 65 from rfl, Char.ofNat, dif_pos valid]
  rfl

/-- Every character of an ordinal is a letter. -/
theorem mem_ordinalDigits {fuel index : Nat} {character : Char}
    (among : character ∈ ordinalDigits fuel index) :
    65 ≤ character.toNat ∧ character.toNat < 91 := by
  induction fuel generalizing index with
  | zero => cases among
  | succ fuel inductionHypothesis =>
      rw [ordinalDigits] at among
      obtain rfl | among := List.mem_cons.mp among
      · have small : index % 26 < 26 := Nat.mod_lt _ (by omega)
        rw [toNat_ordinalLetter small]
        omega
      · split_ifs at among with last
        · cases among
        · exact inductionHypothesis among

theorem ordinalDigits_ne_nil {fuel index : Nat} (enough : index < fuel) :
    ordinalDigits fuel index ≠ [] := by
  cases fuel with
  | zero => omega
  | succ fuel =>
      rw [ordinalDigits]
      exact List.cons_ne_nil _ _

/-- Different ordinals have different letters. -/
theorem ordinalDigits_injective {fuel others first second : Nat} (enough : first < fuel)
    (enough' : second < others) (same : ordinalDigits fuel first = ordinalDigits others second) :
    first = second := by
  induction fuel generalizing others first second with
  | zero => omega
  | succ fuel inductionHypothesis =>
      obtain ⟨others, rfl⟩ : ∃ more, others = more + 1 := ⟨others - 1, by omega⟩
      rw [ordinalDigits, ordinalDigits, List.cons.injEq] at same
      obtain ⟨letters, following⟩ := same
      have digits : first % 26 = second % 26 := by
        have numbers := congrArg Char.toNat letters
        rw [toNat_ordinalLetter (Nat.mod_lt _ (by omega)),
          toNat_ordinalLetter (Nat.mod_lt _ (by omega))] at numbers
        omega
      split_ifs at following with last last' last'
      · omega
      · exact absurd following.symm (ordinalDigits_ne_nil (by omega))
      · exact absurd following (ordinalDigits_ne_nil (by omega))
      · have smaller := inductionHypothesis (by omega) (by omega) following
        omega

/-- How many ordinals there are with a number of letters at most. -/
def ordinalBound : Nat → Nat
  | 0 => 0
  | letters + 1 => 26 * ordinalBound letters + 26

/-- An ordinal below a bound has no more letters than the bound is for. -/
theorem length_ordinalDigits {fuel letters index : Nat} (small : index < ordinalBound letters) :
    (ordinalDigits fuel index).length ≤ letters := by
  induction letters generalizing fuel index with
  | zero =>
      rw [ordinalBound] at small
      omega
  | succ letters inductionHypothesis =>
      cases fuel with
      | zero => exact Nat.zero_le _
      | succ fuel =>
          rw [ordinalDigits, List.length_cons]
          refine Nat.succ_le_succ ?_
          split_ifs with last
          · exact Nat.zero_le _
          · rw [ordinalBound] at small
            exact inductionHypothesis (by omega)

/-! ## Aliases -/

/-- The characters of a stem are no letters and no control characters, and there are few. -/
theorem aliasStem_plain (category : DictionaryCategory) :
    (∀ character ∈ category.aliasStem, 0x100 ≤ character.toNat) ∧
      Text.byteLength category.aliasStem ≤ 12 := by
  have plain : (category.aliasStem.all fun character => 0x100 ≤ character.toNat) = true ∧
      Text.byteLength category.aliasStem ≤ 12 := by
    cases category <;> exact ⟨rfl, Nat.le_of_ble_eq_true rfl⟩
  refine ⟨fun character among => ?_, plain.2⟩
  exact of_decide_eq_true (List.all_eq_true.mp plain.1 character among)

/-- An alias is the stem of a category and an ordinal in one way. -/
theorem aliasText_inj {category other : DictionaryCategory} {first second : Nat} :
    aliasText category first = aliasText other second ↔
      category.aliasStem = other.aliasStem ∧ first = second := by
  constructor
  · intro same
    rw [aliasText, aliasText, List.cons.injEq] at same
    have parts := List.append_cancel_right same.2
    have stem (category : DictionaryCategory) (index : Nat) :
        (category.aliasStem ++ alphaOrdinal index).takeWhile
          (fun character => decide (0x100 ≤ character.toNat)) = category.aliasStem := by
      rw [List.takeWhile_append_of_pos
        fun character among => decide_eq_true ((aliasStem_plain category).1 character among)]
      have letters : (alphaOrdinal index).takeWhile
          (fun character => decide (0x100 ≤ character.toNat)) = [] := by
        rw [List.takeWhile_eq_nil_iff]
        intro inside
        have range := mem_ordinalDigits (List.mem_reverse.mp (List.get_mem _ ⟨0, inside⟩))
        rw [decide_eq_true_eq]
        omega
      rw [letters, List.append_nil]
    have stems : category.aliasStem = other.aliasStem := by
      rw [← stem category first, parts, stem]
    rw [stems] at parts
    have ordinals := List.reverse_injective (List.append_cancel_left parts)
    exact ⟨stems, ordinalDigits_injective (by omega) (by omega) ordinals⟩
  · rintro ⟨stems, rfl⟩
    rw [aliasText, aliasText, stems]

/-- Characters of an alias are printable. -/
theorem printable_aliasText (category : DictionaryCategory) (ordinal : Nat) :
    (aliasText category ordinal).any Text.isControl = false := by
  rw [List.any_eq_false]
  intro character among
  have range : 0x41 ≤ character.toNat ∧ character.toNat < 0x5b ∨ 0x100 ≤ character.toNat := by
    rw [aliasText, List.mem_cons, List.mem_append, List.mem_append, List.mem_singleton] at among
    obtain rfl | (stem | letter) | rfl := among
    · exact .inr (by decide)
    · exact .inr ((aliasStem_plain category).1 character stem)
    · exact .inl (mem_ordinalDigits (List.mem_reverse.mp letter))
    · exact .inr (by decide)
  rw [Bool.not_eq_true, Text.isControl, Bool.or_eq_false_iff, Bool.and_eq_false_iff,
    decide_eq_false_iff_not, decide_eq_false_iff_not, decide_eq_false_iff_not]
  omega

/-- A text of letters has a byte for each. -/
theorem byteLength_ordinalDigits (fuel index : Nat) :
    Text.byteLength (ordinalDigits fuel index) = (ordinalDigits fuel index).length := by
  have plain : (ordinalDigits fuel index).map Char.utf8Size =
      (ordinalDigits fuel index).map fun _ => 1 := by
    refine List.map_congr_left fun character among => ?_
    have range := mem_ordinalDigits among
    rw [Char.utf8Size_eq_one_iff, UInt32.le_iff_toNat_le]
    exact Nat.le_of_lt_succ (Nat.lt_trans range.2 (by decide))
  rw [Text.byteLength, plain, List.map_const', List.sum_replicate_nat, Nat.mul_one]

/-- The aliases which the ledger assigns are valid. -/
theorem validAlias_aliasText (category : DictionaryCategory) {ordinal : Nat}
    (small : ordinal < maxDictionaryEntries) : validAlias (aliasText category ordinal) = true := by
  have letters : (ordinalDigits (ordinal + 1) ordinal).length ≤ 3 := by
    refine length_ordinalDigits (Nat.lt_of_lt_of_le small ?_)
    decide
  have stem := (aliasStem_plain category).2
  have reversed : Text.byteLength (alphaOrdinal ordinal) =
      Text.byteLength (ordinalDigits (ordinal + 1) ordinal) := by
    rw [Text.byteLength, Text.byteLength, alphaOrdinal, List.map_reverse, List.sum_reverse]
  have bounded : Text.byteLength (aliasText category ordinal) ≤ 128 := by
    rw [aliasText, Text.byteLength_cons, Text.byteLength_append, Text.byteLength_append,
      Text.byteLength_cons, Text.byteLength_nil, reversed, byteLength_ordinalDigits]
    have brackets : '\u3010'.utf8Size = 3 ∧ '\u3011'.utf8Size = 3 := by decide
    omega
  rw [validAlias, printable_aliasText, decide_eq_true bounded]
  have last : (aliasText category ordinal).getLast? = some '\u3011' := by
    rw [aliasText, ← List.cons_append, List.getLast?_append]
    rfl
  rw [last]
  rfl

/-! ## Consistent ledgers -/

namespace CaseAliasLedger

variable {sha256Hex : Octets → Sha256Hex} {ledger next : CaseAliasLedger}
  {category : DictionaryCategory} {fingerprint : Sha256Hex}

/-- What every ledger satisfies which is assigned and restored from an empty one. -/
structure Consistent (sha256Hex : Octets → Sha256Hex) (ledger : CaseAliasLedger) : Prop where
  version : ledger.schemaVersion = caseAliasLedgerSchemaVersion
  counted : ledger.revision ≠ 0
  bounded : ledger.aliases.length ≤ maxDictionaryEntries
  distinct : (ledger.aliases.map CaseAliasRecord.valueFingerprint).Nodup
  numbered : ∀ category, ((ledger.recordsOf category).map CaseAliasRecord.stableAlias).Perm
    ((List.range (ledger.recordsOf category).length).map (aliasText category))
  hashed : ledger.rehash sha256Hex = .ok ledger

theorem mem_recordsOf {entry : CaseAliasRecord} :
    entry ∈ ledger.recordsOf category ↔ entry ∈ ledger.aliases ∧ entry.category = category := by
  rw [recordsOf, List.mem_filter, decide_eq_true_eq]

/-- Every record has the alias of an ordinal of its category. -/
theorem Consistent.exists_ordinal (consistent : Consistent sha256Hex ledger)
    {entry : CaseAliasRecord} (among : entry ∈ ledger.aliases) :
    ∃ ordinal < (ledger.recordsOf entry.category).length,
      entry.stableAlias = aliasText entry.category ordinal := by
  have inside := List.mem_map_of_mem (f := CaseAliasRecord.stableAlias)
    (Iff.mpr mem_recordsOf ⟨among, rfl⟩)
  obtain ⟨ordinal, below, named⟩ :=
    List.mem_map.mp ((consistent.numbered entry.category).mem_iff.mp inside)
  exact ⟨ordinal, List.mem_range.mp below, named.symm⟩

theorem length_recordsOf_le (ledger : CaseAliasLedger) (category : DictionaryCategory) :
    (ledger.recordsOf category).length ≤ ledger.aliases.length :=
  List.length_filter_le _ _

theorem Consistent.printable (consistent : Consistent sha256Hex ledger) :
    ∀ entry ∈ ledger.aliases, entry.stableAlias.any Text.isControl = false := by
  intro entry among
  obtain ⟨ordinal, _, named⟩ := consistent.exists_ordinal among
  rw [named]
  exact printable_aliasText entry.category ordinal

theorem printable_categoryName (category : DictionaryCategory) :
    (DictionaryCategory.variants.name category).any Text.isControl = false := by
  cases category <;> decide

/-- A record with a printable alias is printable. -/
theorem printable_record {entry : CaseAliasRecord}
    (printable : entry.stableAlias.any Text.isControl = false) :
    (CaseAliasRecord.codec.write entry).Printable := by
  have names : "valueFingerprint".toList.any Text.isControl = false ∧
      "category".toList.any Text.isControl = false ∧
      "stableAlias".toList.any Text.isControl = false := by decide
  exact ⟨names.1, printable_of_validLowerHex entry.valueFingerprint.2, names.2.1,
    printable_categoryName entry.category, names.2.2, printable, trivial⟩

/-- A ledger with printable aliases is printable. -/
theorem printable_write (version : ledger.schemaVersion = caseAliasLedgerSchemaVersion)
    (printable : ∀ entry ∈ ledger.aliases, entry.stableAlias.any Text.isControl = false) :
    (codec.write ledger).Printable := by
  have names : ["schemaVersion", "caseId", "revision", "aliases", "revisionHash"].all
      (fun name => !name.toList.any Text.isControl) = true := by decide
  simp only [List.all_cons, List.all_nil, Bool.and_eq_true, Bool.not_eq_true', Bool.and_true]
    at names
  obtain ⟨schemaVersion, caseId, revision, aliases, revisionHash⟩ := names
  have start : ledger.schemaVersion.any Text.isControl = false := by
    rw [version]
    decide
  have records : PrintableAll (ledger.aliases.map CaseAliasRecord.codec.write) := by
    rw [printableAll_iff]
    intro value among
    obtain ⟨entry, inside, rfl⟩ := List.mem_map.mp among
    exact printable_record (printable entry inside)
  exact ⟨schemaVersion, start, caseId, printable_of_validOpaqueId (by decide) ledger.caseId.2,
    revision, trivial, aliases, records, revisionHash,
    printable_of_validLowerHex ledger.revisionHash.2, trivial⟩

/-- A ledger with printable aliases has a hash. -/
theorem exists_rehash (sha256Hex : Octets → Sha256Hex) (ledger : CaseAliasLedger)
    (version : ledger.schemaVersion = caseAliasLedgerSchemaVersion)
    (printable : ∀ entry ∈ ledger.aliases, entry.stableAlias.any Text.isControl = false) :
    ∃ revisionHash, ledger.rehash sha256Hex = .ok { ledger with revisionHash } := by
  have whole := printable_write version printable
  have claims : (Value.object (ledgerClaims.write ledger.covered)).Printable :=
    (printableMembers_append.mp whole).1
  obtain ⟨bytes, encoded⟩ := exists_canonicalJsonV1 claims
  exact ⟨sha256Hex bytes, by rw [rehash, encoded]⟩

/-- Hashing a ledger which was hashed changes nothing. -/
theorem rehash_of_rehash (hashed : ledger.rehash sha256Hex = .ok next) :
    next.rehash sha256Hex = .ok next := by
  rw [rehash] at hashed
  split at hashed
  next bytes encoded =>
    cases hashed
    rw [rehash]
    dsimp only [covered] at encoded ⊢
    rw [encoded]
  next => cases hashed

/-- A consistent ledger is valid. -/
theorem Consistent.validate (consistent : Consistent sha256Hex ledger) :
    ledger.validate sha256Hex = .ok () := by
  have valid : (ledger.aliases.any fun entry => !validAlias entry.stableAlias) = false := by
    rw [List.any_eq_false]
    intro entry among
    obtain ⟨ordinal, below, named⟩ := consistent.exists_ordinal among
    have small := (ledger.length_recordsOf_le entry.category).trans consistent.bounded
    rw [named, validAlias_aliasText entry.category (Nat.lt_of_lt_of_le below small)]
    exact Bool.false_ne_true
  refine refuseIf_bind_eq_ok.mpr ⟨?_, bind_eq_ok.mpr ⟨ledger, consistent.hashed, ?_⟩⟩
  · rw [valid, not_or, not_or, not_or, Decidable.not_not]
    exact ⟨consistent.version, consistent.counted, Nat.not_lt.mpr consistent.bounded,
      Bool.false_ne_true⟩
  · exact refuseIf_eq_ok.mpr fun changed => changed rfl

/-- A consistent ledger is stored, and restored as it was. -/
theorem Consistent.restores (consistent : Consistent sha256Hex ledger) :
    ∃ bytes, ledger.stateBytes sha256Hex = .ok bytes ∧
      fromStateBytes sha256Hex bytes = .ok ledger := by
  obtain ⟨bytes, encoded⟩ :=
    exists_canonicalJsonV1 (printable_write consistent.version consistent.printable)
  refine ⟨bytes, bind_eq_ok.mpr ⟨(), consistent.validate, by rw [encoded]⟩, ?_⟩
  have back : (strictJsonV1FromSlice bytes).bind codec.read = some ledger :=
    Codec.read_canonical (by decide) encoded
  refine bind_eq_ok.mpr ⟨ledger, presentOr_eq_ok.mpr back, ?_⟩
  exact bind_eq_ok.mpr ⟨(), consistent.validate, rfl⟩

/-- An empty ledger is consistent. -/
theorem consistent_of_empty {caseId : CaseId} (made : empty sha256Hex caseId = .ok ledger) :
    Consistent sha256Hex ledger ∧ ledger.aliases = [] := by
  have hashed := rehash_of_rehash made
  rw [empty, rehash] at made
  split at made
  next bytes encoded =>
    cases made
    exact ⟨{ version := rfl, counted := show (1 : UInt64) ≠ 0 by decide,
             bounded := Nat.zero_le _, distinct := List.nodup_nil,
             numbered := fun _ => List.Perm.refl _, hashed }, rfl⟩
  next => cases made

/-! ## Assignments -/

theorem mem_withRecord {entry other : CaseAliasRecord} :
    other ∈ (ledger.withRecord entry).aliases ↔ other ∈ ledger.aliases ∨ other = entry := by
  rw [withRecord, List.mem_insertionSort, List.mem_append, List.mem_singleton]

theorem perm_recordsOf_withRecord (ledger : CaseAliasLedger) (entry : CaseAliasRecord) :
    ((ledger.withRecord entry).recordsOf entry.category).Perm
      (ledger.recordsOf entry.category ++ [entry]) := by
  have sorted := (List.perm_insertionSort (fun left right => recordBefore left right = true)
    (ledger.aliases ++ [entry])).filter fun other => decide (other.category = entry.category)
  rw [List.filter_append, List.filter_cons_of_pos (by simp), List.filter_nil] at sorted
  exact sorted

/-- The records of another category than that of one which is added. -/
theorem perm_recordsOf_withRecord_of_ne (ledger : CaseAliasLedger) {entry : CaseAliasRecord}
    (different : entry.category ≠ category) :
    ((ledger.withRecord entry).recordsOf category).Perm (ledger.recordsOf category) := by
  have sorted := (List.perm_insertionSort (fun left right => recordBefore left right = true)
    (ledger.aliases ++ [entry])).filter fun other => decide (other.category = category)
  rw [List.filter_append, List.filter_cons_of_neg (by simpa using different), List.filter_nil,
    List.append_nil] at sorted
  exact sorted

/-- The records of every category stay numbered. -/
theorem Consistent.numbered_withRecord (consistent : Consistent sha256Hex ledger)
    (category : DictionaryCategory) (fingerprint : Sha256Hex) (other : DictionaryCategory) :
    (((ledger.withRecord (ledger.nextRecord category fingerprint)).recordsOf other).map
      CaseAliasRecord.stableAlias).Perm
        ((List.range ((ledger.withRecord
          (ledger.nextRecord category fingerprint)).recordsOf other).length).map
            (aliasText other)) := by
  by_cases same : category = other
  · subst same
    have parts : ((ledger.withRecord (ledger.nextRecord category fingerprint)).recordsOf
        category).Perm (ledger.recordsOf category ++ [ledger.nextRecord category fingerprint]) :=
      ledger.perm_recordsOf_withRecord (ledger.nextRecord category fingerprint)
    rw [parts.length_eq, List.length_append, List.length_singleton, List.range_succ,
      List.map_append, List.map_singleton]
    refine (parts.map CaseAliasRecord.stableAlias).trans ?_
    rw [List.map_append, List.map_singleton]
    exact (consistent.numbered category).append_right _
  · have parts := ledger.perm_recordsOf_withRecord_of_ne
      (show (ledger.nextRecord category fingerprint).category ≠ other from same)
    rw [parts.length_eq]
    exact (parts.map _).trans (consistent.numbered other)

/-- The ledger with a new record of a category is consistent, once it is hashed. -/
theorem Consistent.withRecord (consistent : Consistent sha256Hex ledger)
    (fresh : ∀ entry ∈ ledger.aliases, entry.valueFingerprint ≠ fingerprint)
    (room : ledger.aliases.length < maxDictionaryEntries) :
    ∃ hashed, (ledger.withRecord (ledger.nextRecord category fingerprint)).rehash sha256Hex =
        .ok hashed ∧ Consistent sha256Hex hashed ∧
      hashed.aliases = (ledger.withRecord (ledger.nextRecord category fingerprint)).aliases := by
  set entry := ledger.nextRecord category fingerprint with added
  have sorted : (ledger.withRecord entry).aliases.Perm (ledger.aliases ++ [entry]) :=
    List.perm_insertionSort _ _
  have printable : ∀ other ∈ (ledger.withRecord entry).aliases,
      other.stableAlias.any Text.isControl = false := by
    intro other among
    obtain inside | rfl := Iff.mp mem_withRecord among
    · exact consistent.printable other inside
    · exact printable_aliasText _ _
  obtain ⟨revisionHash, hashed⟩ := exists_rehash sha256Hex (ledger.withRecord entry)
    consistent.version printable
  refine ⟨_, hashed, ?_, rfl⟩
  exact
    { version := consistent.version
      counted := saturatingNext64_ne_zero ledger.revision
      bounded := by
        rw [sorted.length_eq, List.length_append]
        exact room
      distinct := by
        refine ((sorted.map _).nodup_iff).mpr ?_
        rw [List.map_append, List.nodup_append]
        refine ⟨consistent.distinct, List.nodup_singleton _, ?_⟩
        intro known inside other new
        obtain ⟨record, among, rfl⟩ := List.mem_map.mp inside
        rw [List.map_singleton, List.mem_singleton] at new
        rw [new]
        exact fresh record among
      numbered := consistent.numbered_withRecord category fingerprint
      hashed := rehash_of_rehash hashed }

/-- What `assign` does with a consistent ledger: it finds the value, has no room, or adds a record
and hashes the ledger. -/
theorem Consistent.assign_cases (consistent : Consistent sha256Hex ledger)
    (category : DictionaryCategory) (fingerprint : Sha256Hex) :
    (∃ entry ∈ ledger.aliases, entry.valueFingerprint = fingerprint ∧
      ledger.assign sha256Hex category fingerprint = (ledger, .ok entry.stableAlias)) ∨
    (∀ entry ∈ ledger.aliases, entry.valueFingerprint ≠ fingerprint) ∧
      (maxDictionaryEntries ≤ ledger.aliases.length ∧
        ledger.assign sha256Hex category fingerprint = (ledger, .error .entryLimitExceeded) ∨
      ledger.aliases.length < maxDictionaryEntries ∧ ∃ hashed, Consistent sha256Hex hashed ∧
        hashed.aliases = (ledger.withRecord (ledger.nextRecord category fingerprint)).aliases ∧
        ledger.assign sha256Hex category fingerprint =
          (hashed, .ok (ledger.nextRecord category fingerprint).stableAlias)) := by
  rw [assign]
  cases found : ledger.aliases.find? fun entry => entry.valueFingerprint == fingerprint with
  | some entry =>
      have same : (entry.valueFingerprint == fingerprint) = true := by
        have passed := List.find?_some found
        exact passed
      exact .inl ⟨entry, List.mem_of_find?_eq_some found, beq_iff_eq.mp same, rfl⟩
  | none =>
      have fresh : ∀ entry ∈ ledger.aliases, entry.valueFingerprint ≠ fingerprint := by
        intro entry among same
        exact List.find?_eq_none.mp found entry among (beq_iff_eq.mpr same)
      refine .inr ⟨fresh, ?_⟩
      dsimp only
      by_cases full : maxDictionaryEntries ≤ ledger.aliases.length
      · exact .inl ⟨full, if_pos full⟩
      · obtain ⟨hashed, done, kept, records⟩ :=
          consistent.withRecord fresh (Nat.lt_of_not_le full)
        refine .inr ⟨Nat.lt_of_not_le full, hashed, kept, records, ?_⟩
        rw [if_neg full, done]

/-! ## Runs -/

/-- What happens to a ledger: a value is assigned, or it is stored and restored. -/
inductive Event where
  | assign (category : DictionaryCategory) (fingerprint : Sha256Hex)
  | restore

/-- The ledger which is restored from what was stored. -/
def restored (sha256Hex : Octets → Sha256Hex) (ledger : CaseAliasLedger) : CaseAliasLedger :=
  match ledger.stateBytes sha256Hex >>= fromStateBytes sha256Hex with
  | .ok restored => restored
  | .error _ => ledger

/-- The ledger of a case. -/
def machine (sha256Hex : Octets → Sha256Hex) : Machine CaseAliasLedger Event where
  step ledger
    | .assign category fingerprint => some (ledger.assign sha256Hex category fingerprint).1
    | .restore => some (ledger.restored sha256Hex)

/-- What an event leaves: records stay, no value has two, an assignment returns the alias which is
recorded, and one which fails, or a restart, changes nothing. -/
structure Faithful (sha256Hex : Octets → Sha256Hex) (ledger : CaseAliasLedger) (event : Event)
    (next : CaseAliasLedger) : Prop where
  stable : ∀ entry ∈ ledger.aliases, entry ∈ next.aliases
  single : (next.aliases.map CaseAliasRecord.valueFingerprint).Nodup
  answered : match event with
    | .assign category fingerprint =>
        match (ledger.assign sha256Hex category fingerprint).2 with
        | .ok stableAlias => ∃ entry ∈ next.aliases,
            entry.valueFingerprint = fingerprint ∧ entry.stableAlias = stableAlias
        | .error _ => next = ledger
    | .restore => next = ledger

theorem Consistent.restored_eq (consistent : Consistent sha256Hex ledger) :
    ledger.restored sha256Hex = ledger := by
  obtain ⟨bytes, stored, back⟩ := consistent.restores
  have whole : ledger.stateBytes sha256Hex >>= fromStateBytes sha256Hex = .ok ledger :=
    bind_eq_ok.mpr ⟨bytes, stored, back⟩
  rw [restored, whole]

/-- An assignment is faithful when what it returns is. -/
theorem faithful_assign {result : CaseAliasLedger × Except CaseDictionaryError Text}
    (assigned : ledger.assign sha256Hex category fingerprint = result)
    (consistent : Consistent sha256Hex result.1)
    (stable : ∀ entry ∈ ledger.aliases, entry ∈ result.1.aliases)
    (answered : match result.2 with
      | .ok stableAlias => ∃ entry ∈ result.1.aliases,
          entry.valueFingerprint = fingerprint ∧ entry.stableAlias = stableAlias
      | .error _ => result.1 = ledger) :
    Consistent sha256Hex (ledger.assign sha256Hex category fingerprint).1 ∧
      Faithful sha256Hex ledger (.assign category fingerprint)
        (ledger.assign sha256Hex category fingerprint).1 := by
  subst assigned
  exact ⟨consistent, stable, consistent.distinct, answered⟩

/-- Every event keeps a ledger consistent, and leaves what was recorded. -/
theorem Consistent.step (consistent : Consistent sha256Hex ledger) {event : Event}
    (stepped : (machine sha256Hex).step ledger event = some next) :
    Consistent sha256Hex next ∧ Faithful sha256Hex ledger event next := by
  cases event with
  | restore =>
      cases stepped
      rw [consistent.restored_eq]
      exact ⟨consistent, fun _ among => among, consistent.distinct, rfl⟩
  | assign category fingerprint =>
      cases stepped
      obtain ⟨entry, among, same, assigned⟩ | ⟨fresh, ⟨full, assigned⟩ |
        ⟨room, hashed, kept, records, assigned⟩⟩ := consistent.assign_cases category fingerprint
      · exact faithful_assign assigned consistent (fun _ inside => inside)
          ⟨entry, among, same, rfl⟩
      · exact faithful_assign assigned consistent (fun _ inside => inside) rfl
      · have added : ∀ entry ∈ (ledger.withRecord (ledger.nextRecord category
            fingerprint)).aliases, entry ∈ hashed.aliases := fun entry among => records ▸ among
        exact faithful_assign assigned kept
          (fun entry among => added entry (Iff.mpr mem_withRecord (.inl among)))
          ⟨ledger.nextRecord category fingerprint, added _ (Iff.mpr mem_withRecord (.inr rfl)),
            rfl, rfl⟩

/-! ## Shared aliases -/

/-- No two values have one alias. -/
def Unambiguous (ledger : CaseAliasLedger) : Prop :=
  ∀ first ∈ ledger.aliases, ∀ second ∈ ledger.aliases,
    first.stableAlias = second.stableAlias → first.valueFingerprint = second.valueFingerprint

/-- Records whose categories have one stem are of one category. -/
def OneCategoryForStem (ledger : CaseAliasLedger) : Prop :=
  ∀ first ∈ ledger.aliases, ∀ second ∈ ledger.aliases,
    first.category.aliasStem = second.category.aliasStem → first.category = second.category

theorem Consistent.eq_of_fingerprint (consistent : Consistent sha256Hex ledger)
    {first second : CaseAliasRecord} (among : first ∈ ledger.aliases)
    (among' : second ∈ ledger.aliases)
    (same : first.valueFingerprint = second.valueFingerprint) : first = second :=
  List.inj_on_of_nodup_map consistent.distinct among among' same

/-- A category with a record has one with the first ordinal. -/
theorem Consistent.exists_first (consistent : Consistent sha256Hex ledger)
    {entry : CaseAliasRecord} (among : entry ∈ ledger.aliases) :
    ∃ first ∈ ledger.aliases, first.category = entry.category ∧
      first.stableAlias = aliasText entry.category 0 := by
  have inside : aliasText entry.category 0 ∈
      (List.range (ledger.recordsOf entry.category).length).map (aliasText entry.category) :=
    List.mem_map_of_mem (List.mem_range.mpr
      (List.length_pos_of_mem (Iff.mpr mem_recordsOf ⟨among, rfl⟩)))
  obtain ⟨first, member, named⟩ :=
    List.mem_map.mp ((consistent.numbered entry.category).mem_iff.mpr inside)
  obtain ⟨among, same⟩ := Iff.mp mem_recordsOf member
  exact ⟨first, among, same, named⟩

/-- No two values have one alias exactly when no two categories with one stem have records. -/
theorem Consistent.unambiguous_iff (consistent : Consistent sha256Hex ledger) :
    ledger.Unambiguous ↔ ledger.OneCategoryForStem := by
  constructor
  · intro unambiguous first among second among' stems
    obtain ⟨lead, inside, category, named⟩ := consistent.exists_first among
    obtain ⟨lead', inside', category', named'⟩ := consistent.exists_first among'
    have shared : lead.stableAlias = lead'.stableAlias := by
      rw [named, named', aliasText_inj]
      exact ⟨stems, rfl⟩
    rw [← category, ← category',
      consistent.eq_of_fingerprint inside inside' (unambiguous _ inside _ inside' shared)]
  · intro single first among second among' shared
    obtain ⟨ordinal, _, named⟩ := consistent.exists_ordinal among
    obtain ⟨ordinal', _, named'⟩ := consistent.exists_ordinal among'
    have stems := (aliasText_inj.mp (named.symm.trans (shared.trans named'))).1
    have category := single first among second among' stems
    have distinct : ((ledger.recordsOf first.category).map CaseAliasRecord.stableAlias).Nodup := by
      rw [(consistent.numbered first.category).nodup_iff]
      exact List.nodup_range.map fun _ _ same => (aliasText_inj.mp same).2
    rw [List.inj_on_of_nodup_map distinct (Iff.mpr mem_recordsOf ⟨among, rfl⟩)
      (Iff.mpr mem_recordsOf ⟨among', category.symm⟩) shared]

theorem Consistent.nodup_aliases (consistent : Consistent sha256Hex ledger)
    (unambiguous : ledger.Unambiguous) :
    (ledger.aliases.map CaseAliasRecord.stableAlias).Nodup :=
  List.Nodup.map_on
    (fun first among second among' shared =>
      consistent.eq_of_fingerprint among among' (unambiguous first among second among' shared))
    (List.Nodup.of_map _ consistent.distinct)

/-- An assignment which shares no stem: the value is known, there is no room, or every record with
the stem of the category is of the category. -/
def Separate (ledger : CaseAliasLedger) : Event → Prop
  | .assign category fingerprint =>
      (∃ entry ∈ ledger.aliases, entry.valueFingerprint = fingerprint) ∨
      maxDictionaryEntries ≤ ledger.aliases.length ∨
      ∀ entry ∈ ledger.aliases, entry.category.aliasStem = category.aliasStem →
        entry.category = category
  | .restore => True

instance (ledger : CaseAliasLedger) : (event : Event) → Decidable (ledger.Separate event)
  | .assign category fingerprint => inferInstanceAs (Decidable
      ((∃ entry ∈ ledger.aliases, entry.valueFingerprint = fingerprint) ∨
        maxDictionaryEntries ≤ ledger.aliases.length ∨
        ∀ entry ∈ ledger.aliases, entry.category.aliasStem = category.aliasStem →
          entry.category = category))
  | .restore => inferInstanceAs (Decidable True)

/-- An event shares no stem exactly when it leaves one category for each. -/
theorem Consistent.separate_iff (consistent : Consistent sha256Hex ledger)
    (single : ledger.OneCategoryForStem) {event : Event}
    (stepped : (machine sha256Hex).step ledger event = some next) :
    ledger.Separate event ↔ next.OneCategoryForStem := by
  cases event with
  | restore =>
      cases stepped
      rw [consistent.restored_eq]
      exact iff_of_true trivial single
  | assign category fingerprint =>
      cases stepped
      obtain ⟨entry, among, same, assigned⟩ | ⟨fresh, ⟨full, assigned⟩ |
        ⟨room, hashed, kept, records, assigned⟩⟩ := consistent.assign_cases category fingerprint
      · rw [assigned]
        exact iff_of_true (.inl ⟨entry, among, same⟩) single
      · rw [assigned]
        exact iff_of_true (.inr (.inl full)) single
      · rw [assigned, OneCategoryForStem, records]
        constructor
        · rintro (⟨entry, among, same⟩ | full | apart)
          · exact absurd same (fresh entry among)
          · exact absurd full (Nat.not_le.mpr room)
          · intro first among second among' stems
            obtain inside | rfl := Iff.mp mem_withRecord among
            · obtain inside' | rfl := Iff.mp mem_withRecord among'
              · exact single first inside second inside' stems
              · exact apart first inside stems
            · obtain inside' | rfl := Iff.mp mem_withRecord among'
              · exact (apart second inside' stems.symm).symm
              · rfl
        · intro left
          refine .inr (.inr fun entry among stems => ?_)
          exact left entry (Iff.mpr mem_withRecord (.inl among)) _ (Iff.mpr mem_withRecord (.inr rfl)) stems

/-- Fewer records of a ledger leave one category for each stem. -/
theorem OneCategoryForStem.of_subset (single : next.OneCategoryForStem)
    (stable : ∀ entry ∈ ledger.aliases, entry ∈ next.aliases) : ledger.OneCategoryForStem :=
  fun first among second among' => single first (stable first among) second (stable second among')

/-- A run from a ledger leaves what was recorded. -/
theorem Consistent.run (consistent : Consistent sha256Hex ledger) {events : List Event}
    (runs : (machine sha256Hex).run ledger events = some next) :
    Consistent sha256Hex next ∧ ∀ entry ∈ ledger.aliases, entry ∈ next.aliases := by
  refine ⟨Machine.run_invariant (Consistent sha256Hex)
    (fun consistent stepped => (consistent.step stepped).1) consistent runs, ?_⟩
  exact Machine.run_relation (Consistent sha256Hex)
    (fun before after => ∀ entry ∈ before.aliases, entry ∈ after.aliases)
    (fun _ _ among => among) (fun first second entry among => second entry (first entry among))
    (fun consistent stepped =>
      ⟨(consistent.step stepped).1, (consistent.step stepped).2.stable⟩) consistent runs

/-- A run leaves one category for each stem exactly when no event of it shares one. -/
theorem Consistent.along_separate_iff {events : List Event}
    (consistent : Consistent sha256Hex ledger) (single : ledger.OneCategoryForStem)
    (runs : (machine sha256Hex).run ledger events = some next) :
    (machine sha256Hex).Along (fun ledger event _ => ledger.Separate event) ledger events ↔
      next.OneCategoryForStem := by
  induction events generalizing ledger with
  | nil =>
      cases runs
      exact iff_of_true trivial single
  | cons event rest inductionHypothesis =>
      obtain ⟨middle, stepped, runs⟩ := Machine.run_cons_eq_some _ |>.mp runs
      have kept := (consistent.step stepped).1
      have here := consistent.separate_iff single stepped
      constructor
      · intro along
        obtain ⟨separate, following⟩ := along middle stepped
        exact (inductionHypothesis kept (here.mp separate) runs).mp following
      · intro left other stepped'
        obtain rfl := Option.some.inj (stepped.symm.trans stepped')
        have single' := left.of_subset (kept.run runs).2
        exact ⟨here.mpr single', (inductionHypothesis kept single' runs).mpr left⟩

/-! ## Results -/

/-- In every run from the empty ledger of a case an alias stays with its value, a value has one
alias, an assignment which fails changes nothing and a ledger is restored as it was. No two values
have one alias, and no residual scan of the terms of the ledger reports that they do, exactly when
every new value was assigned in a category none of whose stem another category has used. -/
theorem aliases_are_unique_iff_separate {caseId : CaseId} {start final : CaseAliasLedger}
    {events : List Event} (made : empty sha256Hex caseId = .ok start)
    (runs : (machine sha256Hex).run start events = some final) :
    (machine sha256Hex).Along (Faithful sha256Hex) start events ∧
    ((final.Unambiguous ∧ ∀ findIter input report,
        input.dictionaryTerms.map ResidualDictionaryTerm.expectedAlias =
          final.aliases.map CaseAliasRecord.stableAlias →
        scanIndependentResiduals sha256Hex findIter input = .ok report →
        ∀ hit ∈ report.hits, hit.reasonCode ≠ "dictionary_alias_not_unique".toList) ↔
      (machine sha256Hex).Along (fun ledger event _ => ledger.Separate event) start events) := by
  obtain ⟨consistent, none⟩ := consistent_of_empty made
  have kept := (consistent.run runs).1
  have single : start.OneCategoryForStem := by
    intro first among
    rw [none] at among
    cases among
  refine ⟨Machine.along_of_step (fun held stepped => Consistent.step held stepped) events
    consistent, ?_⟩
  rw [consistent.along_separate_iff single runs, ← kept.unambiguous_iff, and_iff_left_iff_imp]
  intro unambiguous findIter input report terms scanned hit among named
  refine (scan_reports_sharedAlias scanned).mp ⟨hit, among, named⟩ ?_
  rw [terms]
  exact kept.nodup_aliases unambiguous

/-- A case with a ledger. -/
def sampleCase : CaseId := ⟨"case_".toList ++ List.replicate 32 '1', Eq.refl true⟩

/-- A value of the case. -/
def firstValue : Sha256Hex := ⟨List.replicate 64 '1', Eq.refl true⟩

/-- Another value of the case. -/
def secondValue : Sha256Hex := ⟨List.replicate 64 '2', Eq.refl true⟩

/-- The empty ledger of the case, when everything has one hash. -/
def sampleLedger : CaseAliasLedger :=
  { schemaVersion := caseAliasLedgerSchemaVersion, caseId := sampleCase, revision := 1
    aliases := [], revisionHash := firstValue }

/-- A party and a company have different aliases. -/
theorem party_and_company_stay_apart :
    ∃ final, empty (fun _ => firstValue) sampleCase = .ok sampleLedger ∧
      (machine fun _ => firstValue).run sampleLedger
        [.assign .party firstValue, .assign .company secondValue] = some final ∧
      final.Unambiguous := by
  have made : empty (fun _ => firstValue) sampleCase = .ok sampleLedger := by decide
  have runs : (machine fun _ => firstValue).run sampleLedger
      [.assign .party firstValue, .assign .company secondValue] = some
        ((sampleLedger.assign (fun _ => firstValue) .party firstValue).1.assign
          (fun _ => firstValue) .company secondValue).1 := rfl
  refine ⟨_, made, runs, ((aliases_are_unique_iff_separate made runs).2.mpr ?_).1⟩
  intro next stepped
  cases stepped
  refine ⟨by decide, fun next stepped => ?_⟩
  cases stepped
  exact ⟨by decide, trivial⟩

/-- A party and an agent are both the first person of their category, and have one alias. -/
theorem party_and_agent_share_an_alias :
    ¬ ∀ (sha256Hex : Octets → Sha256Hex) (caseId : CaseId) (start final : CaseAliasLedger)
      (events : List Event), empty sha256Hex caseId = .ok start →
      (machine sha256Hex).run start events = some final → final.Unambiguous := by
  intro claimed
  have made : empty (fun _ => firstValue) sampleCase = .ok sampleLedger := by decide
  have unambiguous := claimed (fun _ => firstValue) sampleCase sampleLedger _
    [.assign .party firstValue, .assign .agent secondValue] made rfl
  have shared : ((sampleLedger.assign (fun _ => firstValue) .party firstValue).1.assign
      (fun _ => firstValue) .agent secondValue).1.aliases =
        [{ valueFingerprint := firstValue, category := .party, stableAlias := aliasText .party 0 },
         { valueFingerprint := secondValue, category := .agent,
           stableAlias := aliasText .party 0 }] := by
    decide
  have same := unambiguous { valueFingerprint := firstValue, category := .party,
                             stableAlias := aliasText .party 0 }
    (by rw [shared]; exact List.mem_cons_self)
    { valueFingerprint := secondValue, category := .agent, stableAlias := aliasText .party 0 }
    (by rw [shared]; exact List.mem_cons_of_mem _ List.mem_cons_self) rfl
  exact absurd same (by decide)

end CaseAliasLedger

end LawyerAssistance.Privacy
