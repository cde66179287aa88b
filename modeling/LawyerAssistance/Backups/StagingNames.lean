import LawyerAssistance.Backups.Staging
import Mathlib.Data.List.Infix

/-!
# Names of temporary files

The five kinds of files which the operations write in `.staging`, the names which each kind has,
and the names which `is_exact_backup_staging_name` accepts. Every kind but the file of a
revocation is accepted, and what is accepted beyond the names of the kinds is a file beside the
file of an atomic write.
-/

namespace LawyerAssistance.Backups

open Privacy Lifecycle

/-! ## Kinds -/

/-- The files which the operations write in `.staging`. -/
inductive StagingKind where
  | snapshot
  | restore
  | verify
  | write
  | revocation
  deriving DecidableEq

namespace StagingKind

/-- A database in plaintext, beside which SQLite has files of its own. -/
def isDatabase : StagingKind → Bool
  | .snapshot | .restore | .verify => true
  | .write | .revocation => false

/-- What is between the identifier and the random digits of a name. -/
def infixText : StagingKind → Text
  | .verify => "-verify-".toList
  | .write => "-write-".toList
  | .snapshot | .restore | .revocation => "-".toList

/-- What is behind the random digits of a name. -/
def ending : StagingKind → Text
  | .snapshot => "-sqlite".toList
  | .restore => "-restore.sqlite".toList
  | .verify => ".sqlite".toList
  | .write => ".tmp".toList
  | .revocation => "-state.tmp".toList

end StagingKind

/-- The name of a file of a kind. -/
def stagingName (kind : StagingKind) (backupId : Text) (random : NameRandom) : Text :=
  backupId ++ (kind.infixText ++ (hexLower random.1 ++ kind.ending))

theorem temporaryName_sqlite (backupId : Text) (random : NameRandom) :
    temporaryName backupId random "sqlite".toList = stagingName .snapshot backupId random := by
  rw [temporaryName, stagingName, List.append_assoc]
  rfl

theorem temporaryName_restore (backupId : Text) (random : NameRandom) :
    temporaryName backupId random "restore.sqlite".toList =
      stagingName .restore backupId random := by
  rw [temporaryName, stagingName, List.append_assoc]
  rfl

theorem temporaryName_state (backupId : Text) (random : NameRandom) :
    temporaryName backupId random "state.tmp".toList =
      stagingName .revocation backupId random := by
  rw [temporaryName, stagingName, List.append_assoc]
  rfl

theorem verifyName_eq (backupId : Text) (random : NameRandom) :
    verifyName backupId random = stagingName .verify backupId random := by
  rw [verifyName, stagingName, List.append_assoc, List.append_assoc]
  rfl

theorem writeName_eq (backupId : Text) (random : NameRandom) :
    writeName backupId random = stagingName .write backupId random := by
  rw [writeName, stagingName, List.append_assoc, List.append_assoc]
  rfl

/-- The names of a kind: its file, and the files which SQLite has beside a database. -/
inductive StagingKind.Names (kind : StagingKind) : Text → Prop
  | file {backupId : Text} (valid : validOpaqueId "bkp_".toList backupId = true)
      (random : NameRandom) : kind.Names (stagingName kind backupId random)
  | beside {backupId : Text} (valid : validOpaqueId "bkp_".toList backupId = true)
      (random : NameRandom) (database : kind.isDatabase = true) (sidecar : Sidecar) :
      kind.Names (stagingName kind backupId random ++ sidecar.suffix)

/-- A name which an operation can give to a file of `.staging`. -/
def Creatable (name : Text) : Prop := ∃ kind : StagingKind, kind.Names name

/-- A name of a database in plaintext, or of a file beside one. -/
def Plaintext (name : Text) : Prop := ∃ kind : StagingKind, kind.isDatabase = true ∧ kind.Names name

/-- A name of a file beside the file of an atomic write, which SQLite does not have open. -/
def BesideWrite (name : Text) : Prop :=
  ∃ backupId random, ∃ sidecar : Sidecar, validOpaqueId "bkp_".toList backupId = true ∧
    name = stagingName .write backupId random ++ sidecar.suffix

/-! ## Digits -/

/-- A digit is the one which is written for its value. -/
theorem exists_hexCharacter {character : Char} (digit : isLowerHex character = true) :
    ∃ value < 16, Json.hexCharacter value = character := by
  rw [isLowerHex, Bool.or_eq_true, Char.isDigit, Bool.and_eq_true, Bool.and_eq_true,
    decide_eq_true_eq, decide_eq_true_eq, decide_eq_true_eq, decide_eq_true_eq] at digit
  obtain ⟨above, below⟩ | ⟨above, below⟩ := digit
  · have low : 48 ≤ character.toNat := above
    have high : character.toNat ≤ 57 := below
    refine ⟨character.toNat - 48, by omega, ?_⟩
    rw [Json.hexCharacter, if_pos (by omega), show 0x30 + (character.toNat - 48) = character.toNat by
      omega, Char.ofNat_toNat]
  · have low : 97 ≤ character.toNat := Char.le_def.mp above
    have high : character.toNat ≤ 102 := Char.le_def.mp below
    refine ⟨character.toNat - 87, by omega, ?_⟩
    rw [Json.hexCharacter, if_neg (by omega), show 0x57 + (character.toNat - 87) = character.toNat by
      omega, Char.ofNat_toNat]

/-- An even number of digits spells bytes. -/
theorem exists_hexLower {text : Text} {count : Nat} (long : text.length = 2 * count)
    (digits : text.all isLowerHex = true) :
    ∃ bytes : Octets, bytes.length = count ∧ hexLower bytes = text := by
  induction count generalizing text with
  | zero =>
      refine ⟨[], rfl, ?_⟩
      rw [List.length_eq_zero_iff.mp long]
      rfl
  | succ count inductionHypothesis =>
      obtain ⟨high, low, rest, rfl⟩ : ∃ high low rest, text = high :: low :: rest := by
        match text with
        | high :: low :: rest => exact ⟨high, low, rest, rfl⟩
        | [_] => rw [List.length_singleton] at long; omega
        | [] => rw [List.length_nil] at long; omega
      rw [List.all_cons, List.all_cons, Bool.and_eq_true, Bool.and_eq_true] at digits
      rw [List.length_cons, List.length_cons] at long
      obtain ⟨bytes, counted, spelled⟩ := inductionHypothesis (by omega) digits.2.2
      obtain ⟨first, firstSmall, rfl⟩ := exists_hexCharacter digits.1
      obtain ⟨second, secondSmall, rfl⟩ := exists_hexCharacter digits.2.1
      refine ⟨UInt8.ofNat (first * 16 + second) :: bytes, by rw [List.length_cons, counted], ?_⟩
      have value : (UInt8.ofNat (first * 16 + second)).toNat = first * 16 + second :=
        UInt8.toNat_ofNat_of_lt' (by rw [UInt8.size]; omega)
      rw [hexLower, List.flatMap_cons, ← hexLower, spelled, hexByte, value,
        show (first * 16 + second) / 16 = first by omega,
        show (first * 16 + second) % 16 = second by omega]
      rfl

theorem utf8Size_of_isLowerHex {character : Char} (digit : isLowerHex character = true) :
    character.utf8Size = 1 := by
  obtain ⟨value, small, rfl⟩ := exists_hexCharacter digit
  have sized : ∀ value < 16, (Json.hexCharacter value).utf8Size = 1 := by decide
  exact sized value small

theorem toNat_lt_of_isLowerHex {character : Char} (digit : isLowerHex character = true) :
    character.toNat < 128 := by
  obtain ⟨value, small, rfl⟩ := exists_hexCharacter digit
  have sized : ∀ value < 16, (Json.hexCharacter value).toNat < 128 := by decide
  exact sized value small

/-- Digits take as many bytes as there are characters. -/
theorem byteLength_of_isLowerHex {text : Text} (digits : text.all isLowerHex = true) :
    Text.byteLength text = text.length := by
  induction text with
  | nil => rfl
  | cons character rest inductionHypothesis =>
      rw [List.all_cons, Bool.and_eq_true] at digits
      rw [Text.byteLength_cons, utf8Size_of_isLowerHex digits.1, inductionHypothesis digits.2,
        List.length_cons, Nat.add_comm]

/-- A valid text of digits has the length which is asked for. -/
theorem validLowerHex_iff {text : Text} {length : Nat} :
    validLowerHex text length = true ↔ text.length = length ∧ text.all isLowerHex = true := by
  rw [validLowerHex, Bool.and_eq_true, beq_iff_eq]
  constructor
  · rintro ⟨long, digits⟩
    exact ⟨(byteLength_of_isLowerHex digits).symm.trans long, digits⟩
  · rintro ⟨long, digits⟩
    exact ⟨(byteLength_of_isLowerHex digits).trans long, digits⟩

/-- A valid identifier is what it begins with and 32 digits. -/
theorem validOpaqueId_iff {start value : Text} : validOpaqueId start value = true ↔
    ∃ digits : Text, value = start ++ digits ∧ digits.length = 32 ∧
      digits.all isLowerHex = true := by
  rw [validOpaqueId]
  split
  next suffix found =>
    obtain rfl := List.isPrefixOf?_eq_some_iff_append_eq.mp found
    rw [validLowerHex_iff]
    constructor
    · exact fun valid => ⟨suffix, rfl, valid⟩
    · rintro ⟨digits, same, valid⟩
      rw [List.append_cancel_left same]
      exact valid
  next missing =>
    refine ⟨fun valid => (by cases valid), ?_⟩
    rintro ⟨digits, rfl, _⟩
    rw [List.isPrefixOf?_eq_some_iff_append_eq.mpr rfl] at missing
    cases missing

/-! ## Files beside a database -/

/-- A suffix is taken off exactly a text which ends with it. -/
theorem isSuffixOf?_eq_some {suffix text front : Text} :
    suffix.isSuffixOf? text = some front ↔ front ++ suffix = text := by
  rw [List.isSuffixOf?, Option.map_eq_some_iff]
  constructor
  · rintro ⟨reversed, found, rfl⟩
    have spelled := List.append_eq_of_isPrefixOf?_eq_some found
    rw [← List.reverse_reverse text, ← spelled, List.reverse_append, List.reverse_reverse]
  · rintro rfl
    refine ⟨front.reverse, List.isPrefixOf?_eq_some_iff_append_eq.mpr ?_, List.reverse_reverse _⟩
    exact List.reverse_append.symm

/-- A suffix is not taken off a text which ends with another one. -/
theorem isSuffixOf?_eq_none {suffix other : Text} (apart : ¬ suffix <:+ other)
    (apart' : ¬ other <:+ suffix) (front : Text) : suffix.isSuffixOf? (front ++ other) = none := by
  rw [Option.eq_none_iff_forall_ne_some]
  intro rest found
  have ends : suffix <:+ front ++ other := ⟨rest, isSuffixOf?_eq_some.mp found⟩
  obtain inside | inside := List.suffix_or_suffix_of_suffix ends (List.suffix_append front other)
  · exact apart inside
  · exact apart' inside

/-- A name without the suffix of a file beside a database, one suffix after the other. -/
theorem withoutSidecar_eq (fileName : Text) : withoutSidecar fileName =
    (((Sidecar.journal.suffix.isSuffixOf? fileName).or
      (Sidecar.wal.suffix.isSuffixOf? fileName)).or
        (Sidecar.shm.suffix.isSuffixOf? fileName)).getD fileName := by
  rw [withoutSidecar, List.map_cons, List.map_cons, List.map_cons, List.map_nil, List.findSome?_cons,
    List.findSome?_cons, List.findSome?_cons, List.findSome?_nil]
  rw [show "-journal".toList = Sidecar.journal.suffix from rfl,
    show "-wal".toList = Sidecar.wal.suffix from rfl,
    show "-shm".toList = Sidecar.shm.suffix from rfl]
  cases Sidecar.journal.suffix.isSuffixOf? fileName <;>
    cases Sidecar.wal.suffix.isSuffixOf? fileName <;>
    cases Sidecar.shm.suffix.isSuffixOf? fileName <;> rfl

/-- The name of a file beside a database is the name of the database with a suffix. -/
theorem withoutSidecar_sidecar (base : Text) (sidecar : Sidecar) :
    withoutSidecar (base ++ sidecar.suffix) = base := by
  have apart : ∀ first second : Sidecar, first ≠ second → ¬ first.suffix <:+ second.suffix := by
    intro first second different
    cases first <;> cases second <;> first | exact absurd rfl different | decide
  have found : ∀ other : Sidecar, other.suffix.isSuffixOf? (base ++ sidecar.suffix) =
      if other = sidecar then some base else none := by
    intro other
    split_ifs with same
    · rw [same]
      exact isSuffixOf?_eq_some.mpr rfl
    · exact isSuffixOf?_eq_none (apart other sidecar same) (apart sidecar other (Ne.symm same)) base
  rw [withoutSidecar_eq, found, found, found]
  cases sidecar <;> rfl

/-- A name which ends like the files of the kinds do is left as it is. -/
theorem withoutSidecar_plain (front : Text) {last : Char} (known : last = 'e' ∨ last = 'p') :
    withoutSidecar (front ++ [last]) = front ++ [last] := by
  have missing : ∀ sidecar : Sidecar, sidecar.suffix.isSuffixOf? (front ++ [last]) = none := by
    intro sidecar
    refine isSuffixOf?_eq_none ?_ ?_ front
    all_goals rcases known with rfl | rfl <;> cases sidecar <;> decide
  rw [withoutSidecar_eq, missing, missing, missing]
  rfl

/-- The name without a suffix is the name, or what is before the suffix. -/
theorem exists_sidecar (fileName : Text) : fileName = withoutSidecar fileName ∨
    ∃ sidecar : Sidecar, fileName = withoutSidecar fileName ++ sidecar.suffix := by
  rw [withoutSidecar_eq]
  rcases first : Sidecar.journal.suffix.isSuffixOf? fileName with _ | front
  · rcases second : Sidecar.wal.suffix.isSuffixOf? fileName with _ | front
    · rcases third : Sidecar.shm.suffix.isSuffixOf? fileName with _ | front
      · exact .inl rfl
      · exact .inr ⟨.shm, (isSuffixOf?_eq_some.mp third).symm⟩
    · exact .inr ⟨.wal, (isSuffixOf?_eq_some.mp second).symm⟩
  · exact .inr ⟨.journal, (isSuffixOf?_eq_some.mp first).symm⟩

/-! ## Recognition -/

/-- Random digits and a suffix. -/
theorem hasRandomSuffix_iff {value suffix : Text} : hasRandomSuffix value suffix = true ↔
    ∃ random : NameRandom, value = hexLower random.1 ++ suffix := by
  rw [hasRandomSuffix, isLowerHexExact, Bool.and_eq_true, Bool.and_eq_true, Bool.and_eq_true,
    beq_iff_eq, beq_iff_eq, beq_iff_eq]
  constructor
  · rintro ⟨⟨_, long, digits⟩, behind⟩
    have even : (value.take 16).length = 2 * 8 := long
    obtain ⟨bytes, counted, spelled⟩ := exists_hexLower even digits
    refine ⟨⟨bytes, counted⟩, ?_⟩
    rw [spelled, ← behind, List.take_append_drop]
  · rintro ⟨random, rfl⟩
    have long : (hexLower random.1).length = 16 := by rw [length_hexLower, random.2]
    refine ⟨⟨by rw [List.length_append, long], ?_, ?_⟩, ?_⟩
    · rw [← long, List.take_left]
    · rw [← long, List.take_left]
      exact isLowerHex_hexLower random.1
    · rw [← long, List.drop_left]

/-- A text behind another one, with one of some endings behind random digits. -/
theorem hasTail_iff {start tail : Text} {endings : List Text} : hasTail start endings tail = true ↔
    ∃ ending ∈ endings, ∃ random : NameRandom, tail = start ++ (hexLower random.1 ++ ending) := by
  rw [hasTail]
  split
  next value found =>
    obtain rfl := List.isPrefixOf?_eq_some_iff_append_eq.mp found
    rw [List.any_eq_true]
    refine exists_congr fun ending => and_congr_right fun _ => hasRandomSuffix_iff.trans ?_
    exact exists_congr fun random => (List.append_right_inj start).symm
  next missing =>
    refine ⟨nofun, ?_⟩
    rintro ⟨ending, _, random, rfl⟩
    rw [List.isPrefixOf?_eq_some_iff_append_eq.mpr rfl] at missing
    cases missing

/-- The three shapes of a name behind its identifier. -/
theorem exists_kind_iff {tail : Text} :
    ((hasTail "-".toList ["-sqlite".toList, "-restore.sqlite".toList] tail ||
      hasTail "-verify-".toList [".sqlite".toList] tail) ||
        hasTail "-write-".toList [".tmp".toList] tail) = true ↔
    ∃ kind : StagingKind, kind ≠ .revocation ∧ ∃ random : NameRandom,
      tail = kind.infixText ++ (hexLower random.1 ++ kind.ending) := by
  rw [Bool.or_eq_true, Bool.or_eq_true, hasTail_iff, hasTail_iff, hasTail_iff]
  constructor
  · rintro ((⟨ending, among, random, rfl⟩ | ⟨ending, among, random, rfl⟩) |
      ⟨ending, among, random, rfl⟩)
    · obtain rfl | rfl := List.mem_pair.mp among
      · exact ⟨.snapshot, nofun, random, rfl⟩
      · exact ⟨.restore, nofun, random, rfl⟩
    · rw [List.mem_singleton.mp among]
      exact ⟨.verify, nofun, random, rfl⟩
    · rw [List.mem_singleton.mp among]
      exact ⟨.write, nofun, random, rfl⟩
  · rintro ⟨kind, plain, random, rfl⟩
    cases kind with
    | snapshot => exact .inl (.inl ⟨_, List.mem_pair.mpr (.inl rfl), random, rfl⟩)
    | restore => exact .inl (.inl ⟨_, List.mem_pair.mpr (.inr rfl), random, rfl⟩)
    | verify => exact .inl (.inr ⟨_, List.mem_singleton_self _, random, rfl⟩)
    | write => exact .inr ⟨_, List.mem_singleton_self _, random, rfl⟩
    | revocation => exact absurd rfl plain

/-- A name of a kind has only ASCII characters. -/
theorem ascii_stagingName (kind : StagingKind) {backupId : Text}
    (valid : validOpaqueId "bkp_".toList backupId = true) (random : NameRandom) :
    (stagingName kind backupId random).all (fun character => decide (character.toNat < 128)) =
      true := by
  have ascii {digits : Text} (hexadecimal : digits.all isLowerHex = true) :
      digits.all (fun character => decide (character.toNat < 128)) = true := by
    rw [List.all_eq_true] at hexadecimal ⊢
    intro character among
    exact decide_eq_true (toNat_lt_of_isLowerHex (hexadecimal character among))
  obtain ⟨digits, rfl, _, hexadecimal⟩ := validOpaqueId_iff.mp valid
  rw [stagingName, List.all_append, List.all_append, List.all_append, List.all_append,
    ascii hexadecimal, ascii (isLowerHex_hexLower random.1)]
  cases kind <;> rfl

/-- A file of a kind is not taken for one beside a database. -/
theorem withoutSidecar_stagingName (kind : StagingKind) (backupId : Text) (random : NameRandom) :
    withoutSidecar (stagingName kind backupId random) = stagingName kind backupId random := by
  obtain ⟨front, last, known, spelled⟩ : ∃ front last, (last = 'e' ∨ last = 'p') ∧
      kind.ending = front ++ [last] := by
    cases kind with
    | snapshot => exact ⟨"-sqlit".toList, 'e', .inl rfl, rfl⟩
    | restore => exact ⟨"-restore.sqlit".toList, 'e', .inl rfl, rfl⟩
    | verify => exact ⟨".sqlit".toList, 'e', .inl rfl, rfl⟩
    | write => exact ⟨".tm".toList, 'p', .inr rfl, rfl⟩
    | revocation => exact ⟨"-state.tm".toList, 'p', .inr rfl, rfl⟩
  rw [stagingName, spelled, ← List.append_assoc, ← List.append_assoc, ← List.append_assoc]
  exact withoutSidecar_plain _ known

/-- The names which are accepted are those of the kinds but the file of a revocation, and those of
files beside them. -/
theorem isExactBackupStagingName_iff {name : Text} : isExactBackupStagingName name = true ↔
    ∃ kind : StagingKind, kind ≠ .revocation ∧ ∃ backupId, ∃ random : NameRandom,
      validOpaqueId "bkp_".toList backupId = true ∧
        withoutSidecar name = stagingName kind backupId random := by
  rw [isExactBackupStagingName, Bool.and_eq_true]
  constructor
  · rintro ⟨_, shaped⟩
    split at shaped
    next afterPrefix found =>
      rw [Bool.and_eq_true, Bool.and_eq_true, decide_eq_true_eq, exists_kind_iff, isLowerHexExact,
        Bool.and_eq_true, beq_iff_eq] at shaped
      obtain ⟨⟨_, long, digits⟩, kind, plain, random, tail⟩ := shaped
      refine ⟨kind, plain, "bkp_".toList ++ afterPrefix.take 32, random,
        validOpaqueId_iff.mpr ⟨_, rfl, long, digits⟩, ?_⟩
      rw [stagingName, ← tail, List.append_assoc, List.take_append_drop]
      exact (List.isPrefixOf?_eq_some_iff_append_eq.mp found).symm
    next => cases shaped
  · rintro ⟨kind, plain, backupId, random, valid, base⟩
    constructor
    · obtain whole | ⟨sidecar, whole⟩ := exists_sidecar name
      · rw [whole, base]
        exact ascii_stagingName kind valid random
      · rw [whole, base, List.all_append, ascii_stagingName kind valid random]
        cases sidecar <;> rfl
    · obtain ⟨digits, rfl, long, hexadecimal⟩ := validOpaqueId_iff.mp valid
      have found : "bkp_".toList.isPrefixOf? (withoutSidecar name) =
          some (digits ++ (kind.infixText ++ (hexLower random.1 ++ kind.ending))) := by
        rw [base, stagingName, List.append_assoc]
        exact List.isPrefixOf?_eq_some_iff_append_eq.mpr rfl
      rw [found]
      dsimp only
      rw [Bool.and_eq_true, Bool.and_eq_true, decide_eq_true_eq, exists_kind_iff, isLowerHexExact,
        Bool.and_eq_true, beq_iff_eq, ← long, List.take_left, List.drop_left, List.length_append]
      exact ⟨⟨Nat.le_add_right _ _, rfl, hexadecimal⟩, kind, plain, random, rfl⟩

/-! ## The kind of a name -/

theorem length_of_validOpaqueId {backupId : Text}
    (valid : validOpaqueId "bkp_".toList backupId = true) : backupId.length = 36 := by
  obtain ⟨digits, rfl, long, _⟩ := validOpaqueId_iff.mp valid
  rw [List.length_append, long]
  rfl

/-- Digits do not go on like an atomic write does. -/
theorem write_ne_revocation (random other : NameRandom) :
    StagingKind.write.infixText ++ (hexLower random.1 ++ StagingKind.write.ending) ≠
      StagingKind.revocation.infixText ++ (hexLower other.1 ++ StagingKind.revocation.ending) := by
  intro same
  have digits := isLowerHex_hexLower other.1
  have long : (hexLower other.1).length = 16 := by rw [length_hexLower, other.2]
  match spelled : hexLower other.1 with
  | [] =>
      rw [spelled] at long
      cases long
  | first :: rest =>
      rw [spelled] at same digits
      have here : 'w' = first := (List.cons.inj (List.cons.inj same).2).1
      rw [← here] at digits
      cases digits

/-- A name has one kind. -/
theorem kind_unique {kind other : StagingKind} {backupId otherId : Text} {random drawn : NameRandom}
    (valid : validOpaqueId "bkp_".toList backupId = true)
    (validOther : validOpaqueId "bkp_".toList otherId = true)
    (same : stagingName kind backupId random = stagingName other otherId drawn) :
    kind = other := by
  have tails := (List.append_inj same
    ((length_of_validOpaqueId valid).trans (length_of_validOpaqueId validOther).symm)).2
  have lengths := congrArg List.length tails
  rw [List.length_append, List.length_append, List.length_append, List.length_append,
    length_hexLower, length_hexLower, random.2, drawn.2] at lengths
  cases kind <;> cases other <;> first
    | rfl
    | exact absurd lengths (by decide)
    | exact absurd tails (write_ne_revocation _ _)
    | exact absurd tails.symm (write_ne_revocation _ _)

theorem exists_base {kind : StagingKind} {name : Text} (names : kind.Names name) :
    ∃ backupId random, validOpaqueId "bkp_".toList backupId = true ∧
      withoutSidecar name = stagingName kind backupId random := by
  cases names with
  | file valid random => exact ⟨_, random, valid, withoutSidecar_stagingName _ _ _⟩
  | beside valid random _ sidecar => exact ⟨_, random, valid, withoutSidecar_sidecar _ sidecar⟩

theorem names_unique {kind other : StagingKind} {name : Text} (names : kind.Names name)
    (named : other.Names name) : kind = other := by
  obtain ⟨_, _, valid, base⟩ := exists_base names
  obtain ⟨_, _, validOther, baseOther⟩ := exists_base named
  exact kind_unique valid validOther (base.symm.trans baseOther)

/-- A name which an operation can create is accepted exactly when no revocation creates it. -/
theorem names_accepted {kind : StagingKind} {name : Text} (names : kind.Names name) :
    isExactBackupStagingName name = true ↔ kind ≠ .revocation := by
  obtain ⟨backupId, random, valid, base⟩ := exists_base names
  rw [isExactBackupStagingName_iff]
  constructor
  · rintro ⟨other, plain, otherId, drawn, validOther, spelled⟩
    rw [kind_unique valid validOther (base.symm.trans spelled)]
    exact plain
  · exact fun plain => ⟨kind, plain, backupId, random, valid, base⟩

/-- A file beside an atomic write is accepted, and no operation creates it. -/
theorem besideWrite_accepted {name : Text} (beside : BesideWrite name) :
    isExactBackupStagingName name = true ∧ ¬ Creatable name := by
  obtain ⟨backupId, random, sidecar, valid, rfl⟩ := beside
  constructor
  · exact isExactBackupStagingName_iff.mpr
      ⟨.write, nofun, backupId, random, valid, withoutSidecar_sidecar _ sidecar⟩
  · rintro ⟨kind, names⟩
    obtain ⟨otherId, drawn, validOther, base⟩ := exists_base names
    have found := kind_unique valid validOther ((withoutSidecar_sidecar _ sidecar).symm.trans base)
    generalize named : stagingName .write backupId random ++ sidecar.suffix = name at names
    cases names with
    | file _ _ =>
        have plain := congrArg withoutSidecar named
        rw [withoutSidecar_stagingName, ← named, withoutSidecar_sidecar] at plain
        have lengths := congrArg List.length plain
        rw [List.length_append] at lengths
        have long : 0 < sidecar.suffix.length := by cases sidecar <;> decide
        omega
    | beside _ _ database _ =>
        rw [← found] at database
        cases database

/-- What is accepted can be created, or it is beside an atomic write. -/
theorem accepted_cases {name : Text} (accepted : isExactBackupStagingName name = true) :
    Creatable name ∨ BesideWrite name := by
  obtain ⟨kind, plain, backupId, random, valid, base⟩ := isExactBackupStagingName_iff.mp accepted
  obtain whole | ⟨sidecar, whole⟩ := exists_sidecar name
  · rw [whole, base]
    exact .inl ⟨kind, .file valid random⟩
  · rw [whole, base]
    cases database : kind.isDatabase with
    | true => exact .inl ⟨kind, .beside valid random database sidecar⟩
    | false =>
        cases kind with
        | write => exact .inr ⟨backupId, random, sidecar, valid, rfl⟩
        | revocation => exact absurd rfl plain
        | snapshot | restore | verify => cases database

/-- An accepted name can be created exactly when it is not beside an atomic write. -/
theorem accepted_creatable_iff {name : Text} (accepted : isExactBackupStagingName name = true) :
    Creatable name ↔ ¬ BesideWrite name := by
  constructor
  · exact fun creatable beside => (besideWrite_accepted beside).2 creatable
  · exact fun apart => (accepted_cases accepted).resolve_right apart

/-- Files of an atomic write and of a revocation are no databases. -/
theorem not_plaintext {kind : StagingKind} {name : Text} (names : kind.Names name)
    (sealedFile : kind.isDatabase = false) : ¬ Plaintext name := by
  rintro ⟨other, database, named⟩
  rw [← names_unique names named, sealedFile] at database
  cases database

end LawyerAssistance.Backups
