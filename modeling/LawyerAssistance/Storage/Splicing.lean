import LawyerAssistance.Storage.Envelope

/-!
# What an envelope opens as

`openBody_eq_ok` says which bytes open: a header, and for every index below the number of
chunks a frame whose blob opens to the context of that index. On an authentic platform a
sealed body is read back under its own address only, and chunks of several versions of one
object open only where every chunk keeps its index and the number of chunks of its version.
-/

namespace LawyerAssistance.Storage

section Open

variable {dpapi : Dpapi} {kind id : String} {number : Nat}

/-- The frames of the chunks `start`, ..., `start + left - 1`. -/
def framesFrom (blob : Nat → Octets) (start left : Nat) : Octets :=
  (List.range' start left).flatMap fun index => frame (blob index)

/-- The contents of the chunks `start`, ..., `start + left - 1`. -/
def piecesFrom (piece : Nat → Octets) (start left : Nat) : Octets :=
  (List.range' start left).flatMap piece

@[simp] theorem framesFrom_succ (blob : Nat → Octets) (start left : Nat) :
    framesFrom blob start (left + 1) = frame (blob start) ++ framesFrom blob (start + 1) left := by
  simp [framesFrom, List.range'_succ]

@[simp] theorem piecesFrom_succ (piece : Nat → Octets) (start left : Nat) :
    piecesFrom piece start (left + 1) = piece start ++ piecesFrom piece (start + 1) left := by
  simp [piecesFrom, List.range'_succ]

/-- The blob of every chunk opens to its context and its content. -/
def OpensAs (dpapi : Dpapi) (kind id : String) (number : Nat) (blob piece : Nat → Octets)
    (index : Nat) : Prop :=
  unprotectLocal dpapi (blob index) = .ok (chunkContext kind id index number ++ piece index)

theorem OpensAs.fits {blob piece : Nat → Octets} {index : Nat}
    (opened : OpensAs dpapi kind id number blob piece index) : (blob index).length < 2 ^ 32 := by
  obtain ⟨_, small, _⟩ := unprotectLocal_eq_ok.mp opened
  simp only [MAX_PROTECTED_PLAINTEXT_BYTES] at small
  omega

/-- The last chunks are read when the first of them is, and then the others. -/
theorem openChunks_succ_eq_ok {left : Nat} {rest plain result : Octets} :
    openChunks dpapi kind id number (left + 1) rest plain = .ok result ↔
      ∃ slice others piece, rest = frame slice ++ others ∧
        unprotectLocal dpapi slice =
          .ok (chunkContext kind id (number - (left + 1)) number ++ piece) ∧
        (plain ++ piece).length ≤ MAX_OBJECT ∧
        openChunks dpapi kind id number left others (plain ++ piece) = .ok result := by
  constructor
  · intro opened
    simp only [openChunks] at opened
    split at opened
    · cases opened
    next slice others taken =>
      split at opened
      · cases opened
      next chunk clear =>
        split_ifs at opened with named large
        · cases opened
        · obtain ⟨piece, rfl⟩ := List.isPrefixOf_iff_prefix.mp named
          rw [List.drop_left] at opened large
          exact ⟨slice, others, piece, (takeFrame_eq_some.mp taken).2, clear, by omega, opened⟩
        · cases opened
  · rintro ⟨slice, others, piece, rfl, clear, small, opened⟩
    have fits : slice.length < 2 ^ 32 := by
      obtain ⟨_, blobSmall, _⟩ := unprotectLocal_eq_ok.mp clear
      simp only [MAX_PROTECTED_PLAINTEXT_BYTES] at blobSmall
      omega
    have named : (chunkContext kind id (number - (left + 1)) number).isPrefixOf
        (chunkContext kind id (number - (left + 1)) number ++ piece) = true :=
      List.isPrefixOf_iff_prefix.mpr (List.prefix_append _ _)
    simp only [openChunks, takeFrame_frame fits, clear, named, if_true, List.drop_left,
      if_neg (Nat.not_lt.mpr small)]
    exact opened

/-- Chunks in their places are read. -/
theorem openChunks_framesFrom {blob piece : Nat → Octets} {left : Nat} {plain : Octets}
    (within : left ≤ number)
    (opened : ∀ index, number - left ≤ index → index < number →
      OpensAs dpapi kind id number blob piece index)
    (small : (plain ++ piecesFrom piece (number - left) left).length ≤ MAX_OBJECT) :
    openChunks dpapi kind id number left (framesFrom blob (number - left) left) plain =
      .ok (plain ++ piecesFrom piece (number - left) left) := by
  induction left generalizing plain with
  | zero => simp [openChunks, framesFrom, piecesFrom]
  | succ left inductionHypothesis =>
      have next : number - (left + 1) + 1 = number - left := by omega
      rw [piecesFrom_succ, next, ← List.append_assoc] at small ⊢
      rw [framesFrom_succ, next]
      refine openChunks_succ_eq_ok.mpr ⟨_, _, _, rfl, opened _ (Nat.le_refl _) (by omega), ?_, ?_⟩
      · rw [List.length_append] at small
        omega
      · exact inductionHypothesis (by omega)
          (fun index low high => opened index (by omega) high) small

/-- Whatever is read was in chunks in their places. -/
theorem openChunks_eq_ok {left : Nat} {rest plain result : Octets} (within : left ≤ number)
    (opened : openChunks dpapi kind id number left rest plain = .ok result) :
    ∃ blob piece : Nat → Octets, rest = framesFrom blob (number - left) left ∧
      (∀ index, number - left ≤ index → index < number →
        OpensAs dpapi kind id number blob piece index) ∧
      result = plain ++ piecesFrom piece (number - left) left ∧
      (plain.length ≤ MAX_OBJECT → result.length ≤ MAX_OBJECT) := by
  induction left generalizing rest plain with
  | zero =>
      simp only [openChunks] at opened
      split_ifs at opened with done
      · cases opened
        refine ⟨fun _ => [], fun _ => [], by simpa [framesFrom] using done, ?_,
          by simp [piecesFrom], fun small => small⟩
        intro index low high
        omega
      · cases opened
  | succ left inductionHypothesis =>
      obtain ⟨slice, others, content, rfl, clear, small, openedRest⟩ :=
        openChunks_succ_eq_ok.mp opened
      obtain ⟨blob, piece, rfl, places, rfl, bounded⟩ := inductionHypothesis (by omega) openedRest
      have next : number - (left + 1) + 1 = number - left := by omega
      -- the first chunk stands in front of the ones which the induction hypothesis found
      have later : ∀ index ∈ List.range' (number - left) left, index ≠ number - (left + 1) := by
        intro index member
        have low := (List.mem_range'_1.mp member).1
        omega
      refine ⟨fun index => if index = number - (left + 1) then slice else blob index,
        fun index => if index = number - (left + 1) then content else piece index, ?_, ?_, ?_,
        fun _ => bounded small⟩
      · rw [framesFrom_succ, next, if_pos rfl]
        refine congrArg (frame slice ++ ·) ?_
        exact List.flatMap_congr fun index member => by simp only [if_neg (later index member)]
      · intro index low high
        by_cases first : index = number - (left + 1)
        · simpa [OpensAs, first] using clear
        · simpa [OpensAs, first] using places index (by omega) high
      · rw [piecesFrom_succ, next, if_pos rfl, List.append_assoc]
        refine congrArg (fun others => plain ++ (content ++ others)) ?_
        exact List.flatMap_congr fun index member => by simp only [if_neg (later index member)]

/-- The bytes which a number of chunks make up. -/
def envelope (number : Nat) (blob : Nat → Octets) : Octets := header number ++ framesFrom blob 0 number

/-- The most chunks of an envelope. -/
def MAX_CHUNKS : Nat := (MAX_OBJECT + CHUNK - 1) / CHUNK

theorem length_header (count : Nat) : (header count).length = 10 := by
  have magic : (utf8 "LAWEB1").length = 6 := by decide
  simp [header, magic]

/-- Which bytes open, and as what. -/
theorem openBody_eq_ok {bytes plain : Octets} :
    openBody dpapi kind id bytes = .ok plain ↔
      ∃ number blob piece, 0 < number ∧ number ≤ MAX_CHUNKS ∧ bytes = envelope number blob ∧
        (∀ index < number, OpensAs dpapi kind id number blob piece index) ∧
        plain = piecesFrom piece 0 number ∧ plain.length ≤ MAX_OBJECT := by
  constructor
  · intro opened
    simp only [openBody] at opened
    split_ifs at opened with malformed outside
    · cases opened
    · cases opened
    · obtain ⟨long, magic⟩ := not_or.mp malformed
      obtain ⟨positive, few⟩ := not_or.mp outside
      obtain ⟨blob, piece, rest, places, result, bounded⟩ :=
        openChunks_eq_ok (Nat.le_refl _) opened
      rw [Nat.sub_self] at rest places result
      refine ⟨_, blob, piece, Nat.pos_of_ne_zero positive, Nat.not_lt.mp few, ?_,
        fun index high => places index (Nat.zero_le _) high, by simpa using result,
        bounded (Nat.zero_le _)⟩
      have width : ((bytes.drop 6).take 4).length = 4 := by
        rw [List.length_take, List.length_drop]
        omega
      have count := littleEndian_ofLittleEndian ((bytes.drop 6).take 4)
      rw [width] at count
      have tail : bytes.drop 10 = (bytes.drop 6).drop 4 := by rw [List.drop_drop]
      rw [envelope, header, count, ← rest, ← not_not.mp magic, List.append_assoc, tail,
        List.take_append_drop, List.take_append_drop]
  · rintro ⟨number, blob, piece, positive, few, rfl, places, rfl, small⟩
    have fits : number < 256 ^ 4 := by
      simp only [MAX_CHUNKS, MAX_OBJECT, CHUNK] at few
      omega
    have magic : (utf8 "LAWEB1").length = 6 := by decide
    have front : (envelope number blob).take 6 = utf8 "LAWEB1" := by
      rw [envelope, header, List.append_assoc, ← magic, List.take_left]
    have count : ((envelope number blob).drop 6).take 4 = littleEndian 4 number := by
      rw [envelope, header, List.append_assoc, ← magic, List.drop_left,
        List.take_left' (length_littleEndian 4 number)]
    have rest : (envelope number blob).drop 10 = framesFrom blob 0 number := by
      rw [envelope, List.drop_left' (length_header number)]
    have long : ¬ (envelope number blob).length < 10 := by
      rw [envelope, List.length_append, length_header]
      omega
    simp only [openBody, long, front, count, rest, ofLittleEndian_littleEndian fits]
    rw [if_neg (by simp), if_neg (by simp only [not_or, Nat.not_lt]; exact ⟨by omega, few⟩)]
    have read := @openChunks_framesFrom dpapi kind id number blob piece number [] (Nat.le_refl number)
      (fun index _ high => places index high) (by simpa using small)
    simpa using read

end Open

/-! ## Sealing -/

section Sealing

variable {dpapi : Dpapi} {salts : Nat → dpapi.Salt} {kind id : String} {bytes sealed : Octets}

theorem protectChunk_eq_ok {index : Nat} {blob : Octets} :
    protectChunk dpapi salts kind id bytes index = .ok blob ↔
      protectLocal dpapi (salts index)
        (chunkContext kind id index (chunkCount bytes) ++ chunkAt bytes index) = .ok blob := by
  unfold protectChunk
  split <;> simp_all

/-- A body is sealed exactly when it is small enough and the platform protects each chunk. -/
theorem sealBody_eq_ok : sealBody dpapi salts kind id bytes = .ok sealed ↔
    bytes.length ≤ MAX_OBJECT ∧ ∃ blob : Nat → Octets,
      (∀ index < chunkCount bytes, protectChunk dpapi salts kind id bytes index = .ok (blob index)) ∧
        sealed = envelope (chunkCount bytes) blob := by
  rw [sealBody, refuseIf_bind_eq_ok, Nat.not_lt]
  refine and_congr_right fun small => ?_
  rw [bind_eq_ok]
  simp only [gather_bind_eq_ok, List.mem_range]
  constructor
  · rintro ⟨output, ⟨blob, made, rfl⟩, result⟩
    cases result
    exact ⟨blob, made, by rw [envelope, framesFrom, ← List.range_eq_range']⟩
  · rintro ⟨blob, made, rfl⟩
    exact ⟨_, ⟨blob, made, rfl⟩, by rw [envelope, framesFrom, ← List.range_eq_range']; rfl⟩

theorem OpensAs.of_protectChunk (authentic : dpapi.Authentic) {blob : Nat → Octets} {index : Nat}
    (made : protectChunk dpapi salts kind id bytes index = .ok (blob index)) :
    OpensAs dpapi kind id (chunkCount bytes) blob (chunkAt bytes) index :=
  unprotectLocal_protectLocal authentic (Iff.mp protectChunk_eq_ok made)

/-- A sealed body is read back. -/
theorem openBody_sealBody (authentic : dpapi.Authentic)
    (done : sealBody dpapi salts kind id bytes = .ok sealed) :
    openBody dpapi kind id sealed = .ok bytes := by
  obtain ⟨small, blob, made, rfl⟩ := Iff.mp sealBody_eq_ok done
  refine Iff.mpr openBody_eq_ok ⟨chunkCount bytes, blob, chunkAt bytes, chunkCount_pos bytes,
    chunkCount_le small, rfl, fun index within => .of_protectChunk authentic (made index within),
    ?_, small⟩
  rw [piecesFrom, ← List.range_eq_range', flatMap_chunkAt_chunkCount]

theorem framesFrom_eq_flatMap (blob : Nat → Octets) (start left : Nat) :
    framesFrom blob start left = ((List.range' start left).map blob).flatMap frame := by
  rw [framesFrom, List.flatMap_map]

/-- A header determines its number. -/
theorem header_append_inj {number number' : Nat} {rest rest' : Octets}
    (fits : number < 2 ^ 32) (fits' : number' < 2 ^ 32)
    (same : header number ++ rest = header number' ++ rest') : number = number' ∧ rest = rest' := by
  obtain ⟨headers, rests⟩ := List.append_inj same (by simp only [length_header])
  refine ⟨?_, rests⟩
  have counts := congrArg ofLittleEndian (List.append_cancel_left headers)
  rwa [ofLittleEndian_littleEndian (by simpa using fits),
    ofLittleEndian_littleEndian (by simpa using fits')] at counts

/-- At most `MAX_CHUNKS` fits the header. -/
theorem lt_of_le_MAX_CHUNKS {number : Nat} (few : number ≤ MAX_CHUNKS) : number < 2 ^ 32 := by
  simp only [MAX_CHUNKS, MAX_OBJECT, CHUNK] at few
  omega

/-- The chunks which an envelope is read as are those which were protected. -/
theorem OpensAs.of_sealed (authentic : dpapi.Authentic) {kind' id' : String} {number index : Nat}
    {blob piece : Nat → Octets} (admitted : Admitted kind id) (admitted' : Admitted kind' id')
    (opened : OpensAs dpapi kind' id' number blob piece index) {place : Nat}
    (made : protectChunk dpapi salts kind id bytes place = .ok (blob index)) :
    ((kind' = kind ∧ id' = id) ∧ index = place ∧ number = chunkCount bytes) ∧
      piece index = chunkAt bytes place := by
  have clear := unprotectLocal_protectLocal authentic (Iff.mp protectChunk_eq_ok made)
  exact chunkContext_append_injective admitted' admitted
    (Except.ok.inj (opened.symm.trans clear))

/-- A sealed body does not open under another address. -/
theorem openBody_foreign (authentic : dpapi.Authentic) {kind' id' : String}
    (admitted : Admitted kind id) (admitted' : Admitted kind' id')
    (other : ¬ (kind' = kind ∧ id' = id))
    (done : sealBody dpapi salts kind id bytes = .ok sealed) (plain : Octets) :
    openBody dpapi kind' id' sealed ≠ .ok plain := by
  intro opened
  obtain ⟨small, blob, made, rfl⟩ := Iff.mp sealBody_eq_ok done
  obtain ⟨number, blob', piece, positive, few, same, places, _, _⟩ := Iff.mp openBody_eq_ok opened
  obtain ⟨rfl, frames⟩ := header_append_inj (lt_of_le_MAX_CHUNKS (chunkCount_le small))
    (lt_of_le_MAX_CHUNKS few) same
  have first := made 0 positive
  have blobs : blob 0 = blob' 0 := by
    obtain ⟨rest, count⟩ := Nat.exists_eq_succ_of_ne_zero (Nat.ne_of_gt positive)
    rw [count, Nat.succ_eq_add_one, framesFrom_succ, framesFrom_succ] at frames
    have taken := congrArg takeFrame frames
    rw [takeFrame_frame (length_protectLocal authentic (Iff.mp protectChunk_eq_ok first)),
      takeFrame_frame (places 0 positive).fits] at taken
    exact (Prod.mk.inj (Option.some.inj taken)).1
  rw [blobs] at first
  exact other (OpensAs.of_sealed authentic admitted admitted' (places 0 positive) first).1.1

end Sealing

/-! ## Envelopes made of chunks of several versions -/

/-- A body of an object, and the salts with which it was sealed. -/
structure Version (dpapi : Dpapi) where
  body : Octets
  salts : Nat → dpapi.Salt

/-- Bytes which have the form of an envelope and consist of chunks of sealed versions of one
object: any of the chunks, in any order, any number of times, under any number. -/
def Assembled {dpapi : Dpapi} (kind id : String) (versions : Set (Version dpapi))
    (bytes : Octets) : Prop :=
  ∃ (number : Nat) (blobs : List Octets), bytes = header number ++ blobs.flatMap frame ∧
    ∀ blob ∈ blobs, ∃ version ∈ versions, ∃ place < chunkCount version.body,
      protectChunk dpapi version.salts kind id version.body place = .ok blob

/-- The body whose chunk at every index is that of the version chosen there. -/
def interleaved {dpapi : Dpapi} (number : Nat) (chosen : Nat → Version dpapi) : Octets :=
  piecesFrom (fun index => chunkAt (chosen index).body index) 0 number

/-- One version is the interleaving of itself. -/
theorem interleaved_of_same {dpapi : Dpapi} {number : Nat} {chosen : Nat → Version dpapi}
    {body : Octets} (same : ∀ index < number, (chosen index).body = body)
    (count : chunkCount body = number) : interleaved number chosen = body := by
  have pieces : interleaved number chosen = (List.range number).flatMap (chunkAt body) := by
    rw [interleaved, piecesFrom, ← List.range_eq_range']
    exact List.flatMap_congr fun index member => by
      simp only [same index (List.mem_range.mp member)]
  rw [pieces, ← count, flatMap_chunkAt_chunkCount]

/-- An assembled envelope which opens has every chunk at its index, from a version of the
same number of chunks. -/
theorem openBody_assembled {dpapi : Dpapi} (authentic : dpapi.Authentic) {kind id : String}
    (admitted : Admitted kind id) {versions : Set (Version dpapi)} {bytes plain : Octets}
    (assembled : Assembled kind id versions bytes)
    (opened : openBody dpapi kind id bytes = .ok plain) :
    ∃ number chosen, 0 < number ∧ plain = interleaved number chosen ∧
      ∀ index < number, chosen index ∈ versions ∧ chunkCount (chosen index).body = number := by
  obtain ⟨count, blobs, rfl, made⟩ := assembled
  obtain ⟨number, blob, piece, positive, few, same, places, rfl, _⟩ := Iff.mp openBody_eq_ok opened
  have frames : blobs = (List.range' 0 number).map blob := by
    refine flatMap_frame_injective ?_ ?_ ?_
    · intro content member
      obtain ⟨version, _, place, _, protects⟩ := made content member
      exact length_protectLocal authentic (Iff.mp protectChunk_eq_ok protects)
    · simp only [List.mem_map, List.mem_range'_1]
      rintro _ ⟨index, ⟨_, within⟩, rfl⟩
      exact (places index (by omega)).fits
    · rw [envelope, framesFrom_eq_flatMap] at same
      exact (List.append_inj same (by simp only [length_header])).2
  have each : ∀ index, ∃ version : Version dpapi, index < number → version ∈ versions ∧
      chunkCount version.body = number ∧ piece index = chunkAt version.body index := by
    intro index
    obtain ⟨version, _, _⟩ := made (blob 0) (by
      rw [frames]
      exact List.mem_map.mpr ⟨0, List.mem_range'_1.mpr (by omega), rfl⟩)
    by_cases within : index < number
    · obtain ⟨version, member, place, _, protects⟩ := made (blob index) (by
        rw [frames]
        simp only [List.mem_map, List.mem_range'_1]
        exact ⟨index, by omega, rfl⟩)
      obtain ⟨⟨_, rfl, count⟩, content⟩ :=
        OpensAs.of_sealed authentic admitted admitted (places index within) protects
      exact ⟨version, fun _ => ⟨member, count.symm, content⟩⟩
    · exact ⟨version, fun within' => absurd within' within⟩
  choose chosen fromVersion using each
  refine ⟨number, chosen, positive, ?_, fun index within =>
    ⟨(fromVersion index within).1, (fromVersion index within).2.1⟩⟩
  rw [interleaved, piecesFrom, piecesFrom]
  refine List.flatMap_congr fun index member => (fromVersion index ?_).2.2
  have within := (List.mem_range'_1.mp member).2
  omega


/-- Chunks of versions with one number of chunks open as the interleaving of the versions. -/
theorem openBody_interleaved {dpapi : Dpapi} (authentic : dpapi.Authentic) {kind id : String}
    {number : Nat} {chosen : Nat → Version dpapi} {blob : Nat → Octets} (positive : 0 < number)
    (few : number ≤ MAX_CHUNKS)
    (counts : ∀ index < number, chunkCount (chosen index).body = number)
    (made : ∀ index < number, protectChunk dpapi (chosen index).salts kind id
      (chosen index).body index = .ok (blob index))
    (small : (interleaved number chosen).length ≤ MAX_OBJECT) :
    openBody dpapi kind id (envelope number blob) = .ok (interleaved number chosen) := by
  refine Iff.mpr openBody_eq_ok ⟨number, blob, fun index => chunkAt (chosen index).body index, positive,
    few, rfl, fun index within => ?_, rfl, small⟩
  have clear := unprotectLocal_protectLocal authentic (Iff.mp protectChunk_eq_ok (made index within))
  rw [counts index within] at clear
  exact clear

/-- A serving platform seals every body of the admitted size. -/
theorem sealBody_serves {dpapi : Dpapi} (serves : dpapi.Serves) {kind id : String}
    (short : (utf8 kind).length + (utf8 id).length ≤ 8 * 1024 * 1024)
    (salts : Nat → dpapi.Salt) {body : Octets} (small : body.length ≤ MAX_OBJECT) :
    ∃ sealed, sealBody dpapi salts kind id body = .ok sealed := by
  have slash : (utf8 "/").length = 1 := by decide
  have nul : (utf8 "\x00").length = 1 := by decide
  have digits : ∀ number < 17, (utf8 (toString number)).length ≤ 2 := by decide
  have few := chunkCount_le small
  have each : ∀ index, ∃ blob, index < chunkCount body →
      protectChunk dpapi salts kind id body index = .ok blob := by
    intro index
    by_cases within : index < chunkCount body
    · have chunk : (chunkAt body index).length ≤ CHUNK := List.length_take_le _ _
      have context : (chunkContext kind id index (chunkCount body)).length ≤
          8 * 1024 * 1024 + 8 := by
        simp only [MAX_OBJECT, CHUNK] at few
        have first := digits index (by omega)
        have second := digits (chunkCount body) (by omega)
        simp only [chunkContext, chunkName, utf8_append, List.length_append, slash, nul]
        omega
      have nonempty : chunkContext kind id index (chunkCount body) ++ chunkAt body index ≠ [] := by
        intro empty
        have length := congrArg List.length empty
        simp only [chunkContext, utf8_append, List.length_append, nul, List.length_nil] at length
        omega
      have fits : (chunkContext kind id index (chunkCount body) ++ chunkAt body index).length ≤
          MAX_PROTECTED_PLAINTEXT_BYTES := by
        rw [List.length_append]
        simp only [CHUNK, MAX_PROTECTED_PLAINTEXT_BYTES] at chunk ⊢
        omega
      obtain ⟨blob, written, made⟩ := serves (salts index) _ nonempty fits
      exact ⟨blob, fun _ => protectChunk_eq_ok.mpr
        (protectLocal_eq_ok.mpr ⟨nonempty, fits, made, written⟩)⟩
    · exact ⟨[], fun within' => absurd within' within⟩
  choose blob made using each
  exact ⟨_, Iff.mpr sealBody_eq_ok ⟨small, blob, made, rfl⟩⟩

/-- What the envelope guarantees: a sealed body is read back, under its own address only, and
chunks of sealed versions of one object open only at their index and beside chunks of versions
of the same number of chunks. -/
theorem sealed_envelopes_bind {dpapi : Dpapi} (authentic : dpapi.Authentic) {kind id : String}
    (admitted : Admitted kind id) :
    (∀ salts body sealed, sealBody dpapi salts kind id body = .ok sealed →
      openBody dpapi kind id sealed = .ok body ∧
      ∀ kind' id', Admitted kind' id' → ¬ (kind' = kind ∧ id' = id) →
        ∀ plain, openBody dpapi kind' id' sealed ≠ .ok plain) ∧
    (dpapi.Serves → (utf8 kind).length + (utf8 id).length ≤ 8 * 1024 * 1024 →
      ∀ salts body, body.length ≤ MAX_OBJECT →
        ∃ sealed, sealBody dpapi salts kind id body = .ok sealed) ∧
    ∀ (versions : Set (Version dpapi)) bytes plain, Assembled kind id versions bytes →
      openBody dpapi kind id bytes = .ok plain →
      (∃ number chosen, 0 < number ∧ plain = interleaved number chosen ∧
        ∀ index < number, chosen index ∈ versions ∧ chunkCount (chosen index).body = number) ∧
      ((∀ first ∈ versions, ∀ second ∈ versions, 1 < chunkCount first.body →
        chunkCount first.body = chunkCount second.body → first.body = second.body) →
        ∃ version ∈ versions, plain = version.body) := by
  refine ⟨fun salts body sealed done => ⟨openBody_sealBody authentic done,
      fun kind' id' admitted' other => openBody_foreign authentic admitted admitted' other done⟩,
    fun serves short salts body small => sealBody_serves serves short salts small, ?_⟩
  intro versions bytes plain assembled opened
  obtain ⟨number, chosen, positive, rfl, each⟩ :=
    openBody_assembled authentic admitted assembled opened
  refine ⟨⟨number, chosen, positive, rfl, each⟩, fun distinct => ?_⟩
  refine ⟨chosen 0, (each 0 positive).1, interleaved_of_same ?_ (each 0 positive).2⟩
  intro index within
  by_cases one : index = 0
  · rw [one]
  · have count := (each index within).2
    exact distinct _ (each index within).1 _ (each 0 positive).1 (by omega)
      (count.trans (each 0 positive).2.symm)

/-! ## A platform which marks what it protects -/

/-- A platform whose blobs are the plaintexts behind a mark. -/
def marker : Dpapi where
  Salt := Unit
  cryptProtectData _ entropy plain :=
    if entropy = OPTIONAL_ENTROPY then some (1 :: plain) else none
  cryptUnprotectData entropy blob :=
    match blob with
    | [] => none
    | mark :: plain => if mark = 1 ∧ entropy = OPTIONAL_ENTROPY then some plain else none

theorem marker_authentic : marker.Authentic where
  opens := by
    intro salt entropy plain blob made
    simp only [marker] at made ⊢
    split_ifs at made with known
    cases made
    simp [known]
  rejects := by
    intro entropy blob plain opened
    refine ⟨(), ?_⟩
    simp only [marker] at opened ⊢
    split at opened
    · cases opened
    · split_ifs at opened with known
      cases opened
      rw [if_pos known.2, known.1]
  overhead := by
    intro salt entropy plain blob made
    simp only [marker] at made
    split_ifs at made
    cases made
    simp [MAX_PROTECTED_PLAINTEXT_BYTES]

theorem marker_serves : marker.Serves :=
  fun _ plain _ _ => ⟨1 :: plain, List.cons_ne_nil _ _, by simp [marker]⟩

theorem admitted_material : Admitted "material" "mat_1" :=
  ⟨.inl ⟨by decide, by decide, by decide⟩, by decide⟩

/-- A short body is sealed, opens as it was, and does not open under another identifier. -/
theorem sealed_envelopes_bind_material :
    ∃ sealed, sealBody marker (fun _ => ()) "material" "mat_1" [7, 0, 9] = .ok sealed ∧
      openBody marker "material" "mat_1" sealed = .ok [7, 0, 9] ∧
      openBody marker "material" "mat_2" sealed ≠ .ok [7, 0, 9] := by
  obtain ⟨seals, serves, _⟩ := sealed_envelopes_bind marker_authentic admitted_material
  obtain ⟨sealed, done⟩ := serves marker_serves (by decide) (fun _ => ()) [7, 0, 9]
    (by decide)
  obtain ⟨read, foreign⟩ := seals _ _ _ done
  exact ⟨sealed, done, read, foreign "material" "mat_2"
    ⟨.inl ⟨by decide, by decide, by decide⟩, by decide⟩ (by decide) _⟩

/-- A body of two chunks which repeats a byte. -/
def twoChunks (byte : UInt8) : Octets := List.replicate (CHUNK + 1) byte

theorem length_twoChunks (byte : UInt8) : (twoChunks byte).length = CHUNK + 1 :=
  List.length_replicate

theorem chunkCount_twoChunks (byte : UInt8) : chunkCount (twoChunks byte) = 2 := by
  rw [chunkCount, length_twoChunks]
  rfl

/-- Only the repeated byte occurs in a chunk, and it does occur in the first two chunks. -/
theorem chunkAt_twoChunks (byte : UInt8) :
    (∀ index, ∀ other ∈ chunkAt (twoChunks byte) index, other = byte) ∧
      byte ∈ chunkAt (twoChunks byte) 0 ∧ byte ∈ chunkAt (twoChunks byte) 1 := by
  have positive : 0 < CHUNK := by decide
  simp only [chunkAt, twoChunks, List.drop_replicate, List.take_replicate, List.mem_replicate]
  exact ⟨fun _ _ member => member.2, ⟨by omega, trivial⟩, ⟨by omega, trivial⟩⟩

/-- The first chunk of one sealed version and the second of another one, of as many chunks,
open as a body which was never sealed. -/
theorem spliced_versions_open_as_neither :
    marker.Authentic ∧ Admitted "material" "mat_1" ∧ ∃ sealedOld sealedNew spliced mixed,
      sealBody marker (fun _ => ()) "material" "mat_1" (twoChunks 0) = .ok sealedOld ∧
      sealBody marker (fun _ => ()) "material" "mat_1" (twoChunks 1) = .ok sealedNew ∧
      Assembled "material" "mat_1" {version : Version marker |
        version.body = twoChunks 0 ∨ version.body = twoChunks 1} spliced ∧
      openBody marker "material" "mat_1" spliced = .ok mixed ∧
      mixed ≠ twoChunks 0 ∧ mixed ≠ twoChunks 1 := by
  have small : ∀ byte, (twoChunks byte).length ≤ MAX_OBJECT := by
    intro byte
    rw [length_twoChunks]
    decide
  have seals : ∀ byte, ∃ sealed,
      sealBody marker (fun _ => ()) "material" "mat_1" (twoChunks byte) = .ok sealed :=
    fun byte => sealBody_serves marker_serves (by decide) _ (small byte)
  obtain ⟨sealedOld, old⟩ := seals 0
  obtain ⟨sealedNew, new⟩ := seals 1
  obtain ⟨_, blobOld, madeOld, _⟩ := Iff.mp sealBody_eq_ok old
  obtain ⟨_, blobNew, madeNew, _⟩ := Iff.mp sealBody_eq_ok new
  rw [chunkCount_twoChunks] at madeOld madeNew
  -- the first chunk is the old one, the second the new one
  let chosen : Nat → Version marker := fun index =>
    if index = 0 then ⟨twoChunks 0, fun _ => ()⟩ else ⟨twoChunks 1, fun _ => ()⟩
  let blob : Nat → Octets := fun index => if index = 0 then blobOld 0 else blobNew index
  have mixed : interleaved 2 chosen =
      chunkAt (twoChunks 0) 0 ++ chunkAt (twoChunks 1) 1 := by
    simp [interleaved, piecesFrom, List.range'_succ, chosen]
  have made : ∀ index < 2, protectChunk marker (chosen index).salts "material" "mat_1"
      (chosen index).body index = .ok (blob index) := by
    intro index within
    by_cases first : index = 0
    · subst first
      exact madeOld 0 (by omega)
    · simp only [chosen, blob, if_neg first]
      exact madeNew index within
  have counts : ∀ index < 2, chunkCount (chosen index).body = 2 := by
    intro index _
    by_cases first : index = 0 <;> simp [chosen, first, chunkCount_twoChunks]
  have fits : (interleaved 2 chosen).length ≤ MAX_OBJECT := by
    have first : (chunkAt (twoChunks 0) 0).length ≤ CHUNK := List.length_take_le _ _
    have second : (chunkAt (twoChunks 1) 1).length ≤ CHUNK := List.length_take_le _ _
    rw [mixed, List.length_append]
    simp only [CHUNK, MAX_OBJECT] at first second ⊢
    omega
  refine ⟨marker_authentic, admitted_material, sealedOld, sealedNew, envelope 2 blob,
    interleaved 2 chosen, old, new, ⟨2, (List.range' 0 2).map blob, ?_, ?_⟩,
    openBody_interleaved marker_authentic (by decide) (by decide) counts made fits, ?_, ?_⟩
  · rw [envelope, framesFrom_eq_flatMap]
  · simp only [List.mem_map, List.mem_range'_1]
    rintro _ ⟨index, ⟨_, within⟩, rfl⟩
    refine ⟨chosen index, ?_, index, ?_, made index (by omega)⟩
    · by_cases first : index = 0
      · exact .inl (by simp only [chosen, if_pos first])
      · exact .inr (by simp only [chosen, if_neg first])
    · rw [counts index (by omega)]
      omega
  · intro same
    have one : (1 : UInt8) ∈ twoChunks 0 := by
      rw [← same, mixed]
      exact List.mem_append_right _ (chunkAt_twoChunks 1).2.2
    exact absurd (List.eq_of_mem_replicate one) (by decide)
  · intro same
    have zero : (0 : UInt8) ∈ twoChunks 1 := by
      rw [← same, mixed]
      exact List.mem_append_left _ (chunkAt_twoChunks 0).2.1
    exact absurd (List.eq_of_mem_replicate zero) (by decide)

end LawyerAssistance.Storage
