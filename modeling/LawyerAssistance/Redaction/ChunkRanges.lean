import LawyerAssistance.Std.Slices

/-!
# Chunks of a text

A text which is too long for one request is cut into chunks which overlap. A chunk ends behind its
last line where that leaves more than half of it, and at a boundary of characters otherwise; so
every short part of the text is whole in a chunk.
-/

namespace LawyerAssistance.Redaction

/-- `MAX_ENTITY_CHUNK_BYTES`. -/
def maxEntityChunkBytes : Nat := 64 * 1024

/-- `ENTITY_CHUNK_OVERLAP_BYTES`. -/
def entityChunkOverlapBytes : Nat := 4 * 1024

/-- The loop of `floor_char_boundary`. -/
def floorBoundary (source : List Char) : Nat → Nat
  | 0 => 0
  | index + 1 =>
      if Text.isCharBoundary source (index + 1) = true then index + 1
      else floorBoundary source index

/-- `floor_char_boundary`. -/
def floorCharBoundary (source : List Char) (index : Nat) : Nat :=
  floorBoundary source (min index (Text.byteLength source))

/-- `str::rfind` of a line feed. -/
def rfindLineFeed : List Char → Option Nat
  | [] => none
  | character :: rest =>
      match rfindLineFeed rest with
      | some position => some (character.utf8Size + position)
      | none => if character = '\n' then some 0 else none

/-- Where a chunk ends: behind its last line, if the chunk is not too short then. -/
def chunkEnd (source : List Char) (start : Nat) : Option Nat := do
  let length := Text.byteLength source
  let hardEnd := floorCharBoundary source (min (start + maxEntityChunkBytes) length)
  let stop := min (max hardEnd (start + 1)) length
  if stop < length then
    let minimum := floorCharBoundary source (start + min (maxEntityChunkBytes / 2) (stop - start))
    let part ← Text.slice source start stop
    match rfindLineFeed part with
    | some relative =>
        if minimum ≤ start + relative + 1 then some (start + relative + 1) else some stop
    | none => some stop
  else some stop

/-- The loop of `chunk_ranges`. -/
def chunkLoop (source : List Char) : Nat → Nat → List (Nat × Nat) → Option (List (Nat × Nat))
  | 0, start, ranges => if start < Text.byteLength source then none else some ranges
  | fuel + 1, start, ranges =>
      if start < Text.byteLength source then do
        let stop ← chunkEnd source start
        if stop = Text.byteLength source then some (ranges ++ [(start, stop)])
        else
          let overlapStart := floorCharBoundary source (stop - entityChunkOverlapBytes)
          chunkLoop source fuel (min (max overlapStart (start + 1)) stop) (ranges ++ [(start, stop)])
      else some ranges

/-- `chunk_ranges`. -/
def chunkRanges (source : List Char) : Option (List (Nat × Nat)) :=
  if Text.byteLength source ≤ maxEntityChunkBytes then some [(0, Text.byteLength source)]
  else chunkLoop source (Text.byteLength source) 0 []

/-! ## Boundaries -/

section Boundaries

variable {source part : List Char} {index position start stop : Nat}

theorem isCharBoundary_zero : Text.isCharBoundary source 0 = true :=
  Text.isCharBoundary_eq_true.mpr ⟨[], source, rfl, rfl⟩

theorem isCharBoundary_byteLength : Text.isCharBoundary source (Text.byteLength source) = true :=
  Text.isCharBoundary_eq_true.mpr ⟨source, [], (List.append_nil _).symm, rfl⟩

/-- A position in a text has a boundary at most three bytes before it. -/
theorem exists_boundary_near (within : index ≤ Text.byteLength source) :
    ∃ boundary, Text.isCharBoundary source boundary = true ∧ boundary ≤ index ∧
      index ≤ boundary + 3 := by
  induction source generalizing index with
  | nil => exact ⟨0, isCharBoundary_zero, Nat.zero_le _, by simp at within; omega⟩
  | cons character rest inductionHypothesis =>
      have width := character.utf8Size_le_four
      rw [Text.byteLength_cons] at within
      by_cases inside : index < character.utf8Size
      · exact ⟨0, isCharBoundary_zero, Nat.zero_le _, by omega⟩
      · obtain ⟨boundary, isBoundary, below, near⟩ :=
          @inductionHypothesis (index - character.utf8Size) (by omega)
        obtain ⟨before, after, rfl, rfl⟩ := Text.isCharBoundary_eq_true.mp isBoundary
        refine ⟨character.utf8Size + Text.byteLength before, ?_, by omega, by omega⟩
        exact Text.isCharBoundary_eq_true.mpr ⟨character :: before, after, rfl, rfl⟩

theorem floorBoundary_spec : Text.isCharBoundary source (floorBoundary source index) = true ∧
    floorBoundary source index ≤ index ∧
    ∀ boundary, Text.isCharBoundary source boundary = true → boundary ≤ index →
      boundary ≤ floorBoundary source index := by
  induction index with
  | zero => exact ⟨isCharBoundary_zero, Nat.le_refl _, fun _ _ below => below⟩
  | succ index inductionHypothesis =>
      obtain ⟨isBoundary, below, greatest⟩ := inductionHypothesis
      rw [floorBoundary]
      split_ifs with here
      · exact ⟨here, Nat.le_refl _, fun _ _ below => below⟩
      · refine ⟨isBoundary, by omega, fun boundary isBoundary' below' => ?_⟩
        refine greatest boundary isBoundary' ?_
        by_contra above
        obtain rfl : boundary = index + 1 := by omega
        exact here isBoundary'

/-- The boundary at a position or shortly before it. -/
theorem floorCharBoundary_spec (within : index ≤ Text.byteLength source) :
    Text.isCharBoundary source (floorCharBoundary source index) = true ∧
      floorCharBoundary source index ≤ index ∧ index ≤ floorCharBoundary source index + 3 := by
  rw [floorCharBoundary, Nat.min_eq_left within]
  obtain ⟨isBoundary, below, greatest⟩ := @floorBoundary_spec source index
  obtain ⟨boundary, isBoundary', below', near⟩ := exists_boundary_near within
  have above := greatest boundary isBoundary' below'
  exact ⟨isBoundary, below, by omega⟩

theorem floorCharBoundary_byteLength :
    floorCharBoundary source (Text.byteLength source) = Text.byteLength source := by
  rw [floorCharBoundary, Nat.min_self]
  obtain ⟨_, below, greatest⟩ := @floorBoundary_spec source (Text.byteLength source)
  exact Nat.le_antisymm below (greatest _ isCharBoundary_byteLength (Nat.le_refl _))

/-- A line feed which is found is one. -/
theorem rfindLineFeed_eq_some (found : rfindLineFeed part = some position) :
    ∃ before after, part = before ++ '\n' :: after ∧ position = Text.byteLength before := by
  induction part generalizing position with
  | nil => cases found
  | cons character rest inductionHypothesis =>
      rw [rfindLineFeed] at found
      cases later : rfindLineFeed rest with
      | some position' =>
          rw [later] at found
          cases found
          obtain ⟨before, after, rfl, rfl⟩ := inductionHypothesis later
          exact ⟨character :: before, after, rfl, rfl⟩
      | none =>
          rw [later] at found
          dsimp only at found
          split_ifs at found with feed
          cases found
          exact ⟨[], rest, by rw [feed]; rfl, rfl⟩

/-- Behind a line feed in a part of a text is a boundary. -/
theorem boundary_of_rfindLineFeed (cut : Text.slice source start stop = some part)
    (found : rfindLineFeed part = some position) :
    Text.isCharBoundary source (start + position + 1) = true ∧ start + position + 1 ≤ stop := by
  obtain ⟨before, after, rfl, rfl, rfl⟩ := Text.slice_eq_some.mp cut
  obtain ⟨first, last, rfl, rfl⟩ := rfindLineFeed_eq_some found
  have width : Char.utf8Size '\n' = 1 := rfl
  refine ⟨Text.isCharBoundary_eq_true.mpr ⟨before ++ first ++ ['\n'], last ++ after, by simp, ?_⟩, ?_⟩
  · simp [width, Nat.add_assoc]
  · rw [Text.byteLength_append, Text.byteLength_cons, width]
    omega

end Boundaries

/-! ## Chunks -/

section Chunks

variable {source : List Char} {start stop : Nat} {ranges : List (Nat × Nat)}

/-- A chunk: a part of a text between two boundaries, of limited length. -/
structure IsChunk (source : List Char) (start stop : Nat) : Prop where
  first : Text.isCharBoundary source start = true
  last : Text.isCharBoundary source stop = true
  nonempty : start < stop
  bounded : stop ≤ start + maxEntityChunkBytes
  within : stop ≤ Text.byteLength source

/-- A chunk exists behind every boundary in the text, and is half as long as it can be, or ends the
text. -/
theorem exists_chunkEnd (boundary : Text.isCharBoundary source start = true)
    (within : start < Text.byteLength source) :
    ∃ stop, chunkEnd source start = some stop ∧ IsChunk source start stop ∧
      (stop < Text.byteLength source → start + maxEntityChunkBytes / 2 ≤ stop + 3) := by
  have size : maxEntityChunkBytes = 65536 := rfl
  obtain ⟨hardBoundary, hardBelow, hardNear⟩ := @floorCharBoundary_spec source
    (min (start + maxEntityChunkBytes) (Text.byteLength source)) (Nat.min_le_right _ _)
  have whole : Text.byteLength source ≤ start + maxEntityChunkBytes →
      floorCharBoundary source (min (start + maxEntityChunkBytes) (Text.byteLength source)) =
        Text.byteLength source := by
    intro short
    rw [Nat.min_eq_right short, floorCharBoundary_byteLength]
  rw [chunkEnd]
  generalize floorCharBoundary source (min (start + maxEntityChunkBytes) (Text.byteLength source)) =
    hardEnd at hardBoundary hardBelow hardNear whole ⊢
  -- The hard end is behind the start: a chunk is long, or ends with the text.
  have long : hardEnd = Text.byteLength source ∨ start + maxEntityChunkBytes ≤ hardEnd + 3 := by
    by_cases short : Text.byteLength source ≤ start + maxEntityChunkBytes
    · exact .inl (whole short)
    · rw [Nat.min_eq_left (by omega)] at hardNear
      exact .inr hardNear
  have bounded : hardEnd ≤ start + maxEntityChunkBytes := hardBelow.trans (Nat.min_le_left _ _)
  have inside : hardEnd ≤ Text.byteLength source := hardBelow.trans (Nat.min_le_right _ _)
  have behind : start < hardEnd := by omega
  have stops : min (max hardEnd (start + 1)) (Text.byteLength source) = hardEnd := by
    rw [Nat.max_eq_left behind, Nat.min_eq_left inside]
  have chunk : IsChunk source start hardEnd := ⟨boundary, hardBoundary, behind, bounded, inside⟩
  simp only [stops]
  split_ifs with more
  · have half : start + maxEntityChunkBytes / 2 ≤ hardEnd + 3 := by omega
    obtain ⟨part, cut⟩ := Text.exists_slice boundary chunk.last (Nat.le_of_lt behind)
    simp only [cut, Option.bind_eq_bind, Option.bind_some]
    cases found : rfindLineFeed part with
    | none => exact ⟨hardEnd, rfl, chunk, fun _ => half⟩
    | some relative =>
        dsimp only
        split_ifs with enough
        · obtain ⟨lineBoundary, lineBelow⟩ := boundary_of_rfindLineFeed cut found
          obtain ⟨_, _, minimumNear⟩ := @floorCharBoundary_spec source
            (start + min (maxEntityChunkBytes / 2) (hardEnd - start)) (by omega)
          refine ⟨start + relative + 1, rfl, ⟨boundary, lineBoundary, by omega, ?_, ?_⟩, ?_⟩
          · exact lineBelow.trans bounded
          · exact lineBelow.trans inside
          · omega
        · exact ⟨hardEnd, rfl, chunk, fun _ => half⟩
  · exact ⟨hardEnd, rfl, chunk, fun less => absurd less more⟩

/-- Chunks of a text from a position on: each begins in the overlap with the one before it. -/
inductive Chunks (source : List Char) : Nat → List (Nat × Nat) → Prop where
  | last {start : Nat} (chunk : IsChunk source start (Text.byteLength source)) :
      Chunks source start [(start, Text.byteLength source)]
  | next {start stop following : Nat} {rest : List (Nat × Nat)} (chunk : IsChunk source start stop)
      (more : stop < Text.byteLength source)
      (half : start + maxEntityChunkBytes / 2 ≤ stop + 3)
      (overlap : following + entityChunkOverlapBytes ≤ stop)
      (reach : stop ≤ following + entityChunkOverlapBytes + 3)
      (others : Chunks source following rest) : Chunks source start ((start, stop) :: rest)

/-- The loop returns the chunks of the text from a boundary on. -/
theorem exists_chunkLoop {fuel : Nat} (boundary : Text.isCharBoundary source start = true)
    (within : start < Text.byteLength source) (enough : Text.byteLength source ≤ start + fuel) :
    ∃ chunks, chunkLoop source fuel start ranges = some (ranges ++ chunks) ∧
      Chunks source start chunks := by
  induction fuel generalizing start ranges with
  | zero => omega
  | succ fuel inductionHypothesis =>
      obtain ⟨stop, ends, chunk, long⟩ := exists_chunkEnd boundary within
      have size : maxEntityChunkBytes = 65536 := rfl
      have overlap : entityChunkOverlapBytes = 4096 := rfl
      rw [chunkLoop, if_pos within]
      simp only [ends, Option.bind_eq_bind, Option.bind_some]
      split_ifs with final
      · rw [final] at chunk ⊢
        exact ⟨_, rfl, .last chunk⟩
      · have bounded := chunk.within
        have more : stop < Text.byteLength source := by omega
        have half := long more
        obtain ⟨isBoundary, below, near⟩ := @floorCharBoundary_spec source
          (stop - entityChunkOverlapBytes) (by omega)
        generalize following : floorCharBoundary source (stop - entityChunkOverlapBytes) = overlapStart
          at isBoundary below near ⊢
        have starts : min (max overlapStart (start + 1)) stop = overlapStart := by omega
        rw [starts]
        obtain ⟨chunks, loop, rest⟩ :=
          @inductionHypothesis overlapStart (ranges ++ [(start, stop)]) isBoundary (by omega)
            (by omega)
        refine ⟨(start, stop) :: chunks, ?_, .next chunk more half (by omega) (by omega) rest⟩
        rw [loop, List.append_assoc, List.singleton_append]

namespace Chunks

theorem isChunk (chunks : Chunks source start ranges) :
    ∀ range ∈ ranges, IsChunk source range.1 range.2 := by
  induction chunks with
  | last chunk => exact List.forall_mem_singleton.mpr chunk
  | next chunk _ _ _ _ _ inductionHypothesis =>
      exact List.forall_mem_cons.mpr ⟨chunk, inductionHypothesis⟩

/-- Chunks begin at the position or behind it, and end behind what is in the overlap. -/
theorem bounds (chunks : Chunks source start ranges) :
    ∀ range ∈ ranges, start ≤ range.1 ∧ ∀ position < Text.byteLength source,
      position ≤ start + entityChunkOverlapBytes + 3 → position < range.2 := by
  have size : maxEntityChunkBytes = 65536 := rfl
  have overlap : entityChunkOverlapBytes = 4096 := rfl
  induction chunks with
  | last chunk => exact List.forall_mem_singleton.mpr ⟨Nat.le_refl _, fun _ less _ => less⟩
  | next chunk more half overlapped reach others inductionHypothesis =>
      refine List.forall_mem_cons.mpr ⟨⟨Nat.le_refl _, fun position _ near => ?_⟩,
        fun range member => ?_⟩
      · dsimp only
        omega
      · obtain ⟨starts, ends⟩ := inductionHypothesis range member
        exact ⟨by omega, fun position less near => ends position less (by omega)⟩

/-- The chunks begin and end one behind another. -/
theorem increasing (chunks : Chunks source start ranges) :
    ranges.Pairwise fun first second => first.1 < second.1 ∧ first.2 < second.2 := by
  have size : maxEntityChunkBytes = 65536 := rfl
  have overlap : entityChunkOverlapBytes = 4096 := rfl
  induction chunks with
  | last chunk => exact List.pairwise_singleton _ _
  | next chunk more half overlapped reach others inductionHypothesis =>
      refine List.pairwise_cons.mpr ⟨fun range member => ?_, inductionHypothesis⟩
      obtain ⟨starts, ends⟩ := others.bounds range member
      refine ⟨?_, ends _ more reach⟩
      dsimp only
      omega

/-- A part of the text which is not longer than the overlap is whole in a chunk. -/
theorem exists_containing (chunks : Chunks source start ranges) {low high : Nat}
    (behind : start ≤ low) (ordered : low ≤ high) (within : high ≤ Text.byteLength source)
    (short : high ≤ low + entityChunkOverlapBytes) :
    ∃ range ∈ ranges, range.1 ≤ low ∧ high ≤ range.2 := by
  induction chunks with
  | last chunk => exact ⟨_, List.mem_singleton_self _, behind, within⟩
  | @next start stop following rest chunk more half overlapped reach others inductionHypothesis =>
      by_cases inside : high ≤ stop
      · exact ⟨_, List.mem_cons_self, behind, inside⟩
      · obtain ⟨range, member, contains⟩ := inductionHypothesis (by omega)
        exact ⟨range, List.mem_cons_of_mem _ member, contains⟩

end Chunks

/-- A text which is not empty is cut into chunks from its start on. -/
theorem exists_chunkRanges (nonempty : source ≠ []) :
    ∃ ranges, chunkRanges source = some ranges ∧ Chunks source 0 ranges := by
  have positive := Text.byteLength_pos nonempty
  rw [chunkRanges]
  split_ifs with short
  · refine ⟨_, rfl, .last ⟨isCharBoundary_zero, isCharBoundary_byteLength, positive, ?_, ?_⟩⟩
    · omega
    · exact Nat.le_refl _
  · obtain ⟨chunks, loop, cut⟩ := @exists_chunkLoop source 0 [] (Text.byteLength source)
      isCharBoundary_zero positive (by omega)
    exact ⟨chunks, loop, cut⟩

end Chunks

/-- The chunks of a text are in it, in order, between characters, of limited length, and not empty
unless the text is; they cover the text, and every part of it which is not longer than the overlap
is whole in one of them. -/
theorem chunks_contain_every_short_part (source : List Char) :
    ∃ ranges, chunkRanges source = some ranges ∧
      (∀ range ∈ ranges, Text.isCharBoundary source range.1 = true ∧
        Text.isCharBoundary source range.2 = true ∧ range.2 ≤ range.1 + maxEntityChunkBytes ∧
        range.2 ≤ Text.byteLength source ∧ (range.1 < range.2 ∨ source = [] ∧ range = (0, 0))) ∧
      (ranges.Pairwise fun first second => first.1 < second.1 ∧ first.2 < second.2) ∧
      (∀ position < Text.byteLength source, ∃ range ∈ ranges,
        range.1 ≤ position ∧ position < range.2) ∧
      ∀ before part after, source = before ++ part ++ after →
        Text.byteLength part ≤ entityChunkOverlapBytes → ∃ range ∈ ranges,
          range.1 ≤ Text.byteLength before ∧
            Text.byteLength before + Text.byteLength part ≤ range.2 := by
  by_cases empty : source = []
  · subst empty
    refine ⟨[(0, 0)], rfl, ?_, List.pairwise_singleton _ _,
      fun _ within => absurd within (Nat.not_lt_zero _), ?_⟩
    · exact List.forall_mem_singleton.mpr ⟨rfl, rfl, Nat.zero_le _, Nat.le_refl _, .inr ⟨rfl, rfl⟩⟩
    · intro before part after cut _
      obtain ⟨rfl, rfl, rfl⟩ : before = [] ∧ part = [] ∧ after = [] := by
        simpa [and_assoc] using cut.symm
      exact ⟨_, List.mem_singleton_self _, Nat.le_refl _, Nat.le_refl _⟩
  · obtain ⟨ranges, returned, chunks⟩ := exists_chunkRanges empty
    refine ⟨ranges, returned, fun range member => ?_, chunks.increasing, fun position within => ?_,
      fun before part after cut short => ?_⟩
    · obtain ⟨first, last, nonempty, bounded, within⟩ := chunks.isChunk range member
      exact ⟨first, last, bounded, within, .inl nonempty⟩
    · have short : position + 1 ≤ position + entityChunkOverlapBytes :=
        Nat.add_le_add_left (by decide) _
      exact chunks.exists_containing (Nat.zero_le _) (Nat.le_succ _) within short
    · refine chunks.exists_containing (Nat.zero_le _) (Nat.le_add_right _ _) ?_ (by omega)
      rw [cut, Text.byteLength_append, Text.byteLength_append]
      exact Nat.le_add_right _ _

/-- The chunk of an empty text is empty. -/
theorem empty_text_has_an_empty_chunk :
    chunkRanges [] = some [(0, 0)] ∧
      ¬ ∃ ranges, chunkRanges [] = some ranges ∧ ∀ range ∈ ranges, range.1 < range.2 := by
  refine ⟨rfl, ?_⟩
  rintro ⟨ranges, returned, nonempty⟩
  cases returned
  exact absurd (nonempty _ (List.mem_singleton_self _)) (Nat.lt_irrefl _)

end LawyerAssistance.Redaction
