import LawyerAssistance.Std.BlankLines
import LawyerAssistance.Std.Bytes
import LawyerAssistance.Std.Fallible

/-!
# Plain text attachments

The format of a file comes from its name. The text of a TXT or Markdown file is its strict UTF-8
decoding without a byte order mark and with line feeds only; its size and its number of segments
are bounded.
-/

namespace LawyerAssistance.FileIngest

/-- The texts of the crate. -/
abbrev Text := List Char

/-- `FileFormat`. -/
inductive FileFormat where
  | pdf
  | docx
  | txt
  | markdown
  | png
  | jpeg
  | webp
deriving DecidableEq, Repr

/-- The failures of plain text. -/
inductive IngestError where
  | invalidFileName
  | unsupportedExtension
  | formatMismatch
  | fileTooLarge
  | invalidUtf8
  | nulByteNotAllowed
  | textLimitExceeded
  | segmentLimitExceeded
deriving DecidableEq, Repr

/-- `IngestError::code`. -/
def IngestError.code : IngestError → String
  | .invalidFileName => "invalid_file_name"
  | .unsupportedExtension => "unsupported_extension"
  | .formatMismatch => "format_mismatch"
  | .fileTooLarge => "file_too_large"
  | .invalidUtf8 => "invalid_utf8"
  | .nulByteNotAllowed => "nul_byte_not_allowed"
  | .textLimitExceeded => "text_limit_exceeded"
  | .segmentLimitExceeded => "segment_limit_exceeded"

/-- `MAX_FILE_BYTES`. -/
def maxFileBytes : Nat := 20 * 1024 * 1024

/-- `MAX_TEXT_BYTES`. -/
def maxTextBytes : Nat := 2 * 1024 * 1024

/-- `MAX_SEGMENTS`. -/
def maxSegments : Nat := 5000

/-- `TEXT_LINES_PER_SEGMENT`. -/
def textLinesPerSegment : Nat := 40

/-- `MAX_FILE_NAME_BYTES`. -/
def maxFileNameBytes : Nat := 255

/-! ## Names -/

/-- `validate_basename`. -/
def validateBasename (fileName : Text) : Except IngestError Unit :=
  refuseIf (fileName = [] ∨ maxFileNameBytes < Text.byteLength fileName ∨ fileName = ['.'] ∨
    fileName = ['.', '.'] ∨ fileName.getLast? = some '.' ∨
    fileName.any (fun character => Text.isControl character || "/\\<>:\"|?*".toList.contains character) =
      true) .invalidFileName

/-- The part behind the last dot, as `rsplit_once` gives it, in lower case. -/
def extension (fileName : Text) : Option String :=
  if '.' ∈ fileName then
    some (String.ofList (((fileName.reverse.takeWhile (· ≠ '.')).reverse).map Char.toLower))
  else none

/-- `detect_format`. -/
def detectFormat (fileName : Text) : Except IngestError FileFormat := do
  validateBasename fileName
  match extension fileName with
  | some "pdf" => pure .pdf
  | some "docx" => pure .docx
  | some "txt" => pure .txt
  | some "md" | some "markdown" => pure .markdown
  | some "png" => pure .png
  | some "jpg" | some "jpeg" => pure .jpeg
  | some "webp" => pure .webp
  | _ => .error .unsupportedExtension

/-! ## Text -/

/-- `std::str::from_utf8`. -/
def decodeUtf8 (bytes : Octets) : Option Text :=
  (String.fromUTF8? ⟨bytes.toArray⟩).map String.toList

/-- `normalize_line_endings`, behind a number of bytes. -/
def normalizeLineEndings (maxBytes : Nat) : Nat → Text → Except IngestError Text
  | _, [] => pure []
  | size, '\r' :: '\n' :: rest => do
      refuseIf (maxBytes < size + 1) .textLimitExceeded
      let others ← normalizeLineEndings maxBytes (size + 1) rest
      pure ('\n' :: others)
  | size, character :: rest => do
      refuseIf (character = '\x00') .nulByteNotAllowed
      let normalized := if character = '\r' then '\n' else character
      refuseIf (maxBytes < size + normalized.utf8Size) .textLimitExceeded
      let others ← normalizeLineEndings maxBytes (size + normalized.utf8Size) rest
      pure (normalized :: others)

/-- `ExtractedSegment`. -/
structure ExtractedSegment where
  locator : String
  text : Text
deriving DecidableEq, Repr

/-- `push_line_segment`. -/
def pushLineSegment (segments : List ExtractedSegment) (limit startLine endLine : Nat)
    (text : Text) : Except IngestError (List ExtractedSegment) := do
  refuseIf (limit ≤ segments.length) .segmentLimitExceeded
  pure (segments ++ [⟨"line:" ++ toString startLine ++ "-" ++ toString endLine, text⟩])

/-- The state of the loop of `segment_lines`: the segments, the block which was begun, its first
line, the current line and the lines of the block. -/
structure SegmentState where
  segments : List ExtractedSegment
  block : Text
  blockStartLine : Nat
  currentLine : Nat
  linesInBlock : Nat

/-- The loop of `segment_lines`. -/
def segmentLinesFrom (linesPerSegment limit : Nat) :
    SegmentState → Text → Except IngestError (List ExtractedSegment)
  | state, [] =>
      if state.block = [] then pure state.segments
      else
        pushLineSegment state.segments limit state.blockStartLine
          (if state.block.getLast? = some '\n' then state.currentLine - 1 else state.currentLine)
          state.block
  | state, character :: rest =>
      let block := state.block ++ [character]
      if character ≠ '\n' then segmentLinesFrom linesPerSegment limit { state with block := block } rest
      else if state.linesInBlock + 1 = linesPerSegment then do
        let segments ←
          pushLineSegment state.segments limit state.blockStartLine state.currentLine block
        segmentLinesFrom linesPerSegment limit
          ⟨segments, [], state.currentLine + 1, state.currentLine + 1, 0⟩ rest
      else
        segmentLinesFrom linesPerSegment limit { state with
          block := block
          currentLine := state.currentLine + 1
          linesInBlock := state.linesInBlock + 1 } rest

/-- `segment_lines`. -/
def segmentLines (text : Text) (linesPerSegment limit : Nat) :
    Except IngestError (List ExtractedSegment) :=
  if text = [] then pure []
  else if linesPerSegment = 0 then .error .segmentLimitExceeded
  else segmentLinesFrom linesPerSegment limit ⟨[], [], 1, 1, 0⟩ text

/-- The byte order mark. -/
def byteOrderMark : Char := '\ufeff'

/-- `strip_prefix('\u{feff}')`. -/
def stripByteOrderMark (text : Text) : Text :=
  if text.head? = some byteOrderMark then text.tail else text

/-- `Extraction`, of a format without pages. -/
structure Extraction where
  text : Text
  segments : List ExtractedSegment

/-- `text::extract_decoded`, with the default limits. -/
def extractDecoded (decoded : Text) : Except IngestError Extraction := do
  let normalized ← normalizeLineEndings maxTextBytes 0 (stripByteOrderMark decoded)
  let segments ← segmentLines normalized textLinesPerSegment maxSegments
  pure ⟨normalized, segments⟩

/-- `extract_plain_text` of a TXT file without an encoding, and `ingest_bytes` of a Markdown file:
both refuse bytes with a known signature. -/
def extractText (hasSignature : Octets → Bool) (bytes : Octets) : Except IngestError Text := do
  refuseIf (maxFileBytes < bytes.length) .fileTooLarge
  refuseIf (hasSignature bytes = true) .formatMismatch
  let decoded ← presentOr (decodeUtf8 bytes) .invalidUtf8
  let extraction ← extractDecoded decoded
  pure extraction.text

/-! ## What is extracted -/

section Extracted

variable {maxBytes size : Nat} {input result : Text}

/-- The size of a text, with one more character. -/
theorem size_of_rest (character : Char) {rest : Text}
    (fits : size + character.utf8Size ≤ maxBytes)
    (bounded : rest ≠ [] → size + character.utf8Size + Text.byteLength rest ≤ maxBytes) :
    size + Text.byteLength (character :: rest) ≤ maxBytes := by
  rw [Text.byteLength_cons, ← Nat.add_assoc]
  by_cases empty : rest = []
  · rw [empty]
    exact fits
  · exact bounded empty

/-- A text which is normalized has line feeds only, and fits the limit. -/
theorem normalizeLineEndings_eq_ok
    (done : normalizeLineEndings maxBytes size input = .ok result) :
    result = Text.unifyLineEnds input ∧
      (result ≠ [] → size + Text.byteLength result ≤ maxBytes) := by
  induction input using Text.unifyLineEnds.induct generalizing size result with
  | case1 =>
      cases done
      exact ⟨rfl, fun nonempty => absurd rfl nonempty⟩
  | case2 rest inductionHypothesis =>
      rw [normalizeLineEndings] at done
      obtain ⟨fits, done⟩ := refuseIf_bind_eq_ok.mp done
      obtain ⟨others, normalized, done⟩ := bind_eq_ok.mp done
      cases done
      obtain ⟨rfl, bounded⟩ := inductionHypothesis normalized
      refine ⟨by rw [Text.unifyLineEnds], fun _ => ?_⟩
      exact size_of_rest '\n' (Nat.not_lt.mp fits) bounded
  | case3 character rest plain inductionHypothesis =>
      rw [normalizeLineEndings] at done
      · obtain ⟨_, done⟩ := refuseIf_bind_eq_ok.mp done
        obtain ⟨fits, done⟩ := refuseIf_bind_eq_ok.mp done
        obtain ⟨others, normalized, done⟩ := bind_eq_ok.mp done
        cases done
        obtain ⟨rfl, bounded⟩ := inductionHypothesis normalized
        exact ⟨(Text.unifyLineEnds_cons plain).symm, fun _ =>
          size_of_rest _ (Nat.not_lt.mp fits) bounded⟩
      · exact plain

/-- A text which is extracted is the decoded one without its mark and with line feeds only, and
fits the limit. -/
theorem extractText_eq_ok {hasSignature : Octets → Bool} {bytes : Octets}
    (done : extractText hasSignature bytes = .ok result) :
    ∃ decoded, decodeUtf8 bytes = some decoded ∧
      result = Text.unifyLineEnds (stripByteOrderMark decoded) ∧
      Text.byteLength result ≤ maxTextBytes := by
  obtain ⟨_, done⟩ := refuseIf_bind_eq_ok.mp done
  obtain ⟨_, done⟩ := refuseIf_bind_eq_ok.mp done
  obtain ⟨decoded, known, done⟩ := bind_eq_ok.mp done
  obtain ⟨extraction, extracted, done⟩ := bind_eq_ok.mp done
  obtain ⟨normalized, unified, extracted⟩ := bind_eq_ok.mp extracted
  obtain ⟨segments, _, extracted⟩ := bind_eq_ok.mp extracted
  cases extracted
  cases done
  obtain ⟨same, bounded⟩ := normalizeLineEndings_eq_ok unified
  refine ⟨decoded, presentOr_eq_ok.mp known, same, ?_⟩
  by_cases empty : normalized = []
  · rw [empty]
    exact Nat.zero_le _
  · rw [← Nat.zero_add (Text.byteLength normalized)]
    exact bounded empty

end Extracted

end LawyerAssistance.FileIngest
