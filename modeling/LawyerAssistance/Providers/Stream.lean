import LawyerAssistance.Std.Bytes
import LawyerAssistance.Std.Fallible
import LawyerAssistance.Std.Json
import LawyerAssistance.Std.Occurrences
import LawyerAssistance.Std.Text

/-!
# Streams of providers

`stream.rs` of the providers: the parser of the server-sent events of an answer, with
`redaction.rs`, through which the texts of its errors go. The texts of errors of `serde_json` and of
`str::from_utf8` are parameters.
-/

namespace LawyerAssistance.Providers

/-- A text of a provider. -/
abbrev Text := List Char

/-! ## Redaction -/

/-- `str::to_ascii_lowercase`. -/
def toAsciiLowercase (text : Text) : Text := text.map Char.toLower

/-- The lines of a text, each of them behind the characters of it which were read. -/
def linesFrom (line : Text) : Text → List Text
  | [] => if line = [] then [] else [line]
  | '\n' :: rest => (if line.getLast? = some '\r' then line.dropLast else line) :: linesFrom [] rest
  | character :: rest => linesFrom (line ++ [character]) rest

/-- `REDACTION`. -/
def redaction : Text := "<redacted>".toList

/-- `redact_key_value_line`. -/
def redactKeyValueLine (line : Text) : Text :=
  if ':' ∈ line then line.takeWhile (· ≠ ':') ++ ": ".toList ++ redaction
  else if '=' ∈ line then line.takeWhile (· ≠ '=') ++ "=".toList ++ redaction
  else redaction

/-- `redact_bearer_tokens`. -/
def redactBearerTokens (remaining : Text) : Text :=
  match _found : Text.splitFirst "bearer ".toList (toAsciiLowercase remaining) with
  | none => remaining
  | some (before, _) =>
      let tokenAndTail := remaining.drop (before.length + 7)
      remaining.take before.length ++ "Bearer ".toList ++ redaction ++
        redactBearerTokens (tokenAndTail.dropWhile fun character => !Text.isWhitespace character)
termination_by remaining.length
decreasing_by
  have parts := congrArg List.length (Text.splitFirst_eq_some _found).1
  have dropped := (List.dropWhile_sublist (fun character => !Text.isWhitespace character)
    (l := remaining.drop (before.length + 7))).length_le
  simp only [toAsciiLowercase, List.length_map, List.length_append] at parts
  rw [List.length_drop] at dropped
  have needle : "bearer ".toList.length = 7 := rfl
  omega

/-- `redact_sensitive`. -/
def redactSensitive (input : Text) : Text :=
  List.intercalate ['\n'] ((linesFrom [] input).map fun line =>
    let lower := toAsciiLowercase line
    if ["authorization:", "api-key", "api_key", "apikey", "x-api-key"].any
        (fun needle => Text.contains lower needle.toList) then redactKeyValueLine line
    else redactBearerTokens line)

/-- `truncate_for_log`. -/
def truncateForLog (input : Text) (limit : Nat) : Text :=
  let sanitized := redactSensitive input
  if sanitized.length ≤ limit then sanitized else sanitized.take limit ++ "...".toList

/-! ## Events -/

/-- `ChatUsage`. -/
structure ChatUsage where
  promptTokens : Option UInt32
  completionTokens : Option UInt32
  totalTokens : Option UInt32
deriving DecidableEq

/-- `StreamEvent`. -/
inductive StreamEvent where
  | delta (content : Text) (model : Option Text)
  | usage (usage : ChatUsage)
  | error (errorType message : Text)
  | done
deriving DecidableEq

/-- The kinds of errors of a stream. -/
inductive ProviderErrorKind where
  | responseTooLarge
  | parse
deriving DecidableEq

/-- `ProviderError`, without a status. -/
structure ProviderError where
  kind : ProviderErrorKind
  message : Text
deriving DecidableEq

/-- `ProviderError::new`. -/
def ProviderError.new (kind : ProviderErrorKind) (message : Text) : ProviderError :=
  ⟨kind, truncateForLog message 280⟩

/-- `ParsedSseEvent`. -/
structure ParsedSseEvent where
  events : List StreamEvent
  sawReasoningContent : Bool

/-- `ParsedSseEvent::visible`. -/
def ParsedSseEvent.visible (events : List StreamEvent) : ParsedSseEvent := ⟨events, false⟩

/-! ## Values -/

/-- `Value::get`, of a member: of several with one name the last is kept. -/
def getMember (value : Json.Tree) (name : String) : Option Json.Tree :=
  match value with
  | .object members => (members.reverse.find? fun member => member.1 = name.toList).map Prod.snd
  | _ => none

/-- `Value::as_str`. -/
def asStr : Json.Tree → Option Text
  | .string value => some value
  | _ => none

/-- `Value::as_array`. -/
def asArray : Json.Tree → Option (List Json.Tree)
  | .array elements => some elements
  | _ => none

/-- `Value::is_object`. -/
def isObject : Json.Tree → Bool
  | .object _ => true
  | _ => false

/-- `Value::as_u64`, as a `u32`. -/
def asU32 : Json.Tree → Option UInt32
  | .integer value => if 0 ≤ value ∧ value < 2 ^ 32 then some (UInt32.ofNat value.toNat) else none
  | _ => none

/-- `parse_error_value`. -/
def parseErrorValue (value : Json.Tree) : StreamEvent :=
  let errorType := (((getMember value "type").bind asStr).or
    ((getMember value "code").bind asStr)).getD "provider_error".toList
  let message := ((getMember value "message").bind asStr).getD
    "provider stream returned an error".toList
  .error errorType (truncateForLog message 240)

section Parser

/-! ## Data -/

variable (fromStr : Text → Except Text Json.Tree) (utf8Error : Octets → Text)

/-- `parse_error_event`. -/
def parseErrorEvent (data : Text) : Except ProviderError StreamEvent :=
  if Text.trim data = [] then
    .ok (.error "provider_error".toList "provider stream returned an error event".toList)
  else do
    let value ← mapError (fun error => ProviderError.new .parse
      ("stream error event was not valid JSON: ".toList ++ error)) (fromStr data)
    .ok (parseErrorValue ((getMember value "error").getD value))

/-- The usage of an answer. -/
def usageOf (value : Json.Tree) : Option ChatUsage :=
  ((getMember value "usage").filter isObject).map fun usage => {
    promptTokens := (getMember usage "prompt_tokens").bind asU32
    completionTokens := (getMember usage "completion_tokens").bind asU32
    totalTokens := (getMember usage "total_tokens").bind asU32 }

/-- `parse_data_events`. -/
def parseDataEvents (data : Text) : Except ProviderError ParsedSseEvent :=
  if Text.trim data = [] then
    .error (.new .parse "stream event did not include data".toList)
  else do
    let value ← mapError (fun error => ProviderError.new .parse
      ("stream event data was not valid JSON: ".toList ++ error)) (fromStr data)
    match getMember value "error" with
    | some error => .ok (.visible [parseErrorValue error])
    | none =>
        let delta := (((getMember value "choices").bind asArray).bind List.head?).bind
          (getMember · "delta")
        let content := ((delta.bind (getMember · "content")).bind asStr).getD []
        let sawReasoningContent := ((delta.bind (getMember · "reasoning_content")).bind asStr).any
          fun content => decide (content ≠ [])
        let model := (getMember value "model").bind asStr
        let events := (if delta.isSome ∨ model.isSome then [.delta content model] else []) ++
          ((usageOf value).map StreamEvent.usage).toList
        .ok ⟨if events = [] then [.delta [] none] else events, sawReasoningContent⟩

/-- `str::split`, at line feeds and carriage returns. -/
def splitLines (line : Text) : Text → List Text
  | [] => [line]
  | character :: rest =>
      if character = '\r' ∨ character = '\n' then line :: splitLines [] rest
      else splitLines (line ++ [character]) rest

/-- `str::strip_prefix`. -/
def stripPrefix (front text : Text) : Option Text :=
  if front.isPrefixOf text then some (text.drop front.length) else none

/-- The fields of an event: its name and the lines of its data. -/
structure Fields where
  eventName : Option Text
  dataLines : List Text

/-- A line of an event. -/
def Fields.read (fields : Fields) (line : Text) : Fields :=
  match stripPrefix "event:".toList line with
  | some value => { fields with eventName := some (Text.trim value) }
  | none =>
      match stripPrefix "data:".toList line with
      | some value =>
          { fields with dataLines := fields.dataLines ++ [(stripPrefix [' '] value).getD value] }
      | none =>
          if line = "data".toList then { fields with dataLines := fields.dataLines ++ [[]] }
          else fields

/-- `parse_event_bytes`. -/
def parseEventBytes (bytes : Octets) : Except ProviderError ParsedSseEvent :=
  match String.fromUTF8? ⟨bytes.toArray⟩ with
  | none => .error (.new .parse ("stream chunk was not valid UTF-8: ".toList ++ utf8Error bytes))
  | some decoded =>
      let text := (stripPrefix ['\ufeff'] decoded.toList).getD decoded.toList
      let fields := (splitLines [] text).foldl Fields.read ⟨none, []⟩
      if fields.dataLines = [] then .ok (.visible [])
      else
        let data := List.intercalate ['\n'] fields.dataLines
        if Text.trim data = "[DONE]".toList then .ok (.visible [.done])
        else if fields.eventName = some "error".toList then do
          let event ← parseErrorEvent fromStr data
          .ok (.visible [event])
        else if data = [] then .ok (.visible [])
        else parseDataEvents fromStr data

/-! ## Separators -/

/-- `line_ending_len`. -/
def lineEndingLen (buffer : Octets) (index : Nat) : Option Nat :=
  match buffer[index]? with
  | some 0x0A => some 1
  | some 0x0D => if buffer[index + 1]? = some 0x0A then some 2 else some 1
  | _ => none

theorem lineEndingLen_pos {buffer : Octets} {index length : Nat}
    (found : lineEndingLen buffer index = some length) : 0 < length := by
  rw [lineEndingLen] at found
  split at found
  · cases found
    exact Nat.one_pos
  · split_ifs at found <;> cases found <;> decide
  · cases found

/-- The loop of `find_event_separator`, from an index on. -/
def findSeparatorFrom (buffer : Octets) (index : Nat) : Option (Nat × Nat) :=
  if index < buffer.length then
    match _found : lineEndingLen buffer index with
    | none => findSeparatorFrom buffer (index + 1)
    | some first =>
        match lineEndingLen buffer (index + first) with
        | some second => some (index, first + second)
        | none => findSeparatorFrom buffer (index + first)
  else none
termination_by buffer.length - index
decreasing_by
  · omega
  · have positive := lineEndingLen_pos _found
    omega

section Separators

variable {buffer : Octets} {index length position : Nat}

/-- A line ending ends within its buffer. -/
theorem lineEndingLen_le (found : lineEndingLen buffer index = some length) :
    index + length ≤ buffer.length := by
  rw [lineEndingLen] at found
  split at found
  · rename_i here
    have bounded := (List.getElem?_eq_some_iff.mp here).1
    cases found
    omega
  · rename_i here
    have bounded := (List.getElem?_eq_some_iff.mp here).1
    split_ifs at found with pair
    · have bounded' := (List.getElem?_eq_some_iff.mp pair).1
      cases found
      omega
    · cases found
      omega
  · cases found

theorem findSeparatorFrom_end (outside : ¬ index < buffer.length) :
    findSeparatorFrom buffer index = none := by
  rw [findSeparatorFrom, if_neg outside]

theorem findSeparatorFrom_plain (inside : index < buffer.length)
    (plain : lineEndingLen buffer index = none) :
    findSeparatorFrom buffer index = findSeparatorFrom buffer (index + 1) := by
  rw [findSeparatorFrom, if_pos inside]
  split
  · rfl
  · rename_i found
    rw [plain] at found
    cases found

theorem findSeparatorFrom_ending {first : Nat} (inside : index < buffer.length)
    (ending : lineEndingLen buffer index = some first) :
    findSeparatorFrom buffer index =
      match lineEndingLen buffer (index + first) with
      | some second => some (index, first + second)
      | none => findSeparatorFrom buffer (index + first) := by
  rw [findSeparatorFrom, if_pos inside]
  split
  · rename_i plain
    rw [ending] at plain
    cases plain
  · rename_i found
    rw [ending] at found
    cases found
    rfl

/-- A separator is within its buffer, and it is not empty. -/
theorem findSeparatorFrom_le (found : findSeparatorFrom buffer index = some (position, length)) :
    index ≤ position ∧ position + length ≤ buffer.length ∧ 0 < length := by
  induction remaining : buffer.length - index using Nat.strongRecOn generalizing index with
  | ind size inductionHypothesis =>
      by_cases inside : index < buffer.length
      · cases ending : lineEndingLen buffer index with
        | none =>
            rw [findSeparatorFrom_plain inside ending] at found
            have behind := inductionHypothesis (buffer.length - (index + 1)) (by omega) found rfl
            omega
        | some first =>
            have positive := lineEndingLen_pos ending
            rw [findSeparatorFrom_ending inside ending] at found
            split at found
            · rename_i second ending'
              have bounded := lineEndingLen_le ending'
              cases found
              omega
            · have behind :=
                inductionHypothesis (buffer.length - (index + first)) (by omega) found rfl
              omega
      · rw [findSeparatorFrom_end inside] at found
        cases found

end Separators

/-- `find_event_separator`. -/
def findEventSeparator (buffer : Octets) : Option (Nat × Nat) := findSeparatorFrom buffer 0

/-! ## The parser -/

/-- `MAX_PENDING_SSE_EVENT_BYTES`. -/
def maxPendingSseEventBytes : Nat := 1024 * 1024

/-- `StreamParser`. -/
structure StreamParser where
  buffer : Octets
  sawReasoningContent : Bool

/-- `StreamParser::new`. -/
def StreamParser.new : StreamParser := ⟨[], false⟩

/-- `u8::is_ascii_whitespace`. -/
def isAsciiWhitespace (byte : UInt8) : Bool := [0x20, 0x09, 0x0A, 0x0C, 0x0D].contains byte

/-- What a parser has returned, and whether it saw hidden reasoning. -/
structure Progress where
  events : List (Except ProviderError StreamEvent)
  sawReasoningContent : Bool

/-- `append_parsed_event`. -/
def appendParsedEvent (progress : Progress) (eventBytes : Octets) : Progress :=
  match parseEventBytes fromStr utf8Error eventBytes with
  | .ok parsed => ⟨progress.events ++ parsed.events.map .ok,
      progress.sawReasoningContent || parsed.sawReasoningContent⟩
  | .error error => { progress with events := progress.events ++ [.error error] }

/-- An event of a stream: blank events are left out. -/
def visitEvent (progress : Progress) (eventBytes : Octets) : Progress :=
  if eventBytes.all isAsciiWhitespace then progress
  else appendParsedEvent fromStr utf8Error progress eventBytes

/-- The loop of `push`: what it returns, and what is left of the buffer. -/
def drainEvents (progress : Progress) (buffer : Octets) : Progress × Octets :=
  match _found : findEventSeparator buffer with
  | none => (progress, buffer)
  | some (index, separatorLen) =>
      drainEvents (visitEvent fromStr utf8Error progress (buffer.take index))
        ((buffer.drop index).drop separatorLen)
termination_by buffer.length
decreasing_by
  have bounded := findSeparatorFrom_le _found
  rw [List.length_drop, List.length_drop]
  omega

/-- `StreamParser::push`: the parser behind it, and the events which it returns. -/
def StreamParser.push (parser : StreamParser) (chunk : Octets) :
    StreamParser × List (Except ProviderError StreamEvent) :=
  if chunk = [] then (parser, [])
  else
    let drained := drainEvents fromStr utf8Error ⟨[], parser.sawReasoningContent⟩
      (parser.buffer ++ chunk)
    if maxPendingSseEventBytes < drained.2.length then
      (⟨[], drained.1.sawReasoningContent⟩, drained.1.events ++
        [.error (.new .responseTooLarge
          "provider SSE event exceeded the 1 MiB pending-event limit".toList)])
    else (⟨drained.2, drained.1.sawReasoningContent⟩, drained.1.events)

/-- `StreamParser::finish`. -/
def StreamParser.finish (parser : StreamParser) :
    StreamParser × List (Except ProviderError StreamEvent) :=
  if parser.buffer.all isAsciiWhitespace then (⟨[], parser.sawReasoningContent⟩, [])
  else
    let progress := appendParsedEvent fromStr utf8Error ⟨[], parser.sawReasoningContent⟩
      parser.buffer
    (⟨[], progress.sawReasoningContent⟩, progress.events)

/-- What a parser returns when it is fed the chunks of a stream and finished. -/
def StreamParser.receive (parser : StreamParser) : List Octets → Progress
  | [] =>
      let finished := parser.finish fromStr utf8Error
      ⟨finished.2, finished.1.sawReasoningContent⟩
  | chunk :: rest =>
      let pushed := parser.push fromStr utf8Error chunk
      let received := receive pushed.1 rest
      ⟨pushed.2 ++ received.events, received.sawReasoningContent⟩

end Parser

end LawyerAssistance.Providers
