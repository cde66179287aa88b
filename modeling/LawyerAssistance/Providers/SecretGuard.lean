import LawyerAssistance.Providers.Stream
import LawyerAssistance.Std.HoldBack

/-!
# The guard of the key in a chat

The loop of `run_chat` in `provider.rs`: the pieces of an answer are sent on as they come, less as
much of their end as could be the start of the key of the provider, and an answer with the key in
it is refused. What interrupts a run are choices: a run which is watched at some moment is the run
whose next read or send is refused there. Positions are counted in characters: the source counts
bytes, and takes the boundaries of characters only.
-/

namespace LawyerAssistance.Providers

/-! ## Runs -/

/-- Why a chat has no answer. -/
inductive ChatError where
  | cancelled
  | clientDisconnected
  | providerResponseInvalid
  | providerSecretEchoBlocked
  | providerResponseTooLarge
  | providerEmptyResponse
  | providerResponseIncomplete
  | workspaceRefused
  deriving DecidableEq

/-- What interrupts a run: its reads and its sends, by their number, and its end, where the
conversation is stored. -/
structure Surroundings where
  read : Nat → Option ChatError
  send : Nat → Option ChatError
  conclude : Option ChatError

/-- Nothing is interrupted. -/
def Surroundings.quiet : Surroundings := ⟨fun _ => none, fun _ => none, none⟩

/-- The variables of the loop of `run_chat`, and what was sent. -/
structure Answer where
  output : Text
  pending : Text
  done : Bool
  sent : List Text
  deriving DecidableEq

/-- A run which ends early, and what was sent before. -/
structure Interrupted where
  error : ChatError
  sent : List Text
  deriving DecidableEq

/-- What a parser of a stream returns. -/
abbrev Received := Except ProviderError StreamEvent

/-- The most bytes of an answer. -/
def maxResponseBytes : Nat := 2 * 1024 * 1024

section Runs

variable (secret : Text) (surroundings : Surroundings)

/-- `tx.send`, of a piece of the answer. -/
def sendDelta (answer : Answer) (text : Text) : Except Interrupted Answer :=
  match surroundings.send answer.sent.length with
  | some error => .error ⟨error, answer.sent⟩
  | none => .ok { answer with sent := answer.sent ++ [text] }

/-- A piece of the answer comes. -/
def visitDelta (answer : Answer) (content : Text) : Except Interrupted Answer :=
  let pending := answer.pending ++ content
  if Text.contains pending secret then .error ⟨.providerSecretEchoBlocked, answer.sent⟩
  else if maxResponseBytes < Text.byteLength answer.output + Text.byteLength content then
    .error ⟨.providerResponseTooLarge, answer.sent⟩
  else
    -- A possible start of the key is held, so that it is not sent across two pieces.
    let answer := { answer with
      output := answer.output ++ content
      pending := HoldBack.tail secret pending }
    if HoldBack.safe secret pending = [] then .ok answer
    else sendDelta surroundings answer (HoldBack.safe secret pending)

/-- An event of the stream comes. -/
def visitReceived (answer : Answer) : Received → Except Interrupted Answer
  | .ok (.delta content _) => visitDelta secret surroundings answer content
  | .ok (.error _ _) => .error ⟨.providerResponseInvalid, answer.sent⟩
  | .ok .done => .ok { answer with done := true }
  | .ok (.usage _) => .ok answer
  | .error _ => .error ⟨.providerResponseInvalid, answer.sent⟩

/-- The loop of `run_chat`, over the events of its chunks. -/
def receiveAnswer (round : Nat) (answer : Answer) : List (List Received) →
    Except Interrupted Answer
  | [] => .ok answer
  | events :: rest =>
      match surroundings.read round with
      | some error => .error ⟨error, answer.sent⟩
      | none => do
          let answer ← events.foldlM (visitReceived secret surroundings) answer
          if answer.done then .ok answer else receiveAnswer (round + 1) answer rest

/-- What is held is sent behind the last piece. -/
def flushPending (answer : Answer) : Except Interrupted Answer :=
  if answer.pending = [] then .ok answer else sendDelta surroundings answer answer.pending

/-- `run_chat`, from its first chunk on. -/
def runChat (chunks : List (List Received)) : Except Interrupted Answer := do
  let answer ← receiveAnswer secret surroundings 0 ⟨[], [], false, []⟩ chunks
  refuseIf (answer.output = []) ⟨.providerEmptyResponse, answer.sent⟩
  refuseIf (answer.done = false) ⟨.providerResponseIncomplete, answer.sent⟩
  let answer ← flushPending surroundings answer
  match surroundings.conclude with
  | some error => .error ⟨error, answer.sent⟩
  | none => .ok answer

end Runs

/-- The events which a parser returns for each chunk of a stream, and for its end. -/
def StreamParser.batches (fromStr : Text → Except Text Json.Tree) (utf8Error : Octets → Text)
    (parser : StreamParser) : List Octets → List (List Received)
  | [] => [(parser.finish fromStr utf8Error).2]
  | chunk :: rest =>
      let pushed := parser.push fromStr utf8Error chunk
      pushed.2 :: pushed.1.batches fromStr utf8Error rest

/-- `run_chat`, over the chunks of a stream. -/
def streamChat (fromStr : Text → Except Text Json.Tree) (utf8Error : Octets → Text) (secret : Text)
    (surroundings : Surroundings) (chunks : List Octets) : Except Interrupted Answer :=
  runChat secret surroundings (StreamParser.new.batches fromStr utf8Error chunks)

/-! ## Responses -/

/-- What an event adds to the answer. -/
def deltaText : Received → Text
  | .ok (.delta content _) => content
  | _ => []

/-- Whether an event ends the stream. -/
def endsStream : Received → Bool
  | .ok .done => true
  | _ => false

/-- Whether an event says that the stream is invalid. -/
def invalidates : Received → Bool
  | .ok (.error _ _) | .error _ => true
  | _ => false

/-- The events of a stream, up to the chunk with its end. -/
def eventsRead : List (List Received) → List Received
  | [] => []
  | events :: rest => if events.any endsStream then events else events ++ eventsRead rest

/-- The complete response of a stream. -/
def responseText (chunks : List (List Received)) : Text := (eventsRead chunks).flatMap deltaText

/-- A stream which is valid, and ends. -/
def CompleteStream (chunks : List (List Received)) : Prop :=
  (∀ event ∈ eventsRead chunks, invalidates event = false) ∧
    ∃ event ∈ eventsRead chunks, endsStream event = true

/-- A stream with an answer: it is complete, its response is neither empty nor too long, and the key
is not in it. -/
structure Answerable (secret : Text) (chunks : List (List Received)) : Prop where
  complete : CompleteStream chunks
  nonempty : responseText chunks ≠ []
  bounded : Text.byteLength (responseText chunks) ≤ maxResponseBytes
  absent : ¬ secret <:+: responseText chunks

/-- What was sent in a run. -/
def sentText : Except Interrupted Answer → Text
  | .ok answer => answer.sent.flatten
  | .error interrupted => interrupted.sent.flatten

/-! ## What was sent -/

section Guard

variable {secret text more sent : Text} {surroundings : Surroundings} {answer : Answer}
variable {events : List Received} {event : Received} {chunks : List (List Received)}

/-- What was sent of a text is its start, and the key occurs behind it only, also when the text goes
on. -/
def SentSafely (secret text sent : Text) : Prop :=
  ∃ waiting, sent ++ waiting = text ∧ HoldBack.Guarded secret sent waiting

theorem SentSafely.append (safely : SentSafely secret text sent) (more : Text) :
    SentSafely secret (text ++ more) sent := by
  obtain ⟨waiting, rfl, guarded⟩ := safely
  exact ⟨waiting ++ more, (List.append_assoc _ _ _).symm, guarded.append more⟩

/-- Why a run which is not interrupted ends early. -/
def RefusesText (secret : Text) (events : List Received) (text : Text) : Prop :=
  (∃ event ∈ events, invalidates event = true) ∨ secret <:+: text ∨
    maxResponseBytes < Text.byteLength text

theorem RefusesText.append (refused : RefusesText secret events text) (others : List Received)
    (more : Text) : RefusesText secret (events ++ others) (text ++ more) := by
  obtain ⟨event, member, invalid⟩ | occurs | long := refused
  · exact .inl ⟨event, List.mem_append_left _ member, invalid⟩
  · exact .inr (.inl (occurs.trans (List.prefix_append _ _).isInfix))
  · refine .inr (.inr (long.trans_le ?_))
    rw [Text.byteLength_append]
    exact Nat.le_add_right _ _

/-- The variables of a run which has read a text. -/
structure ReadSoFar (secret text : Text) (answer : Answer) : Prop where
  whole : answer.sent.flatten ++ answer.pending = text
  output : answer.output = text
  guarded : HoldBack.Guarded secret answer.sent.flatten answer.pending
  bounded : Text.byteLength text ≤ maxResponseBytes
  absent : text ≠ [] → ¬ secret <:+: text

theorem readSoFar_nil (secret : Text) : ReadSoFar secret [] ⟨[], [], false, []⟩ where
  whole := rfl
  output := rfl
  guarded := HoldBack.guarded_nil _ _
  bounded := Nat.zero_le _
  absent := fun nonempty => absurd rfl nonempty

theorem ReadSoFar.sentSafely (read : ReadSoFar secret text answer) :
    SentSafely secret text answer.sent.flatten :=
  ⟨answer.pending, read.whole, read.guarded⟩

/-- Where a run is behind some events. -/
structure Continues (secret text : Text) (answer : Answer) (events : List Received)
    (next : Answer) : Prop where
  read : ReadSoFar secret (text ++ events.flatMap deltaText) next
  done : next.done = (answer.done || events.any endsStream)
  valid : ∀ event ∈ events, invalidates event = false

/-- How a run ends in some events. -/
structure Stops (secret text : Text) (surroundings : Surroundings) (events : List Received)
    (interrupted : Interrupted) : Prop where
  safely : SentSafely secret (text ++ events.flatMap deltaText) interrupted.sent.flatten
  refused : surroundings = .quiet → RefusesText secret events (text ++ events.flatMap deltaText)

/-- Further events. -/
theorem Continues.append {next final : Answer} {others : List Received}
    (continues : Continues secret text answer events next)
    (behind : Continues secret (text ++ events.flatMap deltaText) next others final) :
    Continues secret text answer (events ++ others) final where
  read := by
    rw [List.flatMap_append, ← List.append_assoc]
    exact behind.read
  done := by rw [behind.done, continues.done, List.any_append, Bool.or_assoc]
  valid := List.forall_mem_append.mpr ⟨continues.valid, behind.valid⟩

/-- Events behind the end of a run. -/
theorem Stops.append {interrupted : Interrupted}
    (stops : Stops secret text surroundings events interrupted) (others : List Received) :
    Stops secret text surroundings (events ++ others) interrupted := by
  have cut : text ++ (events ++ others).flatMap deltaText =
      text ++ events.flatMap deltaText ++ others.flatMap deltaText := by
    rw [List.flatMap_append, List.append_assoc]
  refine ⟨?_, fun quiet => ?_⟩
  · rw [cut]
    exact stops.safely.append _
  · rw [cut]
    exact (stops.refused quiet).append others _

/-- Events before those in which a run ends. -/
theorem Stops.behind {interrupted : Interrupted} {others : List Received}
    (stops : Stops secret (text ++ events.flatMap deltaText) surroundings others interrupted) :
    Stops secret text surroundings (events ++ others) interrupted := by
  have cut : text ++ (events ++ others).flatMap deltaText =
      text ++ events.flatMap deltaText ++ others.flatMap deltaText := by
    rw [List.flatMap_append, List.append_assoc]
  refine ⟨by rw [cut]; exact stops.safely, fun quiet => ?_⟩
  rw [cut]
  obtain ⟨event, member, invalid⟩ | long := stops.refused quiet
  · exact .inl ⟨event, List.mem_append_right _ member, invalid⟩
  · exact .inr long

/-- One piece: it is sent, but for what could be the start of the key, or the run ends. -/
theorem visitDelta_spec (read : ReadSoFar secret text answer) (content : Text) :
    (∀ next, visitDelta secret surroundings answer content = .ok next →
      ReadSoFar secret (text ++ content) next ∧ next.done = answer.done) ∧
    ∀ interrupted, visitDelta secret surroundings answer content = .error interrupted →
      interrupted.sent = answer.sent ∧ (surroundings = .quiet →
        secret <:+: text ++ content ∨ maxResponseBytes < Text.byteLength (text ++ content)) := by
  have waits := read.guarded.append content
  have whole : answer.sent.flatten ++ (answer.pending ++ content) = text ++ content := by
    rw [← List.append_assoc, read.whole]
  rw [visitDelta]
  dsimp only
  split_ifs with occurs long empty
  · refine ⟨nofun, fun interrupted stopped => ?_⟩
    cases stopped
    refine ⟨rfl, fun _ => .inl ?_⟩
    rw [← whole]
    exact (Text.contains_iff.mp occurs).trans (List.suffix_append _ _).isInfix
  · refine ⟨nofun, fun interrupted stopped => ?_⟩
    cases stopped
    rw [read.output, ← Text.byteLength_append] at long
    exact ⟨rfl, fun _ => .inr long⟩
  all_goals
    rw [Text.contains_iff] at occurs
    have passed := waits.pass occurs
    have bounded : Text.byteLength (text ++ content) ≤ maxResponseBytes := by
      rw [Text.byteLength_append, ← read.output]
      exact Nat.le_of_not_lt long
    have absent : ¬ secret <:+: text ++ content := by
      rw [← whole]
      exact fun found => occurs (waits.infix_pending found)
    have output : answer.output ++ content = text ++ content := by rw [read.output]
  · refine ⟨fun next visited => ?_, nofun⟩
    cases visited
    rw [empty, List.append_nil] at passed
    have kept := HoldBack.safe_append_tail secret (answer.pending ++ content)
    rw [empty, List.nil_append] at kept
    exact ⟨⟨by rw [kept, whole], output, passed, bounded, fun _ => absent⟩, rfl⟩
  · rw [sendDelta]
    cases interrupt : surroundings.send answer.sent.length with
    | none =>
        refine ⟨fun next visited => ?_, nofun⟩
        cases visited
        refine ⟨⟨?_, output, ?_, bounded, fun _ => absent⟩, rfl⟩
        · simp only [List.flatten_append, List.flatten_singleton]
          rw [List.append_assoc, HoldBack.safe_append_tail, whole]
        · simp only [List.flatten_append, List.flatten_singleton]
          exact passed
    | some error =>
        refine ⟨nofun, fun interrupted stopped => ?_⟩
        cases stopped
        refine ⟨rfl, fun quiet => ?_⟩
        rw [quiet] at interrupt
        cases interrupt

/-- One event. -/
theorem visitReceived_spec (read : ReadSoFar secret text answer) (event : Received) :
    (∀ next, visitReceived secret surroundings answer event = .ok next →
      Continues secret text answer [event] next) ∧
    ∀ interrupted, visitReceived secret surroundings answer event = .error interrupted →
      Stops secret text surroundings [event] interrupted := by
  have invalid : invalidates event = true → ∀ interrupted : Interrupted,
      interrupted.sent = answer.sent → Stops secret text surroundings [event] interrupted := by
    intro invalid interrupted same
    refine ⟨?_, fun _ => .inl ⟨event, List.mem_cons_self, invalid⟩⟩
    rw [same]
    exact read.sentSafely.append _
  match event with
  | .ok (.delta content model) =>
      obtain ⟨continues, stops⟩ := @visitDelta_spec secret text surroundings answer read content
      have piece : [(.ok (.delta content model) : Received)].flatMap deltaText = content :=
        List.append_nil content
      refine ⟨fun next visited => ?_, fun interrupted stopped => ?_⟩
      · obtain ⟨reads, done⟩ := continues next visited
        refine ⟨by rw [piece]; exact reads, ?_, List.forall_mem_singleton.mpr rfl⟩
        rw [done]
        exact (Bool.or_false _).symm
      · obtain ⟨same, refused⟩ := stops interrupted stopped
        refine ⟨?_, fun quiet => ?_⟩
        · rw [same, piece]
          exact read.sentSafely.append content
        · rw [piece]
          exact .inr (refused quiet)
  | .ok (.error _ _) =>
      refine ⟨nofun, fun interrupted stopped => ?_⟩
      cases stopped
      exact invalid rfl _ rfl
  | .error _ =>
      refine ⟨nofun, fun interrupted stopped => ?_⟩
      cases stopped
      exact invalid rfl _ rfl
  | .ok .done =>
      refine ⟨fun next visited => ?_, nofun⟩
      cases visited
      have reads : ReadSoFar secret (text ++ []) { answer with done := true } := by
        rw [List.append_nil]
        exact ⟨read.whole, read.output, read.guarded, read.bounded, read.absent⟩
      exact ⟨reads, (Bool.or_true _).symm, List.forall_mem_singleton.mpr rfl⟩
  | .ok (.usage _) =>
      refine ⟨fun next visited => ?_, nofun⟩
      cases visited
      have reads : ReadSoFar secret (text ++ []) answer := by
        rw [List.append_nil]
        exact read
      exact ⟨reads, (Bool.or_false _).symm, List.forall_mem_singleton.mpr rfl⟩

/-- The events of one chunk. -/
theorem visits_spec (read : ReadSoFar secret text answer) :
    (∀ next, events.foldlM (visitReceived secret surroundings) answer = .ok next →
      Continues secret text answer events next) ∧
    ∀ interrupted, events.foldlM (visitReceived secret surroundings) answer = .error interrupted →
      Stops secret text surroundings events interrupted := by
  induction events generalizing text answer with
  | nil =>
      refine ⟨fun next visited => ?_, nofun⟩
      cases visited
      refine ⟨?_, (Bool.or_false _).symm, nofun⟩
      rw [List.flatMap_nil, List.append_nil]
      exact read
  | cons event events inductionHypothesis =>
      obtain ⟨continues, stops⟩ := @visitReceived_spec secret text surroundings answer read event
      rw [List.foldlM_cons, ← List.singleton_append]
      cases visited : visitReceived secret surroundings answer event with
      | error interrupted =>
          refine ⟨nofun, fun _ stopped => ?_⟩
          cases stopped
          exact (stops interrupted visited).append events
      | ok next =>
          have first := continues next visited
          obtain ⟨continuesRest, stopsRest⟩ := inductionHypothesis first.read
          exact ⟨fun final visitedRest => first.append (continuesRest final visitedRest),
            fun interrupted stopped => (stopsRest interrupted stopped).behind⟩

/-- The events of all chunks. -/
theorem receiveAnswer_spec {round : Nat} (read : ReadSoFar secret text answer)
    (unfinished : answer.done = false) :
    (∀ next, receiveAnswer secret surroundings round answer chunks = .ok next →
      Continues secret text answer (eventsRead chunks) next) ∧
    ∀ interrupted, receiveAnswer secret surroundings round answer chunks = .error interrupted →
      Stops secret text surroundings (eventsRead chunks) interrupted := by
  induction chunks generalizing round text answer with
  | nil =>
      refine ⟨fun next received => ?_, nofun⟩
      cases received
      refine ⟨?_, (Bool.or_false _).symm, nofun⟩
      rw [eventsRead, List.flatMap_nil, List.append_nil]
      exact read
  | cons events rest inductionHypothesis =>
      obtain ⟨continues, stops⟩ := @visits_spec secret text surroundings answer events read
      rw [receiveAnswer]
      cases interrupt : surroundings.read round with
      | some error =>
          refine ⟨nofun, fun _ stopped => ?_⟩
          cases stopped
          refine ⟨read.sentSafely.append _, fun quiet => ?_⟩
          rw [quiet] at interrupt
          cases interrupt
      | none =>
          dsimp only
          cases visited : events.foldlM (visitReceived secret surroundings) answer with
          | error interrupted =>
              refine ⟨nofun, fun _ stopped => ?_⟩
              cases stopped
              have stopped := stops interrupted visited
              rw [eventsRead]
              split_ifs
              · exact stopped
              · exact stopped.append _
          | ok next =>
              have first := continues next visited
              have done := first.done
              rw [unfinished, Bool.false_or] at done
              rw [ok_bind, eventsRead, ← done]
              split_ifs with ends
              · refine ⟨fun final received => ?_, nofun⟩
                cases received
                exact first
              · obtain ⟨continuesRest, stopsRest⟩ :=
                  @inductionHypothesis _ _ (round + 1) first.read (Bool.eq_false_iff.mpr ends)
                exact ⟨fun final received => first.append (continuesRest final received),
                  fun interrupted stopped => (stopsRest interrupted stopped).behind⟩

/-- What was sent safely is a start of the text which the key does not reach. -/
theorem SentSafely.spec (safely : SentSafely secret text sent) :
    sent <+: text ∧
      ∀ before after, text = before ++ secret ++ after → sent.length ≤ before.length := by
  obtain ⟨waiting, rfl, guarded⟩ := safely
  refine ⟨List.prefix_append _ _, fun before after occurs => ?_⟩
  exact guarded [] before after (by rw [List.append_nil, occurs])

/-- What was held is sent, or the run ends there. -/
theorem flushPending_spec (read : ReadSoFar secret text answer) :
    (∀ next, flushPending surroundings answer = .ok next → next.sent.flatten = text) ∧
      ∀ interrupted, flushPending surroundings answer = .error interrupted →
        interrupted.sent = answer.sent ∧ surroundings ≠ .quiet := by
  rw [flushPending]
  split_ifs with nothing
  · refine ⟨fun next sent => ?_, nofun⟩
    cases sent
    have whole := read.whole
    rwa [nothing, List.append_nil] at whole
  · rw [sendDelta]
    cases interrupt : surroundings.send answer.sent.length with
    | none =>
        refine ⟨fun next sent => ?_, nofun⟩
        cases sent
        simp only [List.flatten_append, List.flatten_singleton]
        exact read.whole
    | some error =>
        refine ⟨nofun, fun interrupted stopped => ?_⟩
        cases stopped
        refine ⟨rfl, fun quiet => ?_⟩
        rw [quiet] at interrupt
        cases interrupt

/-- A run of a chat ends with the whole response, which is answerable, or was safe. -/
theorem runChat_spec (secret : Text) (surroundings : Surroundings)
    (chunks : List (List Received)) :
    (∀ answer, runChat secret surroundings chunks = .ok answer →
      answer.sent.flatten = responseText chunks ∧ Answerable secret chunks) ∧
    ∀ interrupted, runChat secret surroundings chunks = .error interrupted →
      (SentSafely secret (responseText chunks) interrupted.sent.flatten ∨
        interrupted.sent.flatten = responseText chunks ∧ Answerable secret chunks) ∧
      (surroundings = .quiet → ¬ Answerable secret chunks) := by
  obtain ⟨continues, stops⟩ := @receiveAnswer_spec secret [] surroundings _ chunks 0
    (readSoFar_nil secret) rfl
  rw [runChat]
  cases received : receiveAnswer secret surroundings 0 ⟨[], [], false, []⟩ chunks with
  | error interrupted =>
      refine ⟨by rintro _ ⟨⟩, fun _ stopped => ?_⟩
      cases stopped
      obtain ⟨safely, refused⟩ := stops interrupted received
      refine ⟨.inl safely, fun quiet answerable => ?_⟩
      obtain ⟨event, member, invalid⟩ | occurs | long := refused quiet
      · rw [answerable.complete.1 event member] at invalid
        cases invalid
      · exact answerable.absent occurs
      · exact absurd answerable.bounded (Nat.not_le_of_lt long)
  | ok answer =>
      obtain ⟨read, done, valid⟩ := continues answer received
      rw [List.nil_append] at read
      rw [Bool.false_or] at done
      have safely := read.sentSafely
      rw [ok_bind]
      by_cases empty : answer.output = []
      · rw [refuseIf, if_pos empty]
        refine ⟨by rintro _ ⟨⟩, fun _ stopped => ?_⟩
        cases stopped
        refine ⟨.inl safely, fun _ answerable => answerable.nonempty ?_⟩
        rw [← empty, read.output]
        rfl
      by_cases unfinished : answer.done = false
      · rw [refuseIf, if_neg empty, ok_bind, refuseIf, if_pos unfinished]
        refine ⟨by rintro _ ⟨⟩, fun _ stopped => ?_⟩
        cases stopped
        refine ⟨.inl safely, fun _ answerable => ?_⟩
        obtain ⟨event, member, ends⟩ := answerable.complete.2
        rw [done] at unfinished
        exact absurd ends (List.any_eq_false.mp unfinished event member)
      rw [refuseIf, if_neg empty, ok_bind, refuseIf, if_neg unfinished, ok_bind]
      have nonempty : responseText chunks ≠ [] := by
        intro nothing
        rw [read.output] at empty
        exact empty nothing
      have answerable : Answerable secret chunks := {
        complete := by
          rw [Bool.not_eq_false, done, List.any_eq_true] at unfinished
          exact ⟨valid, unfinished⟩
        nonempty, bounded := read.bounded, absent := read.absent nonempty }
      obtain ⟨sends, fails⟩ := @flushPending_spec secret _ surroundings answer read
      cases flushed : flushPending surroundings answer with
      | error interrupted =>
          obtain ⟨same, loud⟩ := fails interrupted flushed
          refine ⟨by rintro _ ⟨⟩, fun _ stopped => ?_⟩
          cases stopped
          rw [same]
          exact ⟨.inl safely, fun quiet => absurd quiet loud⟩
      | ok final =>
          have whole := sends final flushed
          rw [ok_bind]
          cases concludes : surroundings.conclude with
          | none =>
              refine ⟨fun _ returned => ?_, by rintro _ ⟨⟩⟩
              cases returned
              exact ⟨whole, answerable⟩
          | some error =>
              refine ⟨by rintro _ ⟨⟩, fun _ stopped => ?_⟩
              cases stopped
              refine ⟨.inr ⟨whole, answerable⟩, fun quiet => ?_⟩
              rw [quiet] at concludes
              cases concludes

/-- A run of a chat: what was sent is a start of the response which the key does not reach, an
answer is a whole response without the key, and a run which is not interrupted has an answer exactly
when its stream has one. -/
theorem secret_is_never_sent (secret : Text) (surroundings : Surroundings)
    (chunks : List (List Received)) :
    (sentText (runChat secret surroundings chunks) <+: responseText chunks ∧
      ∀ before after, responseText chunks = before ++ secret ++ after →
        (sentText (runChat secret surroundings chunks)).length ≤ before.length) ∧
    (∀ answer, runChat secret surroundings chunks = .ok answer →
      answer.sent.flatten = responseText chunks ∧ Answerable secret chunks) ∧
    ((∃ answer, runChat secret .quiet chunks = .ok answer) ↔ Answerable secret chunks) := by
  obtain ⟨answers, fails⟩ := runChat_spec secret surroundings chunks
  have answered : ∀ sent, sent = responseText chunks → Answerable secret chunks →
      sent <+: responseText chunks ∧ ∀ before after,
        responseText chunks = before ++ secret ++ after → sent.length ≤ before.length := by
    rintro _ rfl answerable
    refine ⟨List.prefix_refl _, fun before after occurs => ?_⟩
    exact absurd ⟨before, after, occurs.symm⟩ answerable.absent
  refine ⟨?_, answers, ?_⟩
  · cases run : runChat secret surroundings chunks with
    | ok answer =>
        obtain ⟨whole, answerable⟩ := answers answer run
        exact answered _ whole answerable
    | error interrupted =>
        obtain ⟨safely | ⟨whole, answerable⟩, _⟩ := fails interrupted run
        · exact safely.spec
        · exact answered _ whole answerable
  · obtain ⟨answersQuiet, failsQuiet⟩ := runChat_spec secret .quiet chunks
    constructor
    · rintro ⟨answer, run⟩
      exact (answersQuiet answer run).2
    · intro answerable
      cases run : runChat secret .quiet chunks with
      | ok answer => exact ⟨answer, rfl⟩
      | error interrupted => exact absurd answerable ((failsQuiet interrupted run).2 rfl)

/-- A stream whose second piece goes on like the key, and then differently. -/
def nearlyEchoed : List (List Received) :=
  [[.ok (.delta ['o', 'k', 'k'] none)], [.ok (.delta ['e', 'l'] none), .ok .done]]

/-- What is held is sent when it is not the key. -/
theorem nearlyEchoed_is_sent : ∃ answer,
    runChat ['k', 'e', 'y'] .quiet nearlyEchoed = .ok answer ∧
      answer.sent = [['o', 'k'], ['k', 'e', 'l']] ∧
      answer.sent.flatten = responseText nearlyEchoed := by
  have returned : (runChat ['k', 'e', 'y'] .quiet nearlyEchoed).toOption.any
      (fun answer => decide (answer.sent = [['o', 'k'], ['k', 'e', 'l']])) = true := by
    decide
  obtain ⟨answer, run, pieces⟩ := any_toOption returned
  have whole := (secret_is_never_sent ['k', 'e', 'y'] .quiet nearlyEchoed).2.1 answer run
  exact ⟨answer, run, of_decide_eq_true pieces, whole.1⟩

/-- A complete stream with an empty response has no answer, although the key is not in it. -/
theorem empty_response_is_refused : ¬ ∀ secret chunks, CompleteStream chunks →
    ((¬ ∃ answer, runChat secret .quiet chunks = .ok answer) ↔ secret <:+: responseText chunks) := by
  intro refuses
  have complete : CompleteStream [[.ok .done]] :=
    ⟨List.forall_mem_singleton.mpr rfl, _, List.mem_singleton_self _, rfl⟩
  have echoes := (refuses ['k'] [[.ok .done]] complete).mp
  have empty : responseText [[.ok .done]] = [] := rfl
  rw [empty, List.infix_nil] at echoes
  have refused : ¬ ∃ answer, runChat ['k'] .quiet [[.ok .done]] = .ok answer := by
    rintro ⟨answer, returned⟩
    cases returned
  cases echoes refused

end Guard

end LawyerAssistance.Providers
