import LawyerAssistance.Providers.Stream
import LawyerAssistance.Std.Chunks

/-!
# Chunks of a stream

What the parser of a stream returns does not depend on where the stream was split, as long as no
push leaves more of an event than its limit, and no chunk ends between the two bytes of a line
ending which ends an event.
-/

namespace LawyerAssistance.Providers

open Chunks

/-! ## Separators -/

section Separators

variable {buffer more : Octets} {index length position : Nat}

/-- A line ending which is followed by more of its buffer stays what it is. -/
theorem lineEndingLen_append (inside : index + 1 < buffer.length) :
    lineEndingLen (buffer ++ more) index = lineEndingLen buffer index := by
  rw [lineEndingLen, lineEndingLen, List.getElem?_append_left inside,
    List.getElem?_append_left (by omega)]

/-- The last byte of a buffer is a line ending, or not, whatever follows. -/
theorem lineEndingLen_append_last (last : index + 1 = buffer.length)
    (whole : ¬ (buffer.getLast? = some 0x0D ∧ more.head? = some 0x0A)) :
    lineEndingLen (buffer ++ more) index = lineEndingLen buffer index := by
  have here : (buffer ++ more)[index]? = buffer[index]? := List.getElem?_append_left (by omega)
  have behind : buffer[index + 1]? = none := List.getElem?_eq_none (by omega)
  have following : (buffer ++ more)[index + 1]? = more.head? := by
    rw [List.getElem?_append_right (by omega), last, Nat.sub_self, List.head?_eq_getElem?]
  have end_ : buffer[index]? = buffer.getLast? := by
    rw [List.getLast?_eq_getElem?, ← last, Nat.add_sub_cancel]
  rw [lineEndingLen, lineEndingLen, here, behind, following, end_]
  by_cases carriage : buffer.getLast? = some 0x0D
  · rw [carriage]
    have apart : more.head? ≠ some 0x0A := fun feed => whole ⟨carriage, feed⟩
    simp [apart]
  · split <;> first | rfl | simp_all

/-- A separator stays where it is when a stream goes on, unless it ends in a carriage return at the
end of its buffer and a line feed follows. -/
theorem findSeparatorFrom_append
    (found : findSeparatorFrom buffer index = some (position, length))
    (whole : position + length = buffer.length →
      ¬ (buffer.getLast? = some 0x0D ∧ more.head? = some 0x0A)) :
    findSeparatorFrom (buffer ++ more) index = some (position, length) := by
  induction remaining : buffer.length - index using Nat.strongRecOn generalizing index with
  | ind size inductionHypothesis =>
      by_cases inside : index < buffer.length
      swap
      · rw [findSeparatorFrom_end inside] at found
        cases found
      have inside' : index < (buffer ++ more).length := by
        rw [List.length_append]
        omega
      cases ending : lineEndingLen buffer index with
      | none =>
          rw [findSeparatorFrom_plain inside ending] at found
          have further := findSeparatorFrom_le found
          have same : lineEndingLen (buffer ++ more) index = none := by
            rw [lineEndingLen_append (by omega), ending]
          rw [findSeparatorFrom_plain inside' same]
          exact inductionHypothesis (buffer.length - (index + 1)) (by omega) found rfl
      | some first =>
          have positive := lineEndingLen_pos ending
          rw [findSeparatorFrom_ending inside ending] at found
          cases ending' : lineEndingLen buffer (index + first) with
          | some second =>
              rw [ending'] at found
              obtain ⟨rfl, rfl⟩ := Prod.mk.inj (Option.some.inj found)
              have bounded := lineEndingLen_le ending'
              have positive' := lineEndingLen_pos ending'
              have same : lineEndingLen (buffer ++ more) index = some first := by
                rw [lineEndingLen_append (by omega), ending]
              have same' : lineEndingLen (buffer ++ more) (index + first) = some second := by
                by_cases last : index + first + 1 = buffer.length
                · rw [lineEndingLen_append_last last (whole (by omega)), ending']
                · rw [lineEndingLen_append (by omega), ending']
              rw [findSeparatorFrom_ending inside' same, same']
          | none =>
              rw [ending'] at found
              have further := findSeparatorFrom_le found
              have same : lineEndingLen (buffer ++ more) index = some first := by
                rw [lineEndingLen_append (by omega), ending]
              have same' : lineEndingLen (buffer ++ more) (index + first) = none := by
                have inside'' : index + first < buffer.length := by omega
                rw [findSeparatorFrom_plain inside'' ending'] at found
                have further' := findSeparatorFrom_le found
                rw [lineEndingLen_append (by omega), ending']
              rw [findSeparatorFrom_ending inside' same, same']
              exact inductionHypothesis (buffer.length - (index + first)) (by omega) found rfl

/-- The cutter of events: what is in front of the first separator. -/
def eventCutter : Cutter UInt8 Octets where
  cut buffer := (findEventSeparator buffer).map fun separator =>
    (buffer.take separator.1, buffer.drop (separator.1 + separator.2))
  shorter := by
    intro buffer piece rest found
    obtain ⟨⟨position, length⟩, separator, same⟩ := Option.map_eq_some_iff.mp found
    cases same
    have bounded := findSeparatorFrom_le separator
    rw [List.length_drop]
    dsimp only
    omega

theorem cut_nil : eventCutter.cut [] = none := by
  change (findSeparatorFrom [] 0).map _ = none
  rw [findSeparatorFrom_end (Nat.not_lt_zero _)]
  rfl

/-- A chunk ends in the carriage return of a separator, and the rest of the stream begins with a
line feed. -/
def SplitsSeparator (buffer more : Octets) : Prop :=
  (eventCutter.drain buffer).2 = [] ∧ buffer.getLast? = some 0x0D ∧ more.head? = some 0x0A

/-- The rest of a stream does not change what is cut off a buffer which does not split a
separator. -/
theorem settles_eventCutter :
    eventCutter.Settles fun buffer more => ¬ SplitsSeparator buffer more := by
  have drained : ∀ {buffer piece rest : Octets}, eventCutter.cut buffer = some (piece, rest) →
      (eventCutter.drain buffer).2 = (eventCutter.drain rest).2 := by
    intro buffer piece rest found
    rw [Cutter.drain_of_some found]
  constructor
  · intro buffer more piece rest whole found
    obtain ⟨⟨position, length⟩, separator, same⟩ := Option.map_eq_some_iff.mp found
    cases same
    have bounded := findSeparatorFrom_le separator
    have kept : findEventSeparator (buffer ++ more) = some (position, length) := by
      refine findSeparatorFrom_append separator fun atEnd => fun ends => whole ⟨?_, ends⟩
      rw [drained found]
      dsimp only
      rw [atEnd, List.drop_length]
      exact congrArg Prod.snd (Cutter.drain_of_none cut_nil)
    have taken : (buffer ++ more).take position = buffer.take position :=
      List.take_append_of_le_length (by omega)
    have dropped : (buffer ++ more).drop (position + length) =
        buffer.drop (position + length) ++ more := List.drop_append_of_le_length bounded.2.1
    change (findEventSeparator (buffer ++ more)).map _ = _
    rw [kept, Option.map_some, taken, dropped]
  · intro buffer more piece rest whole found splits
    obtain ⟨empty, last, first⟩ := splits
    refine whole ⟨(drained found).trans empty, ?_, first⟩
    obtain ⟨⟨position, length⟩, separator, same⟩ := Option.map_eq_some_iff.mp found
    cases same
    dsimp only at last
    rw [List.getLast?_drop] at last
    split_ifs at last
    exact last

end Separators

/-! ## The parser -/

section Parser

variable {fromStr : Text → Except Text Json.Tree} {utf8Error : Octets → Text}
  {buffer eventBytes : Octets} {events : List (Except ProviderError StreamEvent)}
  {progress : Progress} {saw : Bool}

/-- What an event adds does not depend on the events in front of it. -/
theorem visitEvent_append : visitEvent fromStr utf8Error ⟨events, saw⟩ eventBytes =
    ⟨events ++ (visitEvent fromStr utf8Error ⟨[], saw⟩ eventBytes).events,
      (visitEvent fromStr utf8Error ⟨[], saw⟩ eventBytes).sawReasoningContent⟩ := by
  rw [visitEvent, visitEvent]
  split_ifs
  · rw [List.append_nil]
  · rw [appendParsedEvent, appendParsedEvent]
    cases parseEventBytes fromStr utf8Error eventBytes with
    | ok parsed => rfl
    | error error => rfl

/-- What events add does not depend on the events in front of them. -/
theorem foldl_visitEvent_append (pieces : List Octets) (progress : Progress) :
    pieces.foldl (visitEvent fromStr utf8Error) progress =
      ⟨progress.events ++ (pieces.foldl (visitEvent fromStr utf8Error)
          ⟨[], progress.sawReasoningContent⟩).events,
        (pieces.foldl (visitEvent fromStr utf8Error)
          ⟨[], progress.sawReasoningContent⟩).sawReasoningContent⟩ := by
  induction pieces generalizing progress with
  | nil => rw [List.foldl_nil, List.foldl_nil, List.append_nil]
  | cons first rest inductionHypothesis =>
      have added : visitEvent fromStr utf8Error progress first = _ := visitEvent_append
      rw [List.foldl_cons, List.foldl_cons, added, inductionHypothesis,
        inductionHypothesis (visitEvent fromStr utf8Error ⟨[], progress.sawReasoningContent⟩ first),
        List.append_assoc]

/-- The loop of a push visits the pieces which are cut off its buffer. -/
theorem drainEvents_eq : drainEvents fromStr utf8Error progress buffer =
    ((eventCutter.drain buffer).1.foldl (visitEvent fromStr utf8Error) progress,
      (eventCutter.drain buffer).2) := by
  induction length : buffer.length using Nat.strongRecOn generalizing buffer progress with
  | ind size inductionHypothesis =>
      rw [drainEvents]
      split
      · rename_i uncut
        have none : eventCutter.cut buffer = none := congrArg (Option.map _) uncut
        rw [Cutter.drain_of_none none]
        rfl
      · rename_i index separatorLen found
        have cut : eventCutter.cut buffer =
            some (buffer.take index, buffer.drop (index + separatorLen)) :=
          congrArg (Option.map _) found
        have shorter := length ▸ eventCutter.shorter cut
        rw [List.drop_drop, inductionHypothesis _ shorter rfl, Cutter.drain_of_some cut]
        rfl

/-- No push leaves more of an event than the limit. -/
def WithinLimit (buffer : Octets) : List Octets → Prop
  | [] => True
  | chunk :: rest => (eventCutter.drain (buffer ++ chunk)).2.length ≤ maxPendingSseEventBytes ∧
      WithinLimit (eventCutter.drain (buffer ++ chunk)).2 rest

/-- No chunk ends in the carriage return of a separator whose line feed begins the rest. -/
def WholeSeparators (buffer : Octets) (chunks : List Octets) : Prop :=
  eventCutter.SettlesAt (fun buffer more => ¬ SplitsSeparator buffer more) buffer chunks

/-- A push within the limit visits the pieces of its buffer, and keeps what is left. -/
theorem push_eq {parser : StreamParser} {chunk : Octets}
    (uncut : eventCutter.cut parser.buffer = none)
    (within : (eventCutter.drain (parser.buffer ++ chunk)).2.length ≤ maxPendingSseEventBytes) :
    parser.push fromStr utf8Error chunk =
      (⟨(eventCutter.drain (parser.buffer ++ chunk)).2,
          ((eventCutter.drain (parser.buffer ++ chunk)).1.foldl (visitEvent fromStr utf8Error)
            ⟨[], parser.sawReasoningContent⟩).sawReasoningContent⟩,
        ((eventCutter.drain (parser.buffer ++ chunk)).1.foldl (visitEvent fromStr utf8Error)
          ⟨[], parser.sawReasoningContent⟩).events) := by
  rw [StreamParser.push]
  split_ifs with empty
  · rw [empty, List.append_nil, Cutter.drain_of_none uncut]
    rfl
  · rw [drainEvents_eq]
    dsimp only
    rw [if_neg (Nat.not_lt.mpr within)]

/-- Within the limit a parser returns what the pieces of the chunks are, and what is left. -/
theorem receive_eq_feed {parser : StreamParser} {chunks : List Octets}
    (uncut : eventCutter.cut parser.buffer = none) (within : WithinLimit parser.buffer chunks) :
    parser.receive fromStr utf8Error chunks =
      ((eventCutter.feed parser.buffer chunks).1 ++
        [(eventCutter.feed parser.buffer chunks).2]).foldl (visitEvent fromStr utf8Error)
          ⟨[], parser.sawReasoningContent⟩ := by
  induction chunks generalizing parser with
  | nil =>
      rw [StreamParser.receive, StreamParser.finish, Cutter.feed, List.nil_append, List.foldl_cons,
        List.foldl_nil, visitEvent]
      split_ifs <;> rfl
  | cons chunk rest inductionHypothesis =>
      obtain ⟨here, behind⟩ := within
      rw [StreamParser.receive, push_eq uncut here, Cutter.feed]
      dsimp only
      rw [List.append_assoc, List.foldl_append, foldl_visitEvent_append (_ ++ [_]),
        inductionHypothesis Cutter.cut_drain behind]

/-- What is left of a buffer is a part of it. -/
theorem suffix_drain : (eventCutter.drain buffer).2 <:+ buffer := by
  induction length : buffer.length using Nat.strongRecOn generalizing buffer with
  | ind size inductionHypothesis =>
      cases found : eventCutter.cut buffer with
      | none =>
          exact ⟨[], congrArg Prod.snd (Cutter.drain_of_none found)⟩
      | some cut =>
          obtain ⟨piece, rest⟩ := cut
          have behind := inductionHypothesis rest.length (length ▸ eventCutter.shorter found) rfl
          obtain ⟨separator, _, same⟩ := Option.map_eq_some_iff.mp found
          cases same
          rw [Cutter.drain_of_some found]
          exact behind.trans (List.drop_suffix _ _)

/-- A stream which is not longer than the limit of an event stays within it. -/
theorem withinLimit_of_short {chunks : List Octets}
    (short : (buffer ++ chunks.flatten).length ≤ maxPendingSseEventBytes) :
    WithinLimit buffer chunks := by
  induction chunks generalizing buffer with
  | nil => trivial
  | cons chunk rest inductionHypothesis =>
      have left : (eventCutter.drain (buffer ++ chunk)).2.length ≤ (buffer ++ chunk).length :=
        suffix_drain.length_le
      simp only [List.flatten_cons, List.length_append] at short left
      refine ⟨by omega, inductionHypothesis ?_⟩
      rw [List.length_append]
      omega

/-- A stream without carriage returns can be split everywhere. -/
theorem wholeSeparators_of_plain {chunks : List Octets} (plain : 0x0D ∉ buffer ++ chunks.flatten) :
    WholeSeparators buffer chunks := by
  induction chunks generalizing buffer with
  | nil => trivial
  | cons chunk rest inductionHypothesis =>
      rw [List.flatten_cons, ← List.append_assoc, List.mem_append, not_or] at plain
      refine ⟨fun splits => plain.1 (List.mem_of_getLast? splits.2.1), inductionHypothesis ?_⟩
      rw [List.mem_append, not_or]
      exact ⟨fun among => plain.1 (suffix_drain.mem among), plain.2⟩

end Parser

/-- A parser returns the same of a stream, however it was split into chunks: no push leaves more of
an event than the limit, and no chunk ends within the line ending which ends a separator. -/
theorem streams_do_not_depend_on_chunks (fromStr : Text → Except Text Json.Tree)
    (utf8Error : Octets → Text) {first second : List Octets}
    (same : first.flatten = second.flatten)
    (within : WithinLimit [] first) (within' : WithinLimit [] second)
    (whole : WholeSeparators [] first) (whole' : WholeSeparators [] second) :
    StreamParser.new.receive fromStr utf8Error first =
      StreamParser.new.receive fromStr utf8Error second := by
  rw [receive_eq_feed cut_nil within, receive_eq_feed cut_nil within']
  change ((eventCutter.feed [] first).1 ++ [(eventCutter.feed [] first).2]).foldl _ _ =
    ((eventCutter.feed [] second).1 ++ [(eventCutter.feed [] second).2]).foldl _ _
  rw [Cutter.feed_eq_drain settles_eventCutter cut_nil whole,
    Cutter.feed_eq_drain settles_eventCutter cut_nil whole', same]

/-- The end of an answer, in two chunks and in one. -/
theorem streams_do_not_depend_on_chunks_done :
    StreamParser.new.receive (fun _ => .error []) (fun _ => [])
        [utf8 "data: [DO", utf8 "NE]\n\n"] =
      StreamParser.new.receive (fun _ => .error []) (fun _ => []) [utf8 "data: [DONE]\n\n"] := by
  have bytes : utf8 "data: [DONE]\n\n" = [0x64, 0x61, 0x74, 0x61, 0x3A, 0x20, 0x5B, 0x44, 0x4F,
    0x4E, 0x45, 0x5D, 0x0A, 0x0A] := rfl
  have parts : [utf8 "data: [DO", utf8 "NE]\n\n"].flatten = utf8 "data: [DONE]\n\n" := rfl
  have alone : [utf8 "data: [DONE]\n\n"].flatten = utf8 "data: [DONE]\n\n" := rfl
  refine streams_do_not_depend_on_chunks _ _ (parts.trans alone.symm)
    (withinLimit_of_short ?_) (withinLimit_of_short ?_) (wholeSeparators_of_plain ?_)
    (wholeSeparators_of_plain ?_)
  · rw [parts, bytes]
    decide
  · rw [alone, bytes]
    decide
  · rw [parts, bytes]
    decide
  · rw [alone, bytes]
    decide

/-! ## Streams which depend on their chunks -/

section Dependence

variable {front rest : Octets} {index : Nat}

/-- Bytes which are no line endings are no part of a separator. -/
theorem findSeparatorFrom_front (plain : ∀ byte ∈ front, byte ≠ 0x0A ∧ byte ≠ 0x0D)
    (inside : index ≤ front.length) :
    findSeparatorFrom (front ++ rest) index = findSeparatorFrom (front ++ rest) front.length := by
  induction remaining : front.length - index generalizing index with
  | zero =>
      have same : index = front.length := by omega
      rw [same]
  | succ remaining' inductionHypothesis =>
      have bounded : index < front.length := by omega
      have here : lineEndingLen (front ++ rest) index = none := by
        obtain ⟨feed, carriage⟩ := plain front[index] (List.getElem_mem bounded)
        rw [lineEndingLen, List.getElem?_append_left bounded, List.getElem?_eq_getElem bounded]
        split
        · rename_i same
          exact absurd (Option.some.inj same) feed
        · rename_i same
          exact absurd (Option.some.inj same) carriage
        · rfl
      have bounded' : index < (front ++ rest).length := by
        rw [List.length_append]
        omega
      rw [findSeparatorFrom_plain bounded' here]
      exact inductionHypothesis (by omega) (by omega)

theorem lineEndingLen_shift :
    lineEndingLen (front ++ rest) (front.length + index) = lineEndingLen rest index := by
  rw [lineEndingLen, lineEndingLen, List.getElem?_append_right (by omega),
    List.getElem?_append_right (by omega), Nat.add_sub_cancel_left, Nat.add_assoc,
    Nat.add_sub_cancel_left]

/-- A separator is found behind other bytes as it is found without them. -/
theorem findSeparatorFrom_shift (front rest : Octets) (index : Nat) :
    findSeparatorFrom (front ++ rest) (front.length + index) =
      (findSeparatorFrom rest index).map fun separator =>
        (front.length + separator.1, separator.2) := by
  induction remaining : rest.length - index using Nat.strongRecOn generalizing index with
  | ind size inductionHypothesis =>
      by_cases inside : index < rest.length
      · have inside' : front.length + index < (front ++ rest).length := by
          rw [List.length_append]
          omega
        cases ending : lineEndingLen rest index with
        | none =>
            have ending' : lineEndingLen (front ++ rest) (front.length + index) = none :=
              lineEndingLen_shift.trans ending
            rw [findSeparatorFrom_plain inside' ending', findSeparatorFrom_plain inside ending]
            exact inductionHypothesis (rest.length - (index + 1)) (by omega) _ rfl
        | some first =>
            have positive := lineEndingLen_pos ending
            have ending' : lineEndingLen (front ++ rest) (front.length + index) = some first :=
              lineEndingLen_shift.trans ending
            rw [findSeparatorFrom_ending inside' ending', findSeparatorFrom_ending inside ending,
              Nat.add_assoc, lineEndingLen_shift]
            cases lineEndingLen rest (index + first) with
            | some second => rfl
            | none => exact inductionHypothesis (rest.length - (index + first)) (by omega) _ rfl
      · rw [findSeparatorFrom_end inside, findSeparatorFrom_end]
        · rfl
        · rw [List.length_append]
          omega

theorem cut_plain (plain : ∀ byte ∈ front, byte ≠ 0x0A ∧ byte ≠ 0x0D) :
    eventCutter.cut front = none := by
  have none : findSeparatorFrom (front ++ []) 0 = none := by
    rw [findSeparatorFrom_front plain (Nat.zero_le _), findSeparatorFrom_end (by simp)]
  rw [List.append_nil] at none
  exact congrArg (Option.map _) none

/-- Bytes which are no line endings are cut off at two line endings behind them. -/
theorem cut_front {first second : Nat} (plain : ∀ byte ∈ front, byte ≠ 0x0A ∧ byte ≠ 0x0D)
    (present : rest ≠ []) (ending : lineEndingLen rest 0 = some first)
    (ending' : lineEndingLen rest first = some second) :
    findSeparatorFrom (front ++ rest) 0 = some (front.length, first + second) ∧
      eventCutter.cut (front ++ rest) = some (front, rest.drop (first + second)) := by
  have inside : 0 < rest.length := List.length_pos_of_ne_nil present
  have separator : findSeparatorFrom (front ++ rest) 0 = some (front.length, first + second) := by
    rw [findSeparatorFrom_front plain (Nat.zero_le _), ← Nat.add_zero front.length,
      findSeparatorFrom_shift, findSeparatorFrom_ending inside ending, Nat.zero_add, ending']
    rfl
  have cut : eventCutter.cut (front ++ rest) = some
      ((front ++ rest).take front.length, (front ++ rest).drop (front.length + (first + second))) :=
    congrArg (Option.map _) separator
  refine ⟨separator, ?_⟩
  rw [cut, List.take_left', List.drop_append, List.drop_of_length_le (by omega), List.nil_append,
    Nat.add_sub_cancel_left]
  rfl

/-- Bytes which are no line endings are cut off at two line feeds. -/
theorem cut_feeds (plain : ∀ byte ∈ front, byte ≠ 0x0A ∧ byte ≠ 0x0D) :
    findSeparatorFrom (front ++ [0x0A, 0x0A]) 0 = some (front.length, 2) ∧
      eventCutter.cut (front ++ [0x0A, 0x0A]) = some (front, []) := by
  have ending : lineEndingLen [0x0A, 0x0A] 0 = some 1 := rfl
  have ending' : lineEndingLen [0x0A, 0x0A] 1 = some 1 := rfl
  exact cut_front plain (List.cons_ne_nil _ _) ending ending'

end Dependence

/-- A blank event which is longer than the limit: nothing is returned of it when it comes in one
chunk with its separator, and an error when the separator is in the next chunk. -/
theorem receive_ne_of_long {fromStr : Text → Except Text Json.Tree} {utf8Error : Octets → Text}
    {blanks : Octets} (plain : ∀ byte ∈ blanks, byte ≠ 0x0A ∧ byte ≠ 0x0D)
    (blank : blanks.all isAsciiWhitespace = true)
    (long : maxPendingSseEventBytes < blanks.length) :
    StreamParser.new.receive fromStr utf8Error [blanks ++ [0x0A, 0x0A]] ≠
      StreamParser.new.receive fromStr utf8Error [blanks, [0x0A, 0x0A]] := by
  intro same
  have whole : eventCutter.drain (blanks ++ [0x0A, 0x0A]) = ([blanks], []) := by
    rw [Cutter.drain_of_some (cut_feeds plain).2, Cutter.drain_of_none cut_nil]
  have within : WithinLimit StreamParser.new.buffer [blanks ++ [0x0A, 0x0A]] := by
    refine ⟨?_, trivial⟩
    rw [StreamParser.new, List.nil_append, whole]
    exact Nat.zero_le _
  have fed : eventCutter.feed StreamParser.new.buffer [blanks ++ [0x0A, 0x0A]] =
      ([blanks], []) := by
    rw [Cutter.feed, StreamParser.new, List.nil_append, whole]
    rfl
  have quiet : (StreamParser.new.receive fromStr utf8Error [blanks ++ [0x0A, 0x0A]]).events = [] := by
    rw [receive_eq_feed cut_nil within, fed, List.singleton_append, List.foldl_cons,
      List.foldl_cons, List.foldl_nil, visitEvent, if_pos (List.all_nil), visitEvent, if_pos blank]
  have left : drainEvents fromStr utf8Error ⟨[], false⟩ blanks = (⟨[], false⟩, blanks) := by
    rw [drainEvents_eq, Cutter.drain_of_none (cut_plain plain)]
    rfl
  have present : blanks ≠ [] := by
    rintro rfl
    exact absurd long (Nat.not_lt_zero _)
  have refused : (StreamParser.new.push fromStr utf8Error blanks).2 ≠ [] := by
    rw [StreamParser.push, if_neg present, StreamParser.new, List.nil_append, left, if_pos long]
    exact List.cons_ne_nil _ _
  rw [same, StreamParser.receive] at quiet
  exact refused (List.append_eq_nil_iff.mp quiet).1

/-- The same stream, longer than an event may be, in one chunk and in two. -/
theorem long_events_depend_on_chunks :
    ¬ ∀ (fromStr : Text → Except Text Json.Tree) (utf8Error : Octets → Text)
      (first second : List Octets), first.flatten = second.flatten →
        StreamParser.new.receive fromStr utf8Error first =
          StreamParser.new.receive fromStr utf8Error second := by
  intro always
  have among : ∀ byte ∈ List.replicate (maxPendingSseEventBytes + 1) (0x20 : UInt8), byte = 0x20 :=
    fun _ => List.eq_of_mem_replicate
  have long : (List.replicate (maxPendingSseEventBytes + 1) (0x20 : UInt8)).length =
      maxPendingSseEventBytes + 1 := List.length_replicate
  revert among long
  generalize List.replicate (maxPendingSseEventBytes + 1) (0x20 : UInt8) = blanks
  intro among long
  have plain : ∀ byte ∈ blanks, byte ≠ 0x0A ∧ byte ≠ 0x0D := by
    intro byte inside
    rw [among byte inside]
    decide
  have blank : blanks.all isAsciiWhitespace = true := by
    rw [List.all_eq_true]
    intro byte inside
    rw [among byte inside]
    decide
  refine receive_ne_of_long plain blank (by omega) (always (fun _ => .error []) (fun _ => [])
    [blanks ++ [0x0A, 0x0A]] [blanks, [0x0A, 0x0A]] ?_)
  rw [List.flatten_cons, List.flatten_cons, List.flatten_cons, List.flatten_nil, List.append_nil,
    List.append_nil]

/-- The end of an answer behind a byte order mark. -/
def markedEvent : Octets :=
  [0xEF, 0xBB, 0xBF, 0x64, 0x61, 0x74, 0x61, 0x3A, 0x20, 0x5B, 0x44, 0x4F, 0x4E, 0x45, 0x5D]

/-- The line feed of a separator stays in front of the next event when its carriage return ended a
chunk. A byte order mark behind it is then no longer the first character, and the event is lost. -/
theorem split_line_ending_hides_event {fromStr : Text → Except Text Json.Tree}
    {utf8Error : Octets → Text} :
    (StreamParser.new.receive fromStr utf8Error
        [[0x61, 0x0A, 0x0D, 0x0A] ++ (markedEvent ++ [0x0A, 0x0A])]).events = [.ok .done] ∧
      (StreamParser.new.receive fromStr utf8Error
        [[0x61, 0x0A, 0x0D], 0x0A :: (markedEvent ++ [0x0A, 0x0A])]).events = [] := by
  have marked : utf8 "\ufeffdata: [DONE]" = markedEvent := rfl
  have fed : utf8 "\n\ufeffdata: [DONE]" = 0x0A :: markedEvent := rfl
  have letter : utf8 "a" = [0x61] := rfl
  have parsedMarked : parseEventBytes fromStr utf8Error markedEvent = .ok (.visible [.done]) := by
    rw [← marked, parseEventBytes, fromUTF8?_utf8]
    rfl
  have parsedFed : parseEventBytes fromStr utf8Error (0x0A :: markedEvent) = .ok (.visible []) := by
    rw [← fed, parseEventBytes, fromUTF8?_utf8]
    rfl
  have parsedLetter : parseEventBytes fromStr utf8Error [0x61] = .ok (.visible []) := by
    rw [← letter, parseEventBytes, fromUTF8?_utf8]
    rfl
  have uncut {text : Octets} (each : text.all (fun byte => byte != 0x0A && byte != 0x0D) = true) :
      ∀ byte ∈ text, byte ≠ 0x0A ∧ byte ≠ 0x0D := fun byte among => by
    simpa using List.all_eq_true.mp each byte among
  have plain : ∀ byte ∈ markedEvent, byte ≠ 0x0A ∧ byte ≠ 0x0D := uncut rfl
  obtain ⟨separator, cutMarked⟩ := cut_feeds plain
  have plainLetter : ∀ byte ∈ ([0x61] : Octets), byte ≠ 0x0A ∧ byte ≠ 0x0D := uncut rfl
  have cutLetter : eventCutter.cut ([0x61, 0x0A, 0x0D, 0x0A] ++ (markedEvent ++ [0x0A, 0x0A])) =
      some ([0x61], markedEvent ++ [0x0A, 0x0A]) :=
    (cut_front plainLetter
      (List.cons_ne_nil 0x0A (0x0D :: 0x0A :: (markedEvent ++ [0x0A, 0x0A]))) rfl rfl).2
  have cutSplit : eventCutter.cut [0x61, 0x0A, 0x0D] = some ([0x61], []) :=
    (cut_front plainLetter (List.cons_ne_nil 0x0A [0x0D]) rfl rfl).2
  have separatorFed : findSeparatorFrom ([0x0A] ++ (markedEvent ++ [0x0A, 0x0A])) 0 =
      some (16, 2) := by
    have ending : lineEndingLen ([0x0A] ++ (markedEvent ++ [0x0A, 0x0A])) 0 = some 1 := rfl
    have ending' : lineEndingLen ([0x0A] ++ (markedEvent ++ [0x0A, 0x0A])) 1 = none := rfl
    have behind : findSeparatorFrom ([0x0A] ++ (markedEvent ++ [0x0A, 0x0A])) 1 = some (16, 2) := by
      have shifted : findSeparatorFrom ([0x0A] ++ (markedEvent ++ [0x0A, 0x0A])) 1 =
          (findSeparatorFrom (markedEvent ++ [0x0A, 0x0A]) 0).map fun separator =>
            (1 + separator.1, separator.2) :=
        findSeparatorFrom_shift [0x0A] (markedEvent ++ [0x0A, 0x0A]) 0
      rw [separator] at shifted
      exact shifted
    rw [findSeparatorFrom_ending (by decide) ending, Nat.zero_add, ending']
    exact behind
  have cutFed : eventCutter.cut (0x0A :: (markedEvent ++ [0x0A, 0x0A])) =
      some (0x0A :: markedEvent, []) := congrArg (Option.map _) separatorFed
  have drainNil := Cutter.drain_of_none cut_nil
  have visitNil (progress : Progress) : visitEvent fromStr utf8Error progress [] = progress := rfl
  have visitLetter (progress : Progress) :
      visitEvent fromStr utf8Error progress [0x61] = progress := by
    rw [visitEvent, if_neg (by decide), appendParsedEvent, parsedLetter]
    simp [ParsedSseEvent.visible]
  have visitMarked : visitEvent fromStr utf8Error ⟨[], false⟩ markedEvent =
      ⟨[.ok .done], false⟩ := by
    rw [visitEvent, if_neg (by decide), appendParsedEvent, parsedMarked]
    rfl
  have visitFed (progress : Progress) :
      visitEvent fromStr utf8Error progress (0x0A :: markedEvent) = progress := by
    rw [visitEvent, if_neg (by decide), appendParsedEvent, parsedFed]
    simp [ParsedSseEvent.visible]
  constructor
  · rw [receive_eq_feed cut_nil (withinLimit_of_short (by decide)), Cutter.feed, Cutter.feed,
      StreamParser.new, List.nil_append, Cutter.drain_of_some cutLetter,
      Cutter.drain_of_some cutMarked, drainNil]
    simp only [List.append_nil, List.cons_append, List.nil_append, List.foldl_cons, List.foldl_nil,
      visitLetter, visitMarked, visitNil]
  · rw [receive_eq_feed cut_nil (withinLimit_of_short (by decide)), Cutter.feed, Cutter.feed,
      Cutter.feed, StreamParser.new, List.nil_append, Cutter.drain_of_some cutSplit, drainNil,
      List.nil_append, Cutter.drain_of_some cutFed, drainNil]
    simp only [List.append_nil, List.cons_append, List.nil_append, List.foldl_cons, List.foldl_nil,
      visitLetter, visitFed, visitNil]

end LawyerAssistance.Providers
