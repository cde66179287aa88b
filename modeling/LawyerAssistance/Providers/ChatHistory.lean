import LawyerAssistance.Providers.Stream
import LawyerAssistance.Std.Budget

/-!
# The history of a chat

The messages which `run_chat` of `provider.rs` sends to a model: the prompt of the system, the
history of the conversation and the message of the user. Of the last messages of a conversation the
loop keeps as many as fit the limit of bytes, from the oldest one on.
-/

namespace LawyerAssistance.Providers

/-- `Message`. -/
structure Message where
  role : Text
  content : Text
  deriving DecidableEq

/-- `ChatMessageRole`, as `run_chat` uses it. -/
inductive ChatMessageRole where
  | system
  | user
  | assistant
  deriving DecidableEq

/-- `ChatMessage`. -/
structure ChatMessage where
  role : ChatMessageRole
  content : Text
  deriving DecidableEq

/-- A message of a conversation, as it is sent. -/
def chatMessage (message : Message) : ChatMessage where
  role := if message.role = "assistant".toList then .assistant else .user
  content := message.content

/-- The most messages of a history. -/
def maxHistoryMessages : Nat := 20

/-- The most bytes of a history. -/
def maxHistoryBytes : Nat := 128 * 1024

/-- The bytes of a message. -/
def messageBytes (message : Message) : Nat := Text.byteLength message.content

/-- The last messages of a conversation, the oldest first. -/
def recentMessages (messages : List Message) : List Message :=
  (messages.reverse.take maxHistoryMessages).reverse

/-- The loop over the last messages: it stops where their bytes exceed the limit. -/
def pushHistory (historyBytes : Nat) : List Message → List ChatMessage
  | [] => []
  | message :: rest =>
      let historyBytes := historyBytes + messageBytes message
      if maxHistoryBytes < historyBytes then []
      else chatMessage message :: pushHistory historyBytes rest

/-- The history which is sent for a conversation. -/
def chatHistory (messages : List Message) : List ChatMessage :=
  pushHistory 0 (recentMessages messages)

/-- The messages which are sent. -/
def chatMessages (systemPrompt : Text) (messages : List Message) (message context : Text) :
    List ChatMessage :=
  ⟨.system, systemPrompt⟩ :: (chatHistory messages ++ [⟨.user, message ++ context⟩])

/-! ## The newest messages -/

/-- Messages which a history may have. -/
def FitsHistory (messages : List Message) : Prop :=
  messages.length ≤ maxHistoryMessages ∧ Budget.total messageBytes messages ≤ maxHistoryBytes

/-- The longest end of a conversation which a history may have. -/
structure NewestWindow (messages window : List Message) : Prop where
  ends : window <:+ messages
  fits : FitsHistory window
  longest : ∀ {other}, other <:+ messages → FitsHistory other → other <:+ window

/-- The history of a conversation is its longest end which a history may have. -/
def KeepsNewest (messages : List Message) : Prop :=
  ∃ window, NewestWindow messages window ∧ chatHistory messages = window.map chatMessage

/-- The messages at the start of a list are those at its end, and one more of them does not fit on
either side. -/
def EndRepeatsStart (messages : List Message) (count : Nat) : Prop :=
  count < messages.length ∧
    (messages.take count).map chatMessage =
      (messages.drop (messages.length - count)).map chatMessage ∧
    Budget.total messageBytes (messages.take count) ≤ maxHistoryBytes ∧
    maxHistoryBytes < Budget.total messageBytes (messages.take (count + 1)) ∧
    maxHistoryBytes < Budget.total messageBytes (messages.drop (messages.length - (count + 1)))

section Window

variable {messages window : List Message}

theorem pushHistory_eq (historyBytes : Nat) (within : historyBytes ≤ maxHistoryBytes) :
    pushHistory historyBytes messages =
      (Budget.takeWithin messageBytes (maxHistoryBytes - historyBytes) messages).map chatMessage := by
  induction messages generalizing historyBytes with
  | nil => rfl
  | cons message rest inductionHypothesis =>
      rw [pushHistory, Budget.takeWithin]
      by_cases fits : historyBytes + messageBytes message ≤ maxHistoryBytes
      · rw [if_neg (Nat.not_lt.mpr fits), if_pos (by omega), List.map_cons,
          inductionHypothesis _ fits, Nat.sub_sub]
      · rw [if_pos (Nat.lt_of_not_le fits), if_neg (by omega), List.map_nil]

/-- The history is the start of the last messages which fits the limit. -/
theorem chatHistory_eq (messages : List Message) : chatHistory messages =
    (Budget.takeWithin messageBytes maxHistoryBytes (recentMessages messages)).map chatMessage :=
  pushHistory_eq 0 (Nat.zero_le _)

theorem recentMessages_suffix (messages : List Message) : recentMessages messages <:+ messages := by
  rw [← List.reverse_prefix, recentMessages, List.reverse_reverse]
  exact List.take_prefix _ _

theorem length_recentMessages_le (messages : List Message) :
    (recentMessages messages).length ≤ maxHistoryMessages := by
  rw [recentMessages, List.length_reverse, List.length_take]
  exact Nat.min_le_left _ _

theorem suffix_recentMessages (ends : window <:+ messages)
    (few : window.length ≤ maxHistoryMessages) : window <:+ recentMessages messages := by
  rw [← List.reverse_prefix, recentMessages, List.reverse_reverse]
  refine List.prefix_take_iff.mpr ⟨List.reverse_prefix.mpr ends, ?_⟩
  rwa [List.length_reverse]

/-- The longest end of a conversation is that of its last messages. -/
theorem newestWindow_iff : NewestWindow messages window ↔
    window = Budget.endWithin messageBytes maxHistoryBytes (recentMessages messages) := by
  obtain ⟨ends, fits, longest⟩ :=
    @Budget.endWithin_spec _ messageBytes maxHistoryBytes (recentMessages messages)
  have newest : NewestWindow messages
      (Budget.endWithin messageBytes maxHistoryBytes (recentMessages messages)) := {
    ends := ends.trans (recentMessages_suffix messages)
    fits := ⟨ends.length_le.trans (length_recentMessages_le messages), fits⟩
    longest := fun {other} others small =>
      longest (suffix_recentMessages others small.1) small.2 }
  constructor
  · intro other
    exact (newest.longest other.ends other.fits).eq_of_length_le
      (other.longest newest.ends newest.fits).length_le
  · rintro rfl
    exact newest

theorem total_messageBytes_of_map {first second : List Message}
    (same : first.map chatMessage = second.map chatMessage) :
    Budget.total messageBytes first = Budget.total messageBytes second := by
  have bytes : messageBytes = (fun message => Text.byteLength message.content) ∘ chatMessage := rfl
  rw [Budget.total, Budget.total, bytes, ← List.map_map, ← List.map_map, same]

/-- The history keeps the newest messages exactly when the last ones fit the limit, or those at
their start repeat at their end. -/
theorem history_keeps_newest_iff (messages : List Message) : KeepsNewest messages ↔
    Budget.total messageBytes (recentMessages messages) ≤ maxHistoryBytes ∨
      ∃ count, EndRepeatsStart (recentMessages messages) count := by
  generalize recent : recentMessages messages = last
  have history := chatHistory_eq messages
  have newest := @newestWindow_iff messages
  rw [recent] at history newest
  obtain ⟨ends, _, longest⟩ := @Budget.endWithin_spec _ messageBytes maxHistoryBytes last
  constructor
  · rintro ⟨window, isNewest, same⟩
    rw [newest.mp isNewest, history] at same
    have starts := @Budget.takeWithin_starts _ messageBytes maxHistoryBytes last
    have lengths := congrArg List.length same
    rw [List.length_map, List.length_map] at lengths
    obtain whole | fewer := starts.length_le.eq_or_lt
    · exact .inl (Budget.takeWithin_eq_self_iff.mp (starts.eq_of_length whole))
    · have taken := List.prefix_iff_eq_take.mp starts
      have kept := List.suffix_iff_eq_drop.mp ends
      rw [← lengths] at kept
      obtain ⟨small, more⟩ := (Budget.takeWithin_eq_take_iff fewer).mp taken
      obtain ⟨_, moreEnd⟩ := (Budget.endWithin_eq_drop_iff fewer).mp kept
      refine .inr ⟨_, fewer, ?_, small, more, moreEnd⟩
      rw [← taken, ← kept]
      exact same
  · rintro (fits | ⟨count, fewer, same, small, more, moreEnd⟩)
    · have kept := (longest (List.suffix_refl last) fits).eq_of_length_le ends.length_le
      refine ⟨last, newest.mpr kept, ?_⟩
      rw [history, Budget.takeWithin_eq_self_iff.mpr fits]
    · have smallEnd := small
      rw [total_messageBytes_of_map same] at smallEnd
      have kept := (Budget.endWithin_eq_drop_iff fewer).mpr ⟨smallEnd, moreEnd⟩
      have taken := (Budget.takeWithin_eq_take_iff fewer).mpr ⟨small, more⟩
      refine ⟨_, newest.mpr rfl, ?_⟩
      rw [history, taken, kept]
      exact same

/-- A long question. -/
def longQuestion : Message := ⟨"user".toList, List.replicate (100 * 1024) 'q'⟩

/-- Its long answer. -/
def longAnswer : Message := ⟨"assistant".toList, List.replicate (100 * 1024) 'a'⟩

/-- Of a question and an answer which do not fit together the question is sent, and the newer answer
is left out. -/
theorem newest_answer_is_left_out :
    chatHistory [longQuestion, longAnswer] = [chatMessage longQuestion] ∧
      ¬ KeepsNewest [longQuestion, longAnswer] := by
  have questionBytes : messageBytes longQuestion = 100 * 1024 := Text.byteLength_replicate _ _
  have answerBytes : messageBytes longAnswer = 100 * 1024 := Text.byteLength_replicate _ _
  have history : chatHistory [longQuestion, longAnswer] = [chatMessage longQuestion] := by
    have recent : recentMessages [longQuestion, longAnswer] = [longQuestion, longAnswer] := rfl
    rw [chatHistory, recent, pushHistory, pushHistory, questionBytes, answerBytes]
    rfl
  refine ⟨history, ?_⟩
  rintro ⟨window, newest, same⟩
  have fits : FitsHistory [longAnswer] := by
    refine ⟨by decide, ?_⟩
    rw [Budget.total_cons, answerBytes]
    decide
  have kept := newest.longest ⟨[longQuestion], rfl⟩ fits
  rw [history] at same
  have lengths := congrArg List.length same
  rw [List.length_map] at lengths
  rw [← kept.eq_of_length lengths] at same
  have roles := congrArg ChatMessage.role (List.head_eq_of_cons_eq same)
  exact absurd roles (by decide)

end Window

end LawyerAssistance.Providers
