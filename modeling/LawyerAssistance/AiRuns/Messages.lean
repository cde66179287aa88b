import LawyerAssistance.AiRuns.Types
import LawyerAssistance.Std.Dialogue

/-!
# Messages between a run and a model

A message is a JSON object. An assistant message may call tools, and a tool message answers
one call. `repairInterruptedToolResults` answers the calls which an interruption left open.
-/

namespace LawyerAssistance.AiRuns

open Storage

/-! ## Fields of an object -/

/-- `value[name] = field`, for an object. -/
def setField (value : Json) (name : String) (field : Json) : Json :=
  match value with
  | .object fields => .object ((name, field) :: fields.filter fun entry => entry.1 ≠ name)
  | other => other

/-- `Map::remove`. -/
def removeField (value : Json) (name : String) : Json :=
  match value with
  | .object fields => .object (fields.filter fun entry => entry.1 ≠ name)
  | other => other

theorem lookup_filter_ne {fields : List (String × Json)} {name other : String}
    (different : other ≠ name) :
    (fields.filter fun entry => entry.1 ≠ name).lookup other = fields.lookup other := by
  induction fields with
  | nil => rfl
  | cons entry rest inductionHypothesis =>
      obtain ⟨key, field⟩ := entry
      by_cases removed : key = name
      · subst removed
        rw [List.filter_cons_of_neg (by simp), inductionHypothesis, List.lookup_cons]
        rw [beq_eq_false_iff_ne.mpr different]
      · rw [List.filter_cons_of_pos (by simpa using removed), List.lookup_cons, List.lookup_cons,
          inductionHypothesis]

theorem field_setField_other {value : Json} {name other : String} {field : Json}
    (different : other ≠ name) : (setField value name field).field other = value.field other := by
  cases value with
  | object fields =>
      simp only [setField, Json.field, Json.get?]
      rw [List.lookup_cons, beq_eq_false_iff_ne.mpr different, lookup_filter_ne different]
  | _ => rfl

theorem field_setField_self {fields : List (String × Json)} {name : String} {field : Json} :
    (setField (.object fields) name field).field name = field := by
  simp only [setField, Json.field, Json.get?]
  rw [List.lookup_cons, beq_self_eq_true, Option.getD_some]

theorem field_removeField_other {value : Json} {name other : String} (different : other ≠ name) :
    (removeField value name).field other = value.field other := by
  cases value with
  | object fields =>
      simp only [removeField, Json.field, Json.get?]
      rw [lookup_filter_ne different]
  | _ => rfl

/-! ## Calls of tools -/

/-- The identifiers of some tool calls, where they are texts. -/
def callIds (calls : List Json) : List String := calls.filterMap fun call => (call.field "id").asStr

/-- The tool calls of an assistant message which has an array of them. -/
def toolCalls (message : Json) : Option (List String) :=
  if (message.field "role").asStr = some "assistant" then
    (message.field "tool_calls").asArray.map callIds
  else none

/-- The answer of `repair_interrupted_tool_results`. -/
def interruptedResult (id : String) : Json :=
  .object
    [("role", .string "tool"), ("tool_call_id", .string id),
      ("content", .string ("\x7b\"error\":\"interrupted_before_result; " ++
        "retry the read-only tool if still needed\"\x7d"))]

/-- The calls and answers of a tool conversation. -/
def toolDialogue : Dialogue Json String where
  calls := toolCalls
  isAnswer message := (message.field "role").asStr = some "tool"
  answered message := (message.field "tool_call_id").asStr
  lost := interruptedResult

/-- `repair_interrupted_tool_results`: of the last assistant message with an array of tool calls,
the calls which no later message names are answered at the end. -/
def repairInterruptedToolResults (messages : List Json) : List Json := toolDialogue.repair messages

theorem toolDialogue_lawful : toolDialogue.Lawful where
  caller := by
    intro message ids calls
    have assistant : (message.field "role").asStr = some "assistant" := by
      by_contra other
      change toolCalls message = some ids at calls
      rw [toolCalls, if_neg other] at calls
      cases calls
    simp [toolDialogue, assistant]
  lostCalls _ := rfl
  lostIsAnswer _ := rfl
  lostAnswered _ := rfl

/-! ## Messages which a run adds -/

/-- A message of a role which is a text. -/
def textMessage (role content : String) : Json :=
  .object [("role", .string role), ("content", .string content)]

/-- The result of one tool call. -/
def toolResult (call : Json) (content : String) : Json :=
  .object [("role", .string "tool"), ("tool_call_id", call.field "id"),
    ("content", .string content)]

theorem calls_textMessage (role content : String) :
    toolDialogue.calls (textMessage role content) = none := by
  change toolCalls (textMessage role content) = none
  have noCalls : (textMessage role content).field "tool_calls" = .null := rfl
  rw [toolCalls, noCalls]
  split_ifs <;> rfl

theorem isAnswer_textMessage {role content : String} (other : role ≠ "tool") :
    toolDialogue.isAnswer (textMessage role content) = false := by
  have read : (textMessage role content).field "role" = .string role := rfl
  simp [toolDialogue, read, Json.asStr, other]

/-- Text messages of other roles than a tool are a well formed history. -/
theorem wellFormed_textMessages {messages : List (String × String)}
    (roles : ∀ message ∈ messages, message.1 ≠ "tool") :
    toolDialogue.WellFormed (messages.map fun message => textMessage message.1 message.2) := by
  induction messages with
  | nil => rfl
  | cons message rest inductionHypothesis =>
      obtain ⟨first, others⟩ := List.forall_mem_cons.mp roles
      rw [List.map_cons, Dialogue.WellFormed, Dialogue.pendingAfter,
        isAnswer_textMessage first, if_neg Bool.false_ne_true, if_pos rfl, calls_textMessage]
      exact inductionHypothesis others

end LawyerAssistance.AiRuns
