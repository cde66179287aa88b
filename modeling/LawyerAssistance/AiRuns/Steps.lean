import LawyerAssistance.AiRuns.Lawful

/-!
# Every step of a worker makes moves

`Worker.step_lawful` goes through the phases of a worker: what a step saves updates the active
row of the run, or adds the answer of the run to its conversation. The copy of the run in the
worker keeps its origin.
-/

namespace LawyerAssistance.AiRuns

open Storage

variable {services : Services} {now : Nat} {rules : Rules} {store : Store} {run : AiRun}

/-! ## Behind the gate -/

/-- A run which may go on is stored and active. -/
theorem ensureRunActiveLocked_eq_ok {result : Unit}
    (done : ensureRunActiveLocked services store run = .ok result) :
    ∃ persisted, store.runs.get run.id = some persisted ∧ persisted.isActive = true := by
  obtain ⟨persisted, opened, done⟩ := bind_eq_ok.mp done
  obtain ⟨admitted, done⟩ := refuseIf_bind_eq_ok.mp done
  refine ⟨persisted, openRun_found opened, ?_⟩
  by_contra inactive
  exact admitted (.inr (by simpa using inactive))

theorem Store.Sound.origin_of_known (sound : store.Sound) (known : store.Known run)
    {persisted : AiRun} (found : store.runs.get run.id = some persisted) :
    persisted.origin = run.origin := by
  obtain ⟨row, member, same⟩ := known
  obtain ⟨keyed, stored⟩ := sound.keyed found
  have ids : row.id = run.id := congrArg Origin.id same
  exact (sound.origins stored member (keyed.trans ids.symm)).trans same

/-- Progress of a known run updates its active row. -/
theorem saveRunProgress_lawful {stage : String} {post : AiRun → Store → Prop} (sound : store.Sound)
    (known : store.Known run) (legal : rules.legal run.messages)
    (ensures : ∀ final, post { run with stage, updatedAt := now } final) :
    (saveRunProgress services now run stage).Holds Store.apply (Lawful rules) post store := by
  simp only [saveRunProgress, Program.holds_bind, Program.holds_lift, Program.holds_current]
  intro _ _ _ ensured
  obtain ⟨persisted, found, active⟩ := ensureRunActiveLocked_eq_ok ensured
  exact save_lawful (.updateRun found active (sound.origin_of_known known found) (.inr legal))
    (ensures _)

theorem validateRunBindings_holds {guarantee : Store → Batch → Prop} {post : Unit → Store → Prop}
    (ensures : post () store) :
    (validateRunBindings services run).Holds Store.apply guarantee post store := by
  simp only [validateRunBindings, Program.holds_bind, Program.holds_lift, Program.holds_current]
  exact fun _ _ _ _ _ _ => ensures

/-- An error of a run which is still active updates its row. -/
theorem finishAiRunErrorIfActive_lawful {id error : String} {post : Unit → Store → Prop}
    (sound : store.Sound) (ensures : ∀ final, post () final) :
    (finishAiRunErrorIfActive services now id error).Holds Store.apply (Lawful rules) post store := by
  simp only [finishAiRunErrorIfActive, Program.holds_bind, Program.holds_lift,
    Program.holds_current]
  intro _ _ run opened
  by_cases active : run.isActive = true
  · rw [if_pos active]
    simp only [Program.holds_bind, Program.holds_lift]
    intro revision _
    exact update_lawful sound (openRun_found opened) active rfl rfl (ensures _)
  · rw [if_neg active]
    exact ensures _

/-! ## Reading the context -/

/-- The history is read, and nothing is written. -/
theorem selectHistory_holds {remainingTokens : Nat} {guarantee : Store → Batch → Prop}
    {post : List String × List (String × String) → Store → Prop}
    (ensures : ∀ selected, post selected store) :
    (selectHistory services run remainingTokens).Holds Store.apply guarantee post store := by
  unfold selectHistory
  split
  · exact ensures _
  · simp only [Program.holds_bind, Program.holds_lift, Program.holds_current, Program.holds_send]
    exact fun _ _ _ _ => ensures _

/-- The first messages are added, and nothing is written. -/
theorem initialAiMessages_holds {guarantee : Store → Batch → Prop} {post : AiRun → Store → Prop}
    (ensures : ∀ read : AiRun, read.origin = run.origin → post read store) :
    (initialAiMessages services run).Holds Store.apply guarantee post store := by
  simp only [initialAiMessages, Program.holds_bind, Program.holds_lift]
  intro _ _ _ _
  refine selectHistory_holds ?_
  rintro ⟨turns, history⟩
  simp only [Program.holds_bind, Program.holds_lift]
  exact fun _ _ => ensures _ rfl

/-! ## The end of a chat -/

/-- The answer of a known run is added to its conversation. -/
theorem recordAnswer_lawful {post : Bool → Store → Prop} (sound : store.Sound)
    (known : store.Known run) (ensures : ∀ needs final, post needs final) :
    (recordAnswer services now run).Holds Store.apply (Lawful rules) post store := by
  simp only [recordAnswer, Program.holds_bind, Program.holds_lift, Program.holds_current]
  intro conversationId asks _ _ conversation opened
  obtain ⟨row, member, same⟩ := known
  have stored := openConversation_found opened
  have keyed : conversation.id = conversationId := (sound.named stored).1
  rw [← keyed] at stored
  refine save_lawful (.keepContext stored ⟨rfl, rfl, rfl, rfl⟩ ?_) ?_
  rotate_left
  · rw [Program.holds_pure]
    exact ensures _ _
  split_ifs
  · exact .inl rfl
  · refine .inr ⟨_, rfl, .answer rfl member ?_ ?_ ?_⟩
    · have requests : row.request = run.request := congrArg Origin.request same
      rw [requests, presentOr_eq_ok.mp asks, keyed]
    · exact congrArg (fun origin => some origin.id) same.symm
    · exact congrArg Origin.contextManifest same.symm

/-- A title renames the conversation. -/
theorem recordTitle_lawful {post : Unit → Store → Prop} (sound : store.Sound)
    (ensures : ∀ final, post () final) :
    (recordTitle services run).Holds Store.apply (Lawful rules) post store := by
  unfold recordTitle
  split
  · exact ensures _
  · split
    · exact ensures _
    · generalize trimmedTitle _ = title
      dsimp only
      split_ifs
      · exact ensures _
      · simp only [Program.holds_bind, Program.holds_lift, Program.holds_current]
        intro conversationId _ _ _ conversation opened
        have stored := openConversation_found opened
        have keyed : conversation.id = conversationId := (sound.named stored).1
        rw [← keyed] at stored
        split_ifs
        · exact save_lawful (.keepContext stored ⟨rfl, rfl, rfl, rfl⟩ (.inl rfl)) (ensures _)
        · exact ensures _

/-! ## One step -/

/-- The messages which the next step of a worker may save. -/
def Worker.MaySave (worker : Worker) (messages : List Json) : Prop :=
  match worker.phase with
  | .starting | .prepared | .announcing _ | .completing | .pausing => messages = worker.run.messages
  | .tool _ call _ => ∃ content, messages = worker.run.messages ++ [toolResult call content]
  | _ => False

/-- A step of a worker makes moves, and keeps the origin of its run. -/
theorem Worker.step_lawful {worker : Worker} (sound : store.Sound) (known : store.Known worker.run)
    (legal : ∀ messages, worker.MaySave messages → rules.legal messages) :
    (worker.step services now).Holds Store.apply (Lawful rules)
      (fun next _ => next.run.origin = worker.run.origin) store := by
  cases phase : worker.phase with
  | queued =>
      simp only [Worker.step, phase, Program.holds_bind, Program.holds_lift]
      exact fun _ _ => rfl
  | starting =>
      have saved := legal worker.run.messages (by simp [Worker.MaySave, phase])
      simp only [Worker.step, phase, Program.holds_bind]
      refine saveRunProgress_lawful sound known saved fun _ => ?_
      split_ifs <;> rfl
  | reading =>
      simp only [Worker.step, phase, Program.holds_bind]
      exact initialAiMessages_holds fun _ same => same
  | prepared =>
      have saved := legal worker.run.messages (by simp [Worker.MaySave, phase])
      simp only [Worker.step, phase, Program.holds_bind]
      exact saveRunProgress_lawful sound known saved fun _ => rfl
  | validating round =>
      simp only [Worker.step, phase, Program.holds_bind]
      exact validateRunBindings_holds rfl
  | announcing round =>
      have saved := legal worker.run.messages (by simp [Worker.MaySave, phase])
      simp only [Worker.step, phase, Program.holds_bind]
      exact saveRunProgress_lawful sound known saved fun _ => rfl
  | dispatching round =>
      simp only [Worker.step, phase, Program.holds_bind, Program.holds_lift, Program.holds_send]
      exact fun _ _ _ _ => rfl
  | waiting round =>
      simp only [Worker.step, phase, Program.holds_bind, Program.holds_lift]
      intro completion _ message _
      unfold Worker.answered
      dsimp only
      split
      · split_ifs <;> rfl
      · rfl
  | calling round calls =>
      cases calls with
      | nil =>
          simp only [Worker.step, phase]
          rfl
      | cons call rest =>
          simp only [Worker.step, phase, Program.holds_bind, Program.holds_refuse]
          exact fun _ => validateRunBindings_holds rfl
  | tool round call rest =>
      simp only [Worker.step, phase, Worker.callTool, Program.holds_bind]
      have saved := fun content => legal (worker.run.messages ++ [toolResult call content])
        (by simp [Worker.MaySave, phase])
      exact saveRunProgress_lawful sound known (saved _) fun _ => rfl
  | finalizing round text =>
      simp only [Worker.step, phase, Worker.finalize]
      split
      · rfl
      · split_ifs
        · rfl
        · trivial
  | checking =>
      simp only [Worker.step, phase, Program.holds_bind, Program.holds_refuse]
      exact validateRunBindings_holds fun _ => rfl
  | completing =>
      have saved := legal worker.run.messages (by simp [Worker.MaySave, phase])
      simp only [Worker.step, phase, Program.holds_bind]
      exact saveRunProgress_lawful sound known saved fun _ => rfl
  | recording =>
      simp only [Worker.step, phase, Program.holds_bind]
      exact recordAnswer_lawful sound known fun _ _ => rfl
  | titling =>
      simp only [Worker.step, phase]
      split
      · rfl
      · rfl
  | titled =>
      simp only [Worker.step, phase, Program.holds_bind]
      exact recordTitle_lawful sound fun _ => rfl
  | pausing =>
      have saved := legal worker.run.messages (by simp [Worker.MaySave, phase])
      simp only [Worker.step, phase, Program.holds_bind]
      exact saveRunProgress_lawful sound known saved fun _ => rfl
  | failing error =>
      simp only [Worker.step, phase, Program.holds_bind]
      exact finishAiRunErrorIfActive_lawful sound fun _ => rfl
  | ended =>
      simp only [Worker.step, phase]
      rfl

/-! ## What a step sends -/

section Sending

variable {sends : Signal → Prop} (services) (now)

theorem sends_saveRunProgress (run : AiRun) (stage : String) :
    (saveRunProgress services now run stage).Sends sends :=
  (Program.sends_lift _).bind fun _ => Program.sends_current.bind fun _ =>
    (Program.sends_lift _).bind fun _ => (sends_save _).bind fun _ => Program.sends_pure _

theorem sends_validateRunBindings (run : AiRun) : (validateRunBindings services run).Sends sends :=
  (Program.sends_lift _).bind fun _ => Program.sends_current.bind fun _ =>
    (Program.sends_lift _).bind fun _ => Program.sends_lift _

theorem sends_finishAiRunErrorIfActive (id error : String) :
    (finishAiRunErrorIfActive services now id error).Sends sends := by
  refine (Program.sends_lift _).bind fun _ => Program.sends_current.bind fun _ =>
    (Program.sends_lift _).bind fun run => ?_
  by_cases active : run.isActive = true
  · rw [if_pos active]
    exact (Program.sends_lift _).bind fun _ => sends_save _
  · rw [if_neg active]
    exact Program.sends_pure _

theorem sends_recordAnswer (run : AiRun) : (recordAnswer services now run).Sends sends :=
  (Program.sends_lift _).bind fun _ => (Program.sends_lift _).bind fun _ =>
    Program.sends_current.bind fun _ => (Program.sends_lift _).bind fun _ =>
    (sends_save _).bind fun _ => Program.sends_pure _

theorem sends_recordTitle (run : AiRun) : (recordTitle services run).Sends sends := by
  unfold recordTitle
  split
  · exact Program.sends_pure _
  · split
    · exact Program.sends_pure _
    · generalize trimmedTitle _ = title
      dsimp only
      split_ifs
      · exact Program.sends_pure _
      · refine (Program.sends_lift _).bind fun _ => (Program.sends_lift _).bind fun _ =>
          Program.sends_current.bind fun _ => (Program.sends_lift _).bind fun conversation => ?_
        split_ifs
        · exact sends_save _
        · exact Program.sends_pure _

/-- What a worker sends in its phases. -/
inductive Worker.MaySend (worker : Worker) : Signal → Prop where
  | messages {round : Nat} (phase : worker.phase = .dispatching round) :
      worker.MaySend (.dispatch worker.run.id worker.run.messages)
  | title (phase : worker.phase = .titling) :
      worker.MaySend (.dispatch worker.run.id
        ((titleMessages worker.run).map fun message => textMessage message.1 message.2))
  | history {conversationId : String} {turns : List String} (phase : worker.phase = .reading) :
      worker.MaySend (.history worker.run.id conversationId turns)

theorem Worker.MaySend.reading {worker : Worker} {runId conversationId : String}
    {turns : List String} (may : worker.MaySend (.history runId conversationId turns)) :
    worker.phase = .reading := by
  cases may with
  | history phase => exact phase

/-- The context is read in one phase. -/
theorem sends_initialAiMessages {worker : Worker} (phase : worker.phase = .reading) :
    (initialAiMessages services worker.run).Sends worker.MaySend := by
  refine (Program.sends_lift _).bind fun _ => (Program.sends_lift _).bind fun _ =>
    Program.Sends.bind ?_ fun _ => (Program.sends_lift _).bind fun _ => Program.sends_pure _
  unfold selectHistory
  split
  · exact Program.sends_pure _
  · exact Program.sends_current.bind fun _ => (Program.sends_lift _).bind fun _ =>
      (Program.sends_lift _).bind fun _ => (Program.sends_send (.history phase)).bind fun _ =>
      Program.sends_pure _

/-- What one step sends. -/
theorem Worker.step_sends (worker : Worker) : (worker.step services now).Sends worker.MaySend := by
  cases phase : worker.phase with
  | queued =>
      simp only [Worker.step, phase]
      exact (Program.sends_lift _).bind fun _ => Program.sends_pure _
  | starting =>
      simp only [Worker.step, phase]
      refine (sends_saveRunProgress _ _ _ _).bind fun run => ?_
      split_ifs <;> exact Program.sends_pure _
  | reading =>
      simp only [Worker.step, phase]
      exact (sends_initialAiMessages services phase).bind fun _ => Program.sends_pure _
  | prepared =>
      simp only [Worker.step, phase]
      exact (sends_saveRunProgress _ _ _ _).bind fun _ => Program.sends_pure _
  | validating round =>
      simp only [Worker.step, phase]
      exact (sends_validateRunBindings _ _).bind fun _ => Program.sends_pure _
  | announcing round =>
      simp only [Worker.step, phase]
      exact (sends_saveRunProgress _ _ _ _).bind fun _ => Program.sends_pure _
  | dispatching round =>
      simp only [Worker.step, phase]
      exact (Program.sends_lift _).bind fun _ => (Program.sends_lift _).bind fun _ =>
        (Program.sends_send (.messages phase)).bind fun _ => Program.sends_pure _
  | waiting round =>
      simp only [Worker.step, phase]
      exact (Program.sends_lift _).bind fun _ => (Program.sends_lift _).bind fun _ =>
        Program.sends_pure _
  | calling round calls =>
      cases calls with
      | nil =>
          simp only [Worker.step, phase]
          exact Program.sends_pure _
      | cons call rest =>
          simp only [Worker.step, phase]
          exact (Program.sends_refuse _ _).bind fun _ =>
            (sends_validateRunBindings _ _).bind fun _ => Program.sends_pure _
  | tool round call rest =>
      simp only [Worker.step, phase]
      exact (sends_saveRunProgress _ _ _ _).bind fun _ => Program.sends_pure _
  | finalizing round text =>
      simp only [Worker.step, phase, Worker.finalize]
      split
      · exact Program.sends_pure _
      · split_ifs
        · exact Program.sends_pure _
        · exact Program.sends_throw _
  | checking =>
      simp only [Worker.step, phase]
      exact (sends_validateRunBindings _ _).bind fun _ => (Program.sends_refuse _ _).bind fun _ =>
        Program.sends_pure _
  | completing =>
      simp only [Worker.step, phase]
      exact (sends_saveRunProgress _ _ _ _).bind fun _ => Program.sends_pure _
  | recording =>
      simp only [Worker.step, phase]
      exact (sends_recordAnswer _ _ _).bind fun _ => Program.sends_pure _
  | titling =>
      simp only [Worker.step, phase]
      split
      · exact Program.sends_pure _
      · exact (Program.sends_send (.title phase)).bind fun _ => Program.sends_pure _
  | titled =>
      simp only [Worker.step, phase]
      exact (sends_recordTitle _ _).bind fun _ => Program.sends_pure _
  | pausing =>
      simp only [Worker.step, phase]
      exact (sends_saveRunProgress _ _ _ _).bind fun _ => Program.sends_pure _
  | failing error =>
      simp only [Worker.step, phase]
      exact (sends_finishAiRunErrorIfActive _ _ _ _).bind fun _ => Program.sends_pure _
  | ended =>
      simp only [Worker.step, phase]
      exact Program.sends_pure _

end Sending

end LawyerAssistance.AiRuns
