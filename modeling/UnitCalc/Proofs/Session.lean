import Mathlib.Data.List.Induction
import UnitCalc.Proofs.Binary64.Rounded
import UnitCalc.Session

/-!
# Run ids in a session

A session keeps one current run id and, for each open scope, the id that leaving it brings back. The
scopes that are open can be told from what was done and answered so far (`openScopes`), without
looking at the session. The invariant `Tracks` ties the two together: the current id is that of the
innermost open scope, and the id saved at a scope is that of the next scope outside it, or none.

From this follows what a whole run shows: the current id after every step, the run id that every
event carries, and that leaving a scope brings back the id from before its enter, whatever was done
inside.
-/

namespace UnitCalc

namespace Session

variable {α : Type} {s : Session} {steps inner : List (Step α)} {scopes : List RunId}

/-! ## Runs -/

section

variable [Platform]

/-- The session after a list of steps. -/
def after (s : Session) (steps : List (Step α)) : Session :=
  steps.foldl (fun t step ↦ (t.step step).1) s

theorem after_append (s : Session) (steps more : List (Step α)) :
    s.after (steps ++ more) = (s.after steps).after more :=
  List.foldl_append

theorem run_cons (s : Session) (step : Step α) (steps : List (Step α)) :
    s.run (step :: steps) = (s.step step).2 :: (s.step step).1.run steps := rfl

theorem run_append (s : Session) (steps more : List (Step α)) :
    s.run (steps ++ more) = s.run steps ++ (s.after steps).run more := by
  induction steps generalizing s with
  | nil => rfl
  | cons step steps ih =>
    rw [List.cons_append, run_cons, run_cons, ih]
    rfl

theorem length_run (s : Session) (steps : List (Step α)) :
    (s.run steps).length = steps.length := by
  induction steps generalizing s with
  | nil => rfl
  | cons step steps ih => rw [run_cons, List.length_cons, List.length_cons, ih]

theorem run_concat (s : Session) (steps : List (Step α)) (step : Step α) :
    s.run (steps ++ [step]) = s.run steps ++ [((s.after steps).step step).2] :=
  run_append s steps [step]

/-- A reply shows the current id after its step. -/
theorem current_step (s : Session) (step : Step α) :
    (s.step step).2.current = (s.step step).1.current := by
  cases step with
  | log message extra =>
    rw [Session.step]
    split <;> rfl
  | _ => rfl

/-- The id that is current after some replies, none at the start. -/
def lastCurrent (replies : List (Reply α)) : Option RunId := replies.getLast?.bind (·.current)

theorem lastCurrent_run (steps : List (Step α)) :
    lastCurrent (run {} steps) = (after {} steps).current := by
  induction steps using List.reverseRecOn with
  | nil => rfl
  | append_singleton steps step _ =>
    rw [run_concat, lastCurrent, List.getLast?_concat, Option.bind_some, current_step, after_append]
    rfl

/-! ## Open scopes -/

/-- The ids of the open scopes, innermost first, after one more step. -/
def openAfter (scopes : List RunId) : Step α × Reply α → List RunId
  | (.enter _, ⟨.entered id, _, _⟩) => id :: scopes
  | (.leave, _) => scopes.tail
  | _ => scopes

/-- The ids of the scopes that are open after the steps of a session, innermost first. -/
def openScopes (steps : List (Step α)) : List RunId :=
  (steps.zip (run {} steps)).foldl openAfter []

theorem openScopes_concat (steps : List (Step α)) (step : Step α) :
    openScopes (steps ++ [step]) =
      openAfter (openScopes steps) (step, ((after {} steps).step step).2) := by
  rw [openScopes, run_concat, List.zip_append (length_run _ _).symm, List.foldl_append]
  rfl

end

/-- The ids saved at the open scopes: at each of them that of the next scope outside. -/
def savedAt : List RunId → List (Option RunId)
  | [] => []
  | _ :: scopes => scopes.head? :: savedAt scopes

/-- The session is in the given scopes. -/
structure Tracks (s : Session) (scopes : List RunId) : Prop where
  current : s.current = scopes.head?
  saved : s.saved = savedAt scopes

theorem Tracks.enter (h : s.Tracks scopes) (id : Option String) :
    (s.enter id).2.Tracks ((s.enter id).1 :: scopes) where
  current := current_enter s id
  saved := by rw [saved_enter, h.current, h.saved, savedAt]

theorem Tracks.leave (h : s.Tracks scopes) : s.leave.Tracks scopes.tail := by
  have hsaved := h.saved
  cases scopes with
  | nil =>
    rw [Session.leave, hsaved]
    exact h
  | cons id scopes =>
    rw [Session.leave, hsaved]
    exact ⟨rfl, rfl⟩

/-- What a step preserves. -/
theorem Tracks.step [Platform] (h : s.Tracks scopes) (step : Step α) :
    (s.step step).1.Tracks (openAfter scopes (step, (s.step step).2)) := by
  cases step with
  | enter id => exact h.enter id
  | leave => exact h.leave
  | calculate text => exact h
  | log message extra =>
    rw [Session.step]
    split <;> exact h

/-- What a run preserves. -/
theorem tracks_after [Platform] (steps : List (Step α)) :
    (after {} steps).Tracks (openScopes steps) := by
  induction steps using List.reverseRecOn with
  | nil => exact ⟨rfl, rfl⟩
  | append_singleton steps step ih =>
    rw [openScopes_concat, after_append]
    exact ih.step step

/-! ## Leaving what was entered -/

/-- Every scope that is entered is left again, and no other one is left. -/
inductive Balanced : List (Step α) → Prop where
  | nil : Balanced []
  | calculate (text : String) {rest : List (Step α)} : Balanced rest →
      Balanced (.calculate text :: rest)
  | log (message : String) (extra : List (String × α)) {rest : List (Step α)} : Balanced rest →
      Balanced (.log message extra :: rest)
  | scope (id : Option String) {inner rest : List (Step α)} : Balanced inner → Balanced rest →
      Balanced (.enter id :: inner ++ .leave :: rest)

theorem current_leave_of_saved {previous : Option RunId} {saved : List (Option RunId)}
    (h : s.saved = previous :: saved) : s.leave.current = previous ∧ s.leave.saved = saved := by
  rw [Session.leave, h]
  exact ⟨rfl, rfl⟩

section

variable [Platform]

theorem step_log (s : Session) (message : String) (extra : List (String × α)) :
    (s.step (.log message extra)).1 = s := by
  rw [Session.step]
  split <;> rfl

/-- Leaving brings back the id that was current before the enter, if what is done in between does
not touch what was saved. -/
theorem after_scope (s : Session) (id : Option String)
    (h : ((s.enter id).2.after inner).saved = (s.enter id).2.saved) :
    (s.after (.enter id :: inner ++ [.leave])).current = s.current ∧
      (s.after (.enter id :: inner ++ [.leave])).saved = s.saved := by
  rw [saved_enter] at h
  rw [after_append]
  exact current_leave_of_saved h

theorem Balanced.after (h : Balanced steps) (s : Session) :
    (s.after steps).current = s.current ∧ (s.after steps).saved = s.saved := by
  induction h generalizing s with
  | nil => exact ⟨rfl, rfl⟩
  | calculate text _ ih => exact ih s
  | log message extra _ ih =>
    rw [Session.after, List.foldl_cons, step_log]
    exact ih s
  | @scope id inner rest _ _ ihinner ihrest =>
    obtain ⟨hcurrent, hsaved⟩ := after_scope s id (ihinner (s.enter id).2).2
    rw [List.append_cons, after_append, (ihrest _).1, (ihrest _).2]
    exact ⟨hcurrent, hsaved⟩

end

/-! ## What the replies show -/

/-- The event carries a run id. -/
def HasRunId (id : Option RunId) (event : Event α) : Prop :=
  event.payload.lookup "run_id" = some (.runId id)

/-- What a calculation logs: one event that tells its outcome, and nothing at a limit. -/
def LogsOutcome (id : Option RunId) : Except Fault Quantity → List (Event α) → Prop
  | .ok _, events => ∃ event, events = [event] ∧ HasRunId id event ∧
      event.payload.lookup "ok" = some (.flag true)
  | .error (.failure failure), events => ∃ event, events = [event] ∧ HasRunId id event ∧
      event.payload.lookup "ok" = some (.flag false) ∧
      event.payload.lookup "stage" = some (.text failure.stage.name)
  | .error (.limit _), events => events = []

theorem any_fst_beq_iff {β : Type} {extra : List (String × β)} {name : String} :
    extra.any (·.1 == name) = true ↔ name ∈ extra.map Prod.fst := by
  simp

theorem hasRunId_ofRun {id : Option RunId} {message : String} {extra : List (String × Detail α)}
    (h : "run_id" ∉ extra.map Prod.fst) : HasRunId id (.ofRun id message extra) := by
  have hnone : extra.lookup Event.runIdName = none := by
    refine List.lookup_eq_none_iff.mpr fun entry hentry ↦ ?_
    exact bne_iff_ne.mpr fun heq ↦ h (List.mem_map.mpr ⟨entry, hentry, heq.symm⟩)
  rw [HasRunId, Event.ofRun, hnone]
  rfl

theorem logsOutcome_ofOutcome? (id : Option RunId) (text : String)
    (outcome : Except Fault Quantity) :
    LogsOutcome id outcome (Event.ofOutcome? id text outcome : Option (Event α)).toList := by
  match outcome with
  | .ok q => exact ⟨_, rfl, rfl, rfl⟩
  | .error (.failure failure) => exact ⟨_, rfl, rfl, rfl, rfl⟩
  | .error (.limit limit) => exact rfl

section

variable [Platform]

/-- What a step answers and logs where `id` is current. A scope is entered with the id that was
given, or a fresh one without it. A message is one event, unless one of its values has the name of
the message itself. -/
def Reports (id : Option RunId) : Step α → Reply α → Prop
  | .enter given, reply => reply.events = [] ∧ ∃ entered, reply.answer = .entered entered ∧
      (∀ text, given = some text → text ≠ "" → entered = .given text) ∧
      (given = none ∨ given = some "" → ∃ serial, entered = .fresh serial)
  | .leave, reply => reply.events = []
  | .calculate text, reply => reply.answer = .calculated (UnitCalc.calculate text) ∧
      LogsOutcome id (UnitCalc.calculate text) reply.events
  | .log message extra, reply =>
      ("message" ∈ extra.map Prod.fst → reply.events = []) ∧
      ("message" ∉ extra.map Prod.fst → ∃ event, reply.events = [event] ∧
        event.message = message ∧ ("run_id" ∉ extra.map Prod.fst → HasRunId id event))

theorem reports_enter (s : Session) (given : Option String) :
    Reports s.current (.enter given : Step α) (s.step (.enter given)).2 := by
  refine ⟨rfl, (s.enter given).1, rfl, ?_, ?_⟩
  · rintro text rfl htext
    unfold enter
    split <;> simp_all
  · rintro (rfl | rfl)
    · exact ⟨s.issued, rfl⟩
    · exact ⟨s.issued, rfl⟩

theorem reports_log (s : Session) (message : String) (extra : List (String × α)) :
    Reports s.current (.log message extra) (s.step (.log message extra)).2 := by
  rw [Session.step]
  constructor
  · intro h
    rw [if_pos (any_fst_beq_iff.mpr h)]
  · intro h
    rw [if_neg (mt any_fst_beq_iff.mp h)]
    refine ⟨_, rfl, rfl, fun hid ↦ hasRunId_ofRun ?_⟩
    rwa [List.map_map]

/-- Every step reports the id that was current before it. -/
theorem reports_step (s : Session) (step : Step α) : Reports s.current step (s.step step).2 := by
  cases step with
  | enter given => exact reports_enter s given
  | leave => exact rfl
  | calculate text => exact ⟨rfl, logsOutcome_ofOutcome? s.current text _⟩
  | log message extra => exact reports_log s message extra

/-- After every step of a session the current id is that of the innermost open scope; the step
reports the id that was current before it; and leaving a scope brings back the id that was current
before its enter, whatever was done inside. -/
theorem run_scopes (before : List (Step α)) (step : Step α) (later : List (Step α)) :
    ∃ reply rest, run {} (before ++ step :: later) = run {} before ++ reply :: rest ∧
      reply.current = (openScopes (before ++ [step])).head? ∧
      Reports (lastCurrent (run {} before)) step reply ∧
      ∀ outer id inner, Balanced inner →
        before ++ [step] = outer ++ (.enter id :: inner ++ [.leave]) →
        reply.current = lastCurrent (run {} outer) := by
  have hstep : after {} (before ++ [step]) = ((after {} before).step step).1 := by
    rw [after_append]
    rfl
  refine ⟨((after {} before).step step).2, _, by rw [run_append, run_cons], ?_, ?_, ?_⟩
  · rw [current_step, ← hstep]
    exact (tracks_after _).current
  · rw [lastCurrent_run]
    exact reports_step _ _
  · intro outer id inner hinner heq
    rw [current_step, ← hstep, heq, lastCurrent_run, after_append]
    exact (after_scope _ id (hinner.after _).2).1

end

open Rounded in
/-- A calculation that fails and a scope with the same id, inside a scope that is left. -/
theorem run_scopes_failed_calculation :
    let outer : List (Step Unit) := [.enter (some "a")]
    let inner : List (Step Unit) := [.calculate "1 +", .enter (some "a"), .leave]
    Balanced inner ∧ ∃ reply rest,
      run {} (outer ++ (.enter none :: inner) ++ [.leave]) =
        run {} (outer ++ (.enter none :: inner)) ++ reply :: rest ∧
      reply.current = lastCurrent (run {} outer) ∧ reply.current = some (.given "a") := by
  intro outer inner
  have hinner : Balanced inner := .calculate "1 +" (.scope (some "a") .nil .nil)
  obtain ⟨reply, rest, hrun, -, -, hleave⟩ := run_scopes (outer ++ (.enter none :: inner)) .leave []
  have hcurrent : reply.current = lastCurrent (run {} outer) :=
    hleave outer none inner hinner (List.append_assoc ..)
  exact ⟨hinner, reply, rest, hrun, hcurrent, hcurrent⟩

end Session

end UnitCalc
