import UnitCalc.Calculator

/-!
# Sessions: run ids and events

Calculations in a session are logged as events. A run scope gives a run id to all events inside it;
scopes nest. One run id is current at a time: entering a scope saves it and sets another one, and
leaving the scope sets it back to what was saved. Each calculation that has a value or fails is one
event; one that runs into a limit is none.
-/

namespace UnitCalc

/-! ## Events -/

/-- The name of a run: one that was given, or the next of the session's own. -/
inductive RunId where
  | given (text : String)
  | fresh (serial : Nat)
  deriving DecidableEq

/-- A value that an event carries. `α` is the type of the values that callers add. -/
inductive Detail (α : Type) where
  | runId (id : Option RunId)
  | text (s : String)
  | flag (b : Bool)
  | given (value : α)

/-- A logged event: its message and named values. -/
structure Event (α : Type) where
  message : String
  payload : List (String × Detail α)

namespace Event

/-- The name of the value that is the run id. -/
def runIdName : String := "run_id"

/-- An event of a run. The run id comes first, and a value of that name in `extra` takes its place.
-/
def ofRun {α : Type} (id : Option RunId) (message : String) (extra : List (String × Detail α)) :
    Event α :=
  ⟨message, (runIdName, (extra.lookup runIdName).getD (.runId id)) ::
    extra.filter (·.1 != runIdName)⟩

/-- The message of the event for an outcome, if there is one. -/
def outcomeMessage? : Except Fault Quantity → Option String
  | .ok _ => some "expression evaluated"
  | .error (.failure _) => some "expression failed"
  | .error (.limit _) => none

/-- The event for a calculation. -/
def ofOutcome? {α : Type} (id : Option RunId) (text : String) (outcome : Except Fault Quantity) :
    Option (Event α) :=
  (outcomeMessage? outcome).map fun message ↦
    ofRun id message <| ("expression", .text text) ::
      match outcome with
      | .error (.failure failure) => [("ok", .flag false), ("stage", .text failure.stage.name)]
      | _ => [("ok", .flag true)]

end Event

/-! ## Sessions -/

/-- The run id that is current, the ids that leaving the open scopes will bring back (innermost
first), and the number of fresh ids issued. -/
structure Session where
  current : Option RunId := none
  saved : List (Option RunId) := []
  issued : Nat := 0
  deriving DecidableEq

namespace Session

/-- What can be done in a session. -/
inductive Step (α : Type) where
  /-- Opens a scope. Without a nonempty id, a fresh one is issued. -/
  | enter (id : Option String)
  | leave
  | calculate (text : String)
  | log (message : String) (extra : List (String × α))

/-- What a step yields. -/
inductive Answer where
  | nothing
  | entered (id : RunId)
  | calculated (outcome : Except Fault Quantity)
  /-- A value to be logged has the name of the message. -/
  | nameTaken

/-- What a step yields and logs, and the session's run id after it. -/
structure Reply (α : Type) where
  answer : Answer
  events : List (Event α)
  current : Option RunId

/-- Makes an id the current one and saves the one before it. -/
def bind (s : Session) (id : RunId) : Session :=
  { s with current := some id, saved := s.current :: s.saved }

/-- Opens a scope. -/
def enter (s : Session) (id : Option String) : RunId × Session :=
  match id with
  | none | some "" => (.fresh s.issued, { s.bind (.fresh s.issued) with issued := s.issued + 1 })
  | some text => (.given text, s.bind (.given text))

/-- Leaves the innermost scope. -/
def leave (s : Session) : Session :=
  match s.saved with
  | previous :: saved => { s with current := previous, saved }
  | [] => s

section

variable [Platform]

/-- Carries out a step. -/
def step {α : Type} (s : Session) : Step α → Session × Reply α
  | .enter id =>
    let (entered, t) := s.enter id
    (t, ⟨.entered entered, [], t.current⟩)
  | .leave => (s.leave, ⟨.nothing, [], s.leave.current⟩)
  | .calculate text =>
    let outcome := UnitCalc.calculate text
    (s, ⟨.calculated outcome, (Event.ofOutcome? s.current text outcome).toList, s.current⟩)
  | .log message extra =>
    if extra.any (·.1 == "message") then (s, ⟨.nameTaken, [], s.current⟩)
    else
      let details := extra.map fun (name, value) ↦ (name, .given value)
      let event := Event.ofRun s.current message details
      (s, ⟨.nothing, [event], s.current⟩)

/-- Carries out steps in order. -/
def run {α : Type} (s : Session) : List (Step α) → List (Reply α)
  | [] => []
  | step :: rest =>
    let (t, reply) := s.step step
    reply :: t.run rest

end

/-- Entering a scope saves the current id. -/
theorem saved_enter (s : Session) (id : Option String) :
    (s.enter id).2.saved = s.current :: s.saved := by
  unfold enter
  split <;> rfl

theorem current_enter (s : Session) (id : Option String) :
    (s.enter id).2.current = some (s.enter id).1 := by
  unfold enter
  split <;> rfl

end Session

end UnitCalc
