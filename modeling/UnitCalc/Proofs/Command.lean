import UnitCalc.Command.Output
import UnitCalc.Proofs.Binary64.Rounded
import UnitCalc.Proofs.Formatted

/-!
# The loop answers line by line

The output of `repl` is put together from the contributions of its lines, each of which depends on
its own line: the prompt and, unless the line is blank or ends the loop, what `eval` writes for it.
The lines that count are those up to the first that ends the loop. If there is none, the end of the
lines adds a last prompt and a line end.

The two commands treat a text each in its own way, and `replLine_eq` compares them. They differ in
the log, where a line that cannot be written is replaced by a report of its caller, and they agree
in the log as well if there is no such line.

`replOutput_cons` is one step of the loop: the contribution of a line goes before the output of the
rest. The run is an induction on the lines, in which no contribution may stop the program, since a
limit hides the rest.
-/

namespace UnitCalc

variable {settings : Settings} {precision : Option Int} {lines rest : List String}
  {line text s : String} {failure : Failure} {a : Output} {caller caller' : Caller}
  {logLine : LogLine} {count : Nat} {e : Expr}

/-! ## Output in sequence -/

namespace Output

theorem andThen_of_stop (ha : a.stop = none) (b : Output) :
    a.andThen b = ⟨a.out ++ b.out, a.err ++ b.err, b.stop⟩ := by
  rw [andThen, ha]

end Output

/-! ## The log -/

/-- Every line that is logged for the text can be written: either the lines that spell out an
expression are not shown, or the expression has no number with too many digits. -/
def Settings.LogsInFull (settings : Settings) (text : String) : Prop :=
  LogLevel.debug.severity < settings.logLevel ∨
    ∀ e, Expr.read text = .ok e → e.isWritable = true

theorem LogLine.parsed_notMem_ofOutcome (result : Except Fault Quantity) :
    parsed count e ∉ ofCalculation.ofOutcome result := by
  intro h
  obtain ⟨message, -, hmessage⟩ := List.mem_map.mp h
  cases hmessage

section

variable [Platform]

/-- The expression that is spelled out in the log is that of the text. -/
theorem LogLine.read_of_mem_ofCalculation (h : parsed count e ∈ ofCalculation text) :
    Expr.read text = .ok e := by
  unfold ofCalculation at h
  rw [Expr.read]
  cases htokens : Token.lex text with
  | error fault =>
    rw [htokens] at h
    exact absurd h (parsed_notMem_ofOutcome _)
  | ok tokens =>
    rw [htokens] at h
    have h := (List.mem_cons.mp h).resolve_left (by rintro ⟨⟩)
    change Expr.parse tokens = .ok e
    cases hparse : Expr.parse tokens with
    | error fault =>
      rw [hparse] at h
      exact absurd h (parsed_notMem_ofOutcome _)
    | ok e' =>
      rw [hparse] at h
      rcases List.mem_cons.mp h with h | h
      · cases h
        rfl
      rcases List.mem_append.mp h with h | h
      · unfold ofCalculation.ofLookup at h
        split at h <;> simp at h
      · exact absurd h (parsed_notMem_ofOutcome _)

/-- A line that is shown can be written. -/
theorem LogLine.exists_message (h : settings.LogsInFull text)
    (hline : logLine ∈ ofCalculation text) (hshown : logLine.isShown settings = true) :
    ∃ message, logLine.message = .ok message := by
  cases logLine with
  | lexed text count => exact ⟨_, rfl⟩
  | notFound symbol => exact ⟨_, rfl⟩
  | outcome message => exact ⟨_, rfl⟩
  | parsed count e =>
    have hwritable : e.isWritable = true := by
      refine h.resolve_left (Nat.not_lt.mpr ?_) e (read_of_mem_ofCalculation hline)
      exact of_decide_eq_true hshown
    refine ⟨"parsed " ++ toString count ++ " tokens into " ++ e.display, ?_⟩
    rw [message, Expr.display?, if_pos hwritable]
    rfl

/-- A log that can be written does not depend on the caller. -/
theorem Command.logOutput_eq [LogFailure] (h : settings.LogsInFull text) :
    logOutput caller settings text = logOutput caller' settings text := by
  have hrender : ∀ logLine ∈ (LogLine.ofCalculation text).filter (·.isShown settings),
      logLine.render caller = logLine.render caller' := by
    intro logLine hline
    obtain ⟨hline, hshown⟩ := List.mem_filter.mp hline
    obtain ⟨message, hmessage⟩ := LogLine.exists_message h hline hshown
    rw [LogLine.render, LogLine.render, hmessage]
  rw [logOutput, logOutput, List.map_congr_left hrender]

end

namespace Command

/-! ## Lines of the loop -/

/-- A line that the loop skips, or that ends it. -/
def IsIdle (line : String) : Prop := Text.strip line = "" ∨ Text.strip line ∈ exitWords

instance (line : String) : Decidable (IsIdle line) := inferInstanceAs (Decidable (_ ∨ _))

/-- Whether a line ends the loop. -/
def endsLoop (line : String) : Bool := decide (Text.strip line ∈ exitWords)

/-- The lines up to the first that ends the loop, with it. -/
def entered (lines : List String) : List String := lines.take (lines.findIdx endsLoop + 1)

theorem entered_cons (line : String) (rest : List String) :
    entered (line :: rest) = line :: if endsLoop line then [] else entered rest := by
  rw [entered, List.take_succ_cons, List.findIdx_cons]
  cases endsLoop line <;> rfl

/-- What follows the contributions: a prompt that no line answers, if nothing ended the loop. -/
def farewell (lines : List String) : String := if lines.any endsLoop then "" else prompt ++ "\n"

theorem farewell_cons (line : String) (rest : List String) :
    farewell (line :: rest) = if endsLoop line then "" else farewell rest := by
  rw [farewell, List.any_cons]
  cases endsLoop line <;> rfl

section

variable [Platform]

/-! ## What is written about one text -/

/-- The report of a failed calculation. -/
def reported (text : String) : String :=
  match calculate text with
  | .error (.failure failure) => (Output.report failure).err
  | _ => ""

theorem reported_of_ok {q : Quantity} (h : calculate text = .ok q) : reported text = "" := by
  rw [reported, h]

theorem reported_of_failure (h : calculate text = .error (.failure failure)) :
    reported text = (Output.report failure).err := by
  rw [reported, h]

variable [LogFailure]

theorem logOutput_andThen (b : Output) : (logOutput caller settings text).andThen b =
    ⟨b.out, (logOutput caller settings text).err ++ b.err, b.stop⟩ := by
  rw [Output.andThen_of_stop rfl]
  exact congrArg (Output.mk · _ _) String.empty_append

theorem evalOutput_of_ok (h : calculateFormatted settings precision text = .ok s) :
    evalOutput settings precision text =
      { out := s ++ "\n", err := (logOutput .eval settings text).err } := by
  obtain ⟨q, hq, hs⟩ := calculateFormatted_eq_ok_iff.mp h
  rw [evalOutput, hq]
  dsimp only
  rw [hs, logOutput_andThen]
  dsimp only [Output.line]
  rw [String.append_empty]

theorem evalOutput_of_failure (h : calculate text = .error (.failure failure)) :
    evalOutput settings precision text =
      { err := (logOutput .eval settings text).err ++ (Output.report failure).err
        stop := some (.exit 1) } := by
  rw [evalOutput, h]
  dsimp only
  rw [Output.andThen_of_stop (a := .report failure) rfl, logOutput_andThen]
  dsimp only [Output.report, Output.exit]
  rw [String.append_empty, String.append_empty]

/-- `eval` writes either the result or the report of the failure, unless there is a limit. -/
theorem evalOutput_cases
    (h : ∀ limit, calculateFormatted settings precision text ≠ .error (.limit limit)) :
    let evaluated := evalOutput settings precision text
    let logged := (logOutput .eval settings text).err
    (∃ s, calculateFormatted settings precision text = .ok s ∧
      evaluated = { out := s ++ "\n", err := logged } ∧ evaluated.status = 0) ∨
    ∃ failure, calculate text = .error (.failure failure) ∧
      evaluated = { err := logged ++ (Output.report failure).err, stop := some (.exit 1) } ∧
      evaluated.status = 1 := by
  intro evaluated logged
  cases hcalc : calculateFormatted settings precision text with
  | ok s =>
    have hevaluated : evaluated = _ := evalOutput_of_ok hcalc
    exact .inl ⟨s, rfl, hevaluated, by rw [hevaluated]; rfl⟩
  | error fault =>
    cases fault with
    | failure failure =>
      have hfailure := calculateFormatted_eq_failure_iff.mp hcalc
      have hevaluated : evaluated = _ := evalOutput_of_failure hfailure
      exact .inr ⟨failure, hfailure, hevaluated, by rw [hevaluated]; rfl⟩
    | limit limit => exact absurd hcalc (h limit)

/-! ## What is written about one line -/

/-- What a line contributes to the output of the loop: the prompt and, unless the line is blank or
ends the loop, what `eval` writes for it. -/
def contribution (settings : Settings) (precision : Option Int) (line : String) : Output :=
  if IsIdle line then { out := prompt }
  else
    let evaluated := evalOutput settings precision (Text.strip line)
    { out := prompt ++ evaluated.out, err := evaluated.err }

/-- What the loop writes on the second output for a line: its own log, and the report of a failure.
-/
def lineErrors (settings : Settings) (line : String) : String :=
  if IsIdle line then ""
  else (logOutput .repl settings (Text.strip line)).err ++ reported (Text.strip line)

theorem replLine_of_ok (hline : ¬IsIdle line)
    (h : calculateFormatted settings precision (Text.strip line) = .ok s) :
    replLine settings precision line = { out := s ++ "\n", err := lineErrors settings line } := by
  obtain ⟨hblank, hexit⟩ := not_or.mp hline
  obtain ⟨q, hq, hs⟩ := calculateFormatted_eq_ok_iff.mp h
  rw [replLine, if_neg hblank, if_neg hexit, lineErrors, if_neg hline, reported_of_ok hq, hq]
  dsimp only
  rw [hs, logOutput_andThen]
  dsimp only [Output.line]

theorem replLine_of_failure (hline : ¬IsIdle line)
    (h : calculate (Text.strip line) = .error (.failure failure)) :
    replLine settings precision line = { err := lineErrors settings line } := by
  obtain ⟨hblank, hexit⟩ := not_or.mp hline
  rw [replLine, if_neg hblank, if_neg hexit, lineErrors, if_neg hline, reported_of_failure h, h]
  dsimp only
  rw [logOutput_andThen]
  dsimp only [Output.report]

/-- A line that is calculated by the loop is answered as by `eval`, but for the log. -/
theorem replLine_eq (hline : ¬IsIdle line)
    (h : ∀ limit, calculateFormatted settings precision (Text.strip line) ≠ .error (.limit limit)) :
    replLine settings precision line =
        { out := (evalOutput settings precision (Text.strip line)).out
          err := lineErrors settings line } ∧
      (evalOutput settings precision (Text.strip line)).err =
        (logOutput .eval settings (Text.strip line)).err ++ reported (Text.strip line) := by
  cases hcalc : calculateFormatted settings precision (Text.strip line) with
  | ok s =>
    obtain ⟨q, hq, -⟩ := calculateFormatted_eq_ok_iff.mp hcalc
    rw [replLine_of_ok hline hcalc, evalOutput_of_ok hcalc, reported_of_ok hq, String.append_empty]
    exact ⟨rfl, by dsimp only⟩
  | error fault =>
    cases fault with
    | failure failure =>
      have hfailure := calculateFormatted_eq_failure_iff.mp hcalc
      rw [replLine_of_failure hline hfailure, evalOutput_of_failure hfailure,
        reported_of_failure hfailure]
      exact ⟨rfl, rfl⟩
    | limit limit => exact absurd hcalc (h limit)

/-- Where the log can be written, the loop writes for a line just what `eval` writes. -/
theorem contribution_err (hlog : settings.LogsInFull (Text.strip line))
    (h : ∀ limit, calculateFormatted settings precision (Text.strip line) ≠ .error (.limit limit)) :
    (contribution settings precision line).err = lineErrors settings line := by
  unfold contribution
  split
  · next hline => rw [lineErrors, if_pos hline]
  · next hline =>
    dsimp only
    rw [(replLine_eq hline h).2, lineErrors, if_neg hline, logOutput_eq hlog]

/-- The loop goes on after a line unless the line ends it. -/
theorem replOutput_cons (rest : List String)
    (h : ∀ limit, calculateFormatted settings precision (Text.strip line) ≠ .error (.limit limit)) :
    replOutput settings precision (line :: rest) =
      if endsLoop line then { out := prompt, stop := some (.exit 0) }
      else
        let more := replOutput settings precision rest
        { out := (contribution settings precision line).out ++ more.out
          err := lineErrors settings line ++ more.err
          stop := more.stop } := by
  have hskip (hblank : Text.strip line = "") : replLine settings precision line = {} := by
    rw [replLine, if_pos hblank]
  have hstop (hblank : Text.strip line ≠ "") (hexit : Text.strip line ∈ exitWords) :
      replLine settings precision line = .exit 0 := by
    rw [replLine, if_neg hblank, if_pos hexit]
  rw [replOutput, endsLoop, contribution, lineErrors]
  by_cases hblank : Text.strip line = ""
  · have hexit : Text.strip line ∉ exitWords := by
      rw [hblank]
      decide
    have hline : IsIdle line := .inl hblank
    simp only [hskip hblank, Output.andThen, hexit, hline, ↓reduceIte, decide_false,
      Bool.false_eq_true, String.empty_append]
  by_cases hexit : Text.strip line ∈ exitWords
  · simp only [hstop hblank hexit, Output.andThen, Output.exit, hexit, ↓reduceIte, decide_true,
      String.append_empty]
  · have hline : ¬IsIdle line := not_or.mpr ⟨hblank, hexit⟩
    simp only [(replLine_eq hline h).1, Output.andThen, lineErrors, hexit, hline, ↓reduceIte,
      decide_false, Bool.false_eq_true, String.empty_append, String.append_assoc]

/-! ## Runs of the loop -/

theorem replOutput_eq (h : ∀ line ∈ lines, ∀ limit,
      calculateFormatted settings precision (Text.strip line) ≠ .error (.limit limit)) :
    replOutput settings precision lines =
      { out := String.join ((entered lines).map fun line ↦
          (contribution settings precision line).out) ++ farewell lines
        err := String.join ((entered lines).map (lineErrors settings))
        stop := if lines.any endsLoop then some (.exit 0) else none } := by
  induction lines with
  | nil => rfl
  | cons line rest ih =>
    obtain ⟨hline, hrest⟩ := List.forall_mem_cons.mp h
    rw [replOutput_cons rest hline, entered_cons, farewell_cons, List.any_cons, List.map_cons,
      List.map_cons, String.join_cons, String.join_cons]
    cases hends : endsLoop line with
    | true =>
      have hidle : IsIdle line := .inr (of_decide_eq_true hends)
      simp only [contribution, lineErrors, hidle, ↓reduceIte, List.map_nil, String.join_nil,
        String.append_empty, Bool.true_or]
    | false =>
      simp only [Bool.false_eq_true, ↓reduceIte, ih hrest, String.append_assoc, Bool.false_or]

end

/-- A report of a line that cannot be written, which shows no more than the caller. -/
@[reducible] def callerReport : LogFailure where
  report
    | .eval, _ => "eval\n"
    | .repl, _ => "repl\n"

end Command

end UnitCalc
