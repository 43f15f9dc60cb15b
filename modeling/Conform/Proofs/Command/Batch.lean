import Conform.Proofs.Command.Alone

/-!
# What a batch of checks leaves

If records for debugging are dropped and errors go to the error stream, then the two streams and the exit
code of a run follow from what its checks come to by themselves: the rendered results and the messages of
their reports, or nothing and the messages up to the check that is refused.
-/
namespace Conform

namespace Log

/-- Records for debugging are dropped, and errors go to the error stream. -/
structure Division.Quiet (d : Division) : Prop where
  debug : debugLevel < d.least
  least : d.least ≤ errorLevel
  errors : d.errors ≤ errorLevel

variable {d : Division} {r : Record}

theorem Division.Quiet.stream?_debug (h : d.Quiet) (hr : r.level = debugLevel) : d.stream? r = none := by
  have hdebug : 10 < d.least := h.debug
  have hkeeps : d.keeps r = false := by
    simp only [keeps, hr, debugLevel, Bool.or_eq_false_iff, decide_eq_false_iff_not]
    omega
  rw [stream?, hkeeps]
  rfl

theorem Division.Quiet.stream?_error (h : d.Quiet) (hr : r.level = errorLevel) :
    d.stream? r = some .error := by
  have hkeeps : d.keeps r = true := by
    simp only [keeps, hr, h.least, decide_true, Bool.or_true]
  have hlow : ¬ errorLevel < debugLevel := by decide
  simp [stream?, hkeeps, hr, hlow, h.errors]

end Log

namespace Command

open Run (alone listed Complete Comes errorRecord)

/-- The line of an error that the command tells. -/
def errorLine (message : String) : String := Run.commandName ++ " - ERROR - " ++ message ++ "\n"

theorem line_errorRecord (message : String) :
    (errorRecord message).line .standard = errorLine message := by
  have hfields : Log.LineFormat.standard.map (Log.Field.text (errorRecord message)) =
      [Run.commandName, " ", "-", " ", "ERROR", " ", "-", " ", message] := rfl
  rw [Log.Record.line, hfields]
  refine String.toList_inj.mp ?_
  simp [errorLine, String.join]

variable {d : Log.Division} {rs : List Log.Record} {ms : List String}

/-- Of records that are for debugging, except those of some errors, only the errors are written. -/
theorem written_of_told (hd : d.Quiet)
    (h : rs.filter (fun r => r.level ≠ Log.debugLevel) = ms.map errorRecord) :
    d.written .standard .output rs = "" ∧
      d.written .standard .error rs = String.join (ms.map errorLine) := by
  have herror : ∀ r ∈ rs, r.level ≠ Log.debugLevel → r.level = Log.errorLevel := by
    intro r hr hlevel
    have hmem : r ∈ ms.map errorRecord := by
      rw [← h]
      exact List.mem_filter.mpr ⟨hr, decide_eq_true hlevel⟩
    obtain ⟨m, -, rfl⟩ := List.mem_map.mp hmem
    rfl
  have hstream : ∀ r ∈ rs, d.stream? r = if r.level ≠ Log.debugLevel then some .error else none := by
    intro r hr
    split
    · rename_i hlevel
      exact hd.stream?_error (herror r hr hlevel)
    · rename_i hlevel
      exact hd.stream?_debug (not_not.mp hlevel)
  constructor
  · have hnone : rs.filter (fun r => d.stream? r = some .output) = [] := by
      refine List.filter_eq_nil_iff.mpr fun r hr => ?_
      rw [hstream r hr]
      split <;> simp
    rw [Log.Division.written, hnone]
    rfl
  · have hsame : rs.filter (fun r => d.stream? r = some .error) = ms.map errorRecord := by
      rw [← h]
      refine List.filter_congr fun r hr => ?_
      rw [hstream r hr]
      split <;> simp_all
    rw [Log.Division.written, hsame, List.map_map]
    exact congrArg String.join (List.map_congr_left fun m _ => line_errorRecord m)

variable {fs : Files} {s : Settings} {a : Arguments} {results : List Result}

theorem execute_of_comes {outcome : Except Stop (List Result)}
    (h : Comes fs (Run.results fs (a.settings s) a.task) outcome ms) :
    ∃ rs, execute fs s a = conclude (a.settings s) a.format outcome rs ∧
      rs.filter (fun r => r.level ≠ Log.debugLevel) = ms.map errorRecord := by
  obtain ⟨l, rs, hrun, -, htold⟩ := h ⟨.start (a.settings s).caches, []⟩ (Loader.faithful_start fs _)
  exact ⟨rs, execute_of_results hrun, htold⟩

theorem execute_of_completed (hd : (a.settings s).division.Quiet)
    (h : Comes fs (Run.results fs (a.settings s) a.task) (.ok results) ms) :
    execute fs s a = ⟨.exit (if results.all fun r => r.report.isOk then 0 else 1),
      Rendering.render results a.format, String.join (ms.map errorLine)⟩ := by
  obtain ⟨rs, hexecute, htold⟩ := execute_of_comes h
  obtain ⟨houtput, herror⟩ := written_of_told hd htold
  rw [hexecute, conclude]
  dsimp only
  rw [houtput, herror, String.empty_append]

theorem execute_of_refused {m : String} (hd : (a.settings s).division.Quiet)
    (h : Comes fs (Run.results fs (a.settings s) a.task) (.error (.refusal m)) ms) :
    execute fs s a = ⟨.exit 1, "", String.join ((ms ++ [m]).map errorLine)⟩ := by
  obtain ⟨rs, hexecute, htold⟩ := execute_of_comes h
  have htold' : (rs ++ [errorRecord m]).filter (fun r => r.level ≠ Log.debugLevel) =
      (ms ++ [m]).map errorRecord := by
    rw [List.filter_append, htold, List.map_append]
    rfl
  obtain ⟨houtput, herror⟩ := written_of_told hd htold'
  rw [hexecute, conclude]
  show (⟨_, _ ++ "", _⟩ : Output) = _
  rw [String.append_empty]
  exact congrArg₂ (Output.mk _) houtput herror

theorem ending_of_failure {e : Failure}
    (h : Comes fs (Run.results fs (a.settings s) a.task) (.error (.failure e)) ms) :
    (execute fs s a).ending = .failure e := by
  obtain ⟨rs, hexecute, -⟩ := execute_of_comes h
  rw [hexecute]
  rfl

theorem quiet_of_levels (hdebug : Log.debugLevel < Log.levelOr Log.infoLevel s.logLevel)
    (hleast : Log.levelOr Log.infoLevel s.logLevel ≤ Log.errorLevel)
    (hprint : Log.levelOr Log.errorLevel s.printLevel ≤ Log.errorLevel) : s.division.Quiet := by
  generalize hlevel : Log.levelOr Log.infoLevel s.logLevel = least at hdebug hleast
  generalize hlevel' : Log.levelOr Log.errorLevel s.printLevel = errors at hprint
  rw [Settings.division, hlevel, hlevel', Log.Division.make]
  exact ⟨hdebug, hleast, Int.max_le.mpr ⟨hprint, by decide⟩⟩

section Results

variable {t : Task} {cs done rest : List Check} {c : Check} {stop : Stop}

theorem comes_of_complete (hlisted : listed fs t = .ok cs) (h : Complete fs s cs results) :
    Comes fs (Run.results fs s t) (.ok results) (results.flatMap fun r => r.report.messages) := by
  have hchecks := Run.comes_checks fs t
  rw [hlisted] at hchecks
  exact hchecks.bind h.comes

theorem comes_of_unlisted (hlisted : listed fs t = .error stop) :
    Comes fs (Run.results fs s t) (.error stop) [] := by
  have hchecks := Run.comes_checks fs t
  rw [hlisted] at hchecks
  exact hchecks.bind_error

theorem comes_of_stopped (hlisted : listed fs t = .ok (done ++ c :: rest))
    (h : Complete fs s done results) (hc : alone fs s c = .error stop) :
    Comes fs (Run.results fs s t) (.error stop) (results.flatMap fun r => r.report.messages) := by
  have hchecks := Run.comes_checks fs t
  rw [hlisted] at hchecks
  exact hchecks.bind (h.comes_stopped hc rest)

/-- The run of a list up to a check. -/
def upTo (fs : Files) (s : Settings) (t : Task) (cs : List Check) : Run (List Result) := do
  let _ ← Run.checks fs t
  cs.mapM (Run.check fs s)

theorem run_results_of_stopped (hlisted : listed fs t = .ok (done ++ c :: rest))
    (h : Complete fs s done results) (hc : alone fs s c = .error stop) (keeps : Bool) :
    ((Run.results fs s t).run).run ⟨.start keeps, []⟩ =
      ((upTo fs s t (done ++ [c])).run).run ⟨.start keeps, []⟩ := by
  have hchecks := Run.comes_checks fs t
  rw [hlisted] at hchecks
  obtain ⟨l, rs, hrun, hl, -⟩ := hchecks ⟨.start keeps, []⟩ (Loader.faithful_start fs keeps)
  rw [Run.results, upTo, Run.run_bind_of_ok hrun, Run.run_bind_of_ok hrun]
  exact h.run_stopped hc rest hl

end Results

/-- What a run leaves. If all checks come to results, they are rendered on the output stream, their
messages are on the error stream, and the code says whether all reports pass. If there are no checks or one
of them is refused, the output stream is empty, the reason follows the messages of the results before it,
and the checks after it are not run. There is no other way for a run that ends with a code. -/
theorem run_of_checks {env : Settings.Environment} {texts : List String}
    (henv : Settings.ofEnvironment env = .ok s) (hargs : Arguments.ofTexts texts = .ok a)
    (hdebug : Log.debugLevel < Log.levelOr Log.infoLevel (a.settings s).logLevel)
    (hleast : Log.levelOr Log.infoLevel (a.settings s).logLevel ≤ Log.errorLevel)
    (hprint : Log.levelOr Log.errorLevel (a.settings s).printLevel ≤ Log.errorLevel) :
    (∀ cs results, listed fs a.task = .ok cs → Complete fs (a.settings s) cs results →
      run env fs texts = ⟨.exit (if results.all fun r => r.report.isOk then 0 else 1),
        Rendering.render results a.format,
        String.join ((results.flatMap fun r => r.report.messages).map errorLine)⟩) ∧
    (∀ m, listed fs a.task = .error (.refusal m) → run env fs texts = ⟨.exit 1, "", errorLine m⟩) ∧
    (∀ done c rest results m, listed fs a.task = .ok (done ++ c :: rest) →
      Complete fs (a.settings s) done results → alone fs (a.settings s) c = .error (.refusal m) →
      run env fs texts = ⟨.exit 1, "",
        String.join (((results.flatMap fun r => r.report.messages) ++ [m]).map errorLine)⟩ ∧
      ∀ keeps, ((Run.results fs (a.settings s) a.task).run).run ⟨.start keeps, []⟩ =
        ((upTo fs (a.settings s) a.task (done ++ [c])).run).run ⟨.start keeps, []⟩) ∧
    ((∀ e, (run env fs texts).ending ≠ .failure e) →
      (∃ cs results, listed fs a.task = .ok cs ∧ Complete fs (a.settings s) cs results) ∨
      (∃ m, listed fs a.task = .error (.refusal m)) ∨
      ∃ done c rest results m, listed fs a.task = .ok (done ++ c :: rest) ∧
        Complete fs (a.settings s) done results ∧
        alone fs (a.settings s) c = .error (.refusal m)) := by
  have hquiet : (a.settings s).division.Quiet := quiet_of_levels hdebug hleast hprint
  have hrun : run env fs texts = execute fs s a := by
    simp only [run, henv, hargs]
  rw [hrun]
  refine ⟨?_, fun m hlisted => ?_, fun done c rest results m hlisted h hc => ?_, fun hending => ?_⟩
  · intro cs results hlisted h
    exact execute_of_completed hquiet (comes_of_complete hlisted h)
  · rw [execute_of_refused hquiet (comes_of_unlisted hlisted)]
    exact congrArg (Output.mk _ _) String.empty_append
  · exact ⟨execute_of_refused hquiet (comes_of_stopped hlisted h hc),
      run_results_of_stopped hlisted h hc⟩
  · cases hlisted : listed fs a.task with
    | error stop =>
      cases stop with
      | refusal m => exact .inr (.inl ⟨m, rfl⟩)
      | failure e => exact absurd (ending_of_failure (comes_of_unlisted hlisted)) (hending e)
    | ok cs =>
      rcases Run.complete_or_stopped fs (a.settings s) cs with
        ⟨results, h⟩ | ⟨done, c, rest, results, stop, rfl, h, hc⟩
      · exact .inl ⟨cs, results, rfl, h⟩
      · cases stop with
        | refusal m => exact .inr (.inr ⟨done, c, rest, results, m, rfl, h, hc⟩)
        | failure e => exact absurd (ending_of_failure (comes_of_stopped hlisted h hc)) (hending e)

/-- Three checks: a subject without a key, a subject that is missing, and a shape against itself. -/
def mixedFiles : Files := .ofList [
  (.ofText "s.json", .file "\x7b\x22a\x22: 1\x7d".toUTF8.toList),
  (.ofText "d.json", .file "\x7b\x7d".toUTF8.toList),
  (.ofText "m.json", .file ("\x7b\x22checks\x22: ["
    ++ "\x7b\x22shape\x22: \x22s.json\x22, \x22subject\x22: \x22d.json\x22\x7d, "
    ++ "\x7b\x22shape\x22: \x22s.json\x22, \x22subject\x22: \x22gone.json\x22\x7d, "
    ++ "\x7b\x22shape\x22: \x22s.json\x22, \x22subject\x22: \x22s.json\x22\x7d]\x7d").toUTF8.toList)]

example : run [] mixedFiles ["--manifest", "m.json"] = ⟨.exit 1, "",
    errorLine "Missing required key 'a' at /" ++ errorLine "Document not found: gone.json"⟩ := by
  decide +kernel

end Command
end Conform
