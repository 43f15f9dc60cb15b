import Conform.Command.Run
import Conform.Proofs.Document.Dumpable

/-!
# Diagnoses of failed reports

A failed report is logged message by message if the shape and the subject can both be dumped. If one
of them cannot, not a single message is logged, and the whole run ends without a result.
-/
namespace Conform

namespace Diagnosis

variable {r : Report} {shape subject : Document}

theorem lines_of_dumpable (hr : r.isOk = false) (hshape : Dumpable shape)
    (hsubject : Dumpable subject) :
    ∃ s t, shape.dump = .ok s ∧ subject.dump = .ok t ∧ lines r shape.dump subject.dump =
      (⟨Log.debugLevel, "Shape:\n" ++ s⟩ :: ⟨Log.debugLevel, "Subject:\n" ++ t⟩ ::
        r.messages.map fun m => ⟨Log.errorLevel, m⟩, .ok ()) := by
  obtain ⟨s, hs⟩ := shape.returns_dump_iff.mpr hshape
  obtain ⟨t, ht⟩ := subject.returns_dump_iff.mpr hsubject
  refine ⟨s, t, hs, ht, ?_⟩
  unfold lines
  rw [hr, hs, ht]
  rfl

theorem lines_of_not_dumpable (hr : r.isOk = false) (h : ¬ (Dumpable shape ∧ Dumpable subject)) :
    ∃ e, (lines r shape.dump subject.dump).2 = .error e ∧
      ∀ l ∈ (lines r shape.dump subject.dump).1, l.level = Log.debugLevel := by
  by_cases hshape : Dumpable shape
  · obtain ⟨s, hs⟩ := shape.returns_dump_iff.mpr hshape
    have hsubject : ¬ Returns subject.dump := fun ht =>
      h ⟨hshape, subject.returns_dump_iff.mp ht⟩
    obtain ⟨e, he⟩ := not_returns_iff.mp hsubject
    refine ⟨e, ?_⟩
    unfold lines
    rw [hr, hs, he]
    exact ⟨rfl, by simp⟩
  · obtain ⟨e, he⟩ := not_returns_iff.mp (mt shape.returns_dump_iff.mp hshape)
    refine ⟨e, ?_⟩
    unfold lines
    rw [hr, he]
    exact ⟨rfl, by simp⟩

end Diagnosis

namespace Command.Run

variable {p : Progress} {r : Report} {shape subject : Document}

/-- The record of a line. -/
def record (l : Diagnosis.Line) : Log.Record := ⟨commandName, l.level, l.message⟩

theorem run_log_lines (ls : List Diagnosis.Line) :
    ((ls.forM fun l => log commandName l.level l.message).run).run p =
      (.ok (), { p with records := p.records ++ ls.map record }) := by
  induction ls generalizing p with
  | nil =>
    rw [List.map_nil, List.append_nil]
    rfl
  | cons l ls ih =>
    have hrest := ih (p := { p with records := p.records ++ [record l] })
    rw [List.append_assoc] at hrest
    exact hrest

theorem run_diagnose (r : Report) (shape subject : Document) :
    ((diagnose r shape subject).run).run p =
      (((Diagnosis.lines r shape.dump subject.dump).2.mapError fun e => .failure (.dump e)),
        { p with records :=
          p.records ++ (Diagnosis.lines r shape.dump subject.dump).1.map record }) := by
  unfold diagnose
  obtain ⟨ls, dumped⟩ := Diagnosis.lines r shape.dump subject.dump
  simp only [ExceptT.run_bind, StateT.run_bind, run_log_lines]
  cases dumped with
  | ok u => rfl
  | error e => rfl

/-- The dumps, and then every message as an error. -/
theorem run_diagnose_of_dumpable (hr : r.isOk = false) (hshape : Dumpable shape)
    (hsubject : Dumpable subject) :
    ∃ s t, shape.dump = .ok s ∧ subject.dump = .ok t ∧
      ((diagnose r shape subject).run).run p = (.ok (), { p with records := p.records ++
        (⟨commandName, Log.debugLevel, "Shape:\n" ++ s⟩ ::
          ⟨commandName, Log.debugLevel, "Subject:\n" ++ t⟩ ::
          r.messages.map fun m => ⟨commandName, Log.errorLevel, m⟩) }) := by
  obtain ⟨s, t, hs, ht, hlines⟩ := Diagnosis.lines_of_dumpable hr hshape hsubject
  refine ⟨s, t, hs, ht, ?_⟩
  simp only [run_diagnose, hlines, List.map_cons, List.map_map]
  rfl

theorem run_diagnose_of_not_dumpable (hr : r.isOk = false)
    (h : ¬ (Dumpable shape ∧ Dumpable subject)) :
    ∃ e records, ((diagnose r shape subject).run).run p =
        (.error (.failure (.dump e)), { p with records := p.records ++ records }) ∧
      ∀ record ∈ records, record.level = Log.debugLevel := by
  obtain ⟨e, he, hlevel⟩ := Diagnosis.lines_of_not_dumpable hr h
  refine ⟨e, _, by rw [run_diagnose, he]; rfl, ?_⟩
  simpa [record] using hlevel

/-- What a check loads and finds, before anything is logged about the report. -/
def inspect (fs : Files) (s : Settings) (c : Check) : Run (Document × Document × Report) := do
  let shape ← load fs c.shape
  let subject ← load fs c.subject
  debug commandName ("Verifying " ++ c.subject.text ++ " against " ++ c.shape.text)
  let r ← verify { s with strict := c.strict.getD s.strict } shape subject
  return (shape, subject, r)

theorem check_eq_inspect (fs : Files) (s : Settings) (c : Check) :
    check fs s c = (do
      let (shape, subject, r) ← inspect fs s c
      diagnose r shape subject
      return ⟨c.name, r, some c.shape, some c.subject⟩) := by
  simp only [check, inspect, bind_assoc, pure_bind]

/-- A check of two documents that were loaded and compared goes on with the diagnosis. -/
theorem run_check_of_inspect {fs : Files} {s : Settings} {c : Check} {q : Progress}
    (h : ((inspect fs s c).run).run q = (.ok (shape, subject, r), p)) :
    ((check fs s c).run).run q =
      ((((diagnose r shape subject).run).run p).1.map fun _ =>
          ⟨c.name, r, some c.shape, some c.subject⟩,
        (((diagnose r shape subject).run).run p).2) := by
  rw [check_eq_inspect, ExceptT.run_bind, StateT.run_bind, h]
  show StateT.run (ExceptT.run (do diagnose r shape subject; return _)) p = _
  rw [ExceptT.run_bind, StateT.run_bind]
  obtain ⟨outcome, q⟩ := ((diagnose r shape subject).run).run p
  cases outcome with
  | ok u => rfl
  | error e => rfl

/-- The only check of a pair. -/
def pairCheck (shape subject : String) : Check :=
  ⟨subject, .ofText shape, .ofText subject, none⟩

theorem run_results_pair (fs : Files) (s : Settings) (shape subject : String) :
    ((results fs s (.pair shape subject)).run).run p =
      ((((check fs s (pairCheck shape subject)).run).run p).1.map fun r => [r],
        (((check fs s (pairCheck shape subject)).run).run p).2) := by
  have hresults : results fs s (.pair shape subject) = (do
      let r ← check fs s (pairCheck shape subject)
      return [r]) := by
    simp only [results, checks, pure_bind, List.mapM_cons, List.mapM_nil, pairCheck]
  rw [hresults, ExceptT.run_bind, StateT.run_bind]
  obtain ⟨outcome, q⟩ := ((check fs s (pairCheck shape subject)).run).run p
  cases outcome with
  | ok u => rfl
  | error e => rfl

end Command.Run

namespace Command

open Run (inspect pairCheck)

variable {fs : Files} {s : Settings} {a : Arguments}

theorem execute_of_results {outcome : Except Stop (List Result)} {p : Progress}
    (h : ((Run.results fs (a.settings s) a.task).run).run ⟨.start (a.settings s).caches, []⟩ =
      (outcome, p)) : execute fs s a = conclude (a.settings s) a.format outcome p.records := by
  dsimp only [execute]
  rw [h]

/-- A subject that does not match its shape is reported, with exit code 1, if both documents can be
dumped; otherwise the command fails without writing a report. -/
theorem execute_mismatch {shapeName subjectName : String}
    (ht : a.task = .pair shapeName subjectName) {shape subject : Document} {r : Report} {p : Progress}
    (hi : ((inspect fs (a.settings s) (pairCheck shapeName subjectName)).run).run
      ⟨.start (a.settings s).caches, []⟩ = (.ok (shape, subject, r), p))
    (hr : r.isOk = false) :
    (Dumpable shape ∧ Dumpable subject →
      (execute fs s a).ending = .exit 1 ∧
      ∃ records, execute fs s a = conclude (a.settings s) a.format
        (.ok [⟨subjectName, r, some (.ofText shapeName), some (.ofText subjectName)⟩]) records) ∧
    (¬ (Dumpable shape ∧ Dumpable subject) →
      ∃ e records, (execute fs s a).ending = .failure (.dump e) ∧
        execute fs s a = conclude (a.settings s) a.format (.error (.failure (.dump e))) records) := by
  have hresults := Run.run_results_pair (p := ⟨.start (a.settings s).caches, []⟩) fs (a.settings s)
    shapeName subjectName
  rw [← ht, Run.run_check_of_inspect hi] at hresults
  constructor
  · rintro ⟨hshape, hsubject⟩
    obtain ⟨s', t', -, -, hd⟩ := Run.run_diagnose_of_dumpable hr hshape hsubject
    rw [hd] at hresults
    rw [execute_of_results hresults]
    refine ⟨?_, _, rfl⟩
    simp [conclude, Except.map, hr]
  · intro h
    obtain ⟨e, records, hd, -⟩ := Run.run_diagnose_of_not_dumpable hr h
    rw [hd] at hresults
    rw [execute_of_results hresults]
    exact ⟨e, _, rfl, rfl⟩

namespace Run

/-- A failed report is logged in full, every message as an error and in order, if the shape and the
subject can be dumped. Otherwise the run stops, and no error has been logged. So a subject that does not
match its shape is reported by the command, with exit code 1, if both can be dumped, and otherwise the
command fails and writes no report. -/
theorem failed_report_logged_iff_dumpable (r : Report) (hr : r.isOk = false)
    (shape subject : Document) (p : Progress) :
    (Dumpable shape ∧ Dumpable subject →
      ∃ s t, shape.dump = .ok s ∧ subject.dump = .ok t ∧
        ((diagnose r shape subject).run).run p = (.ok (), { p with records := p.records ++
          (⟨commandName, Log.debugLevel, "Shape:\n" ++ s⟩ ::
            ⟨commandName, Log.debugLevel, "Subject:\n" ++ t⟩ ::
            r.messages.map fun m => ⟨commandName, Log.errorLevel, m⟩) })) ∧
    (¬ (Dumpable shape ∧ Dumpable subject) →
      ∃ e records, ((diagnose r shape subject).run).run p =
          (.error (.failure (.dump e)), { p with records := p.records ++ records }) ∧
        ∀ record ∈ records, record.level = Log.debugLevel) ∧
    ∀ (fs : Files) (s : Settings) (a : Arguments) (shapeName subjectName : String) (q : Progress),
      a.task = .pair shapeName subjectName →
      ((inspect fs (a.settings s) (pairCheck shapeName subjectName)).run).run
        ⟨.start (a.settings s).caches, []⟩ = (.ok (shape, subject, r), q) →
      (Dumpable shape ∧ Dumpable subject →
        (execute fs s a).ending = .exit 1 ∧
        ∃ records, execute fs s a = conclude (a.settings s) a.format
          (.ok [⟨subjectName, r, some (.ofText shapeName), some (.ofText subjectName)⟩]) records) ∧
      (¬ (Dumpable shape ∧ Dumpable subject) →
        ∃ e records, (execute fs s a).ending = .failure (.dump e) ∧
          execute fs s a = conclude (a.settings s) a.format (.error (.failure (.dump e))) records) :=
  ⟨fun ⟨hshape, hsubject⟩ => run_diagnose_of_dumpable hr hshape hsubject,
    run_diagnose_of_not_dumpable hr, fun _ _ _ _ _ _ ht hi => execute_mismatch ht hi hr⟩

/-- A shape of one key, and a subject with keys of two types. -/
def mixedKeyFiles : Files := .ofList [
  (.ofText "s.json", .file "\x7b\x22c\x22: null\x7d".toUTF8.toList),
  (.ofText "d.yaml", .file "1: x\na: y\n".toUTF8.toList)]

/-- The arguments that compare the two. -/
def mixedKeyArguments : Arguments := ⟨.pair "s.json" "d.yaml", .human, false, none, none⟩

/-- A report of one missing key, about a subject with keys of two types, and the command on two such
files. -/
theorem failed_report_logged_iff_dumpable_mixed :
    (∃ e records, ((diagnose
        (Report.empty.add ⟨.missingRequiredKey, "Missing required key 'c' at /", "/"⟩)
        (.tree (.mapping [(.str "c", .null)]))
        (.tree (.mapping [(.atom (.int 1), .str "x"), (.str "a", .str "y")]))).run).run
          ⟨.start false, []⟩ = (.error (.failure (.dump e)), ⟨.start false, [] ++ records⟩) ∧
      ∀ record ∈ records, record.level = Log.debugLevel) ∧
    ∃ e, (execute mixedKeyFiles .standard mixedKeyArguments).ending = .failure (.dump e) := by
  refine ⟨(failed_report_logged_iff_dumpable _ (by decide) _ _ _).2.1 (by decide +kernel), ?_⟩
  obtain ⟨⟨shape, subject, r⟩, hi, hr, hd⟩ : ∃ found : Document × Document × Report,
      (((inspect mixedKeyFiles .standard (pairCheck "s.json" "d.yaml")).run).run
        ⟨.start Settings.standard.caches, []⟩).1 = .ok found ∧ found.2.2.isOk = false ∧
      ¬ (Dumpable found.1 ∧ Dumpable found.2.1) := by
    decide +kernel
  have hcommand := (failed_report_logged_iff_dumpable r hr shape subject ⟨.start false, []⟩).2.2
    mixedKeyFiles .standard mixedKeyArguments "s.json" "d.yaml" _ rfl (Prod.ext hi rfl)
  obtain ⟨e, -, he, -⟩ := hcommand.2 hd
  exact ⟨e, he⟩

/-- A mapping that is read from a text may have keys of two types, and whatever a report says about it
is lost. -/
theorem mixed_keys_stop_diagnosis :
    ∃ shape, Document.decodeNamed "json" "\x7b\x22c\x22: null\x7d".toList = .ok shape ∧
    ∃ subject, Document.decodeNamed "yaml" "1: x\na: y\n".toList = .ok subject ∧
    ∃ r, (⟨100, false, by decide⟩ : Matcher).verify shape subject = .ok r ∧ r.isOk = false ∧
      r.messages = ["Missing required key 'c' at /"] ∧
      (((diagnose r shape subject).run).run ⟨.start false, []⟩).1 =
        .error (.failure (.dump (.order .unlikeTypes))) := by
  decide +kernel

end Run
end Command
end Conform
