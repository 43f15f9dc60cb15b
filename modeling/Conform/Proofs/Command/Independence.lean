import Conform.Proofs.Command.Alone

/-!
# Checks do not influence each other

The checks of a manifest share a loader, which may keep documents, and the manifest itself was read by it.
In a run that completes, the result of each check is nevertheless the one that the check has by itself,
with a loader that has kept nothing. Its report is a matter of the two documents, of the depth and of
whether the check is strict; what other checks there are, in what order, and whether they share a document
with it, has no part in it.
-/
namespace Conform

/-- What a loader that has kept nothing makes of a path is a matter of what the files hold there. -/
theorem Loader.fresh_congr_entry {fs fs' : Files} {p : Path} (h : fs'.entry? p = fs.entry? p)
    (asked : Option String) : fresh fs' p asked = fresh fs p asked := by
  unfold fresh load
  rw [h]

namespace Command

namespace Run

variable {α β : Type} {fs : Files} {s : Settings} {c : Check} {r : Result} {p q : Progress}

/-! ## Steps that return -/

theorem exists_of_run_bind_ok {x : Run α} {f : α → Run β} {b : β}
    (h : (((x >>= f).run).run p).1 = .ok b) :
    ∃ a q, (x.run).run p = (.ok a, q) ∧ (((f a).run).run q).1 = .ok b := by
  cases hx : (x.run).run p with
  | mk outcome q =>
    cases outcome with
    | ok a =>
      rw [run_bind_of_ok hx] at h
      exact ⟨a, q, rfl, h⟩
    | error stop =>
      rw [run_bind_of_error hx] at h
      cases h

theorem load_eq_ok {path : Path} {d : Document} (hp : p.loader.Faithful fs)
    (h : ((load fs path).run).run p = (.ok d, q)) :
    Loader.fresh fs path none = .ok d ∧ q.loader.Faithful fs := by
  rw [run_load, hp.result_load] at h
  obtain ⟨hresult, rfl⟩ := Prod.mk.inj h
  exact ⟨mapError_eq_ok_iff.mp hresult, hp.load path⟩

theorem verify_eq_ok {shape subject : Document} {report : Report}
    (h : (((verify s shape subject).run).run p).1 = .ok report) :
    ∃ m, Matcher.make s.maxDepth s.strict = .ok m ∧ m.verify shape subject = .ok report := by
  unfold verify Settings.matcher at h
  cases hm : Matcher.make s.maxDepth s.strict with
  | error e =>
    rw [hm] at h
    cases h
  | ok m =>
    rw [hm] at h
    dsimp only at h
    obtain ⟨u, q, -, h⟩ := exists_of_run_bind_ok h
    refine ⟨m, rfl, ?_⟩
    show (m.verifyWithRemarks shape subject).1 = .ok report
    cases hr : (m.verifyWithRemarks shape subject).1 with
    | ok r =>
      rw [hr] at h
      cases h
      rfl
    | error e =>
      rw [hr] at h
      cases h

/-! ## Reports -/

/-- The report on the documents of a check as the files hold them, by a matcher of its own. -/
def Reports (fs : Files) (depth : Int) (strict : Bool) (c : Check) (report : Report) : Prop :=
  ∃ shape subject m, Loader.fresh fs c.shape none = .ok shape ∧
    Loader.fresh fs c.subject none = .ok subject ∧
    Matcher.make depth strict = .ok m ∧ m.verify shape subject = .ok report

/-- There is one report. -/
theorem Reports.unique {depth : Int} {strict : Bool} {report report' : Report}
    (h : Reports fs depth strict c report) (h' : Reports fs depth strict c report') :
    report' = report := by
  obtain ⟨shape, subject, m, hshape, hsubject, hm, hreport⟩ := h
  obtain ⟨shape', subject', m', hshape', hsubject', hm', hreport'⟩ := h'
  obtain rfl : shape' = shape := Except.ok.inj (hshape'.symm.trans hshape)
  obtain rfl : subject' = subject := Except.ok.inj (hsubject'.symm.trans hsubject)
  obtain rfl : m' = m := Except.ok.inj (hm'.symm.trans hm)
  exact Except.ok.inj (hreport'.symm.trans hreport)

/-- A result tells the name and the paths of its check, and the report on its documents. -/
structure Answers (fs : Files) (s : Settings) (c : Check) (r : Result) : Prop where
  name : r.name = c.name
  shape : r.shape = some c.shape
  subject : r.subject = some c.subject
  report : Reports fs s.maxDepth (c.strict.getD s.strict) c r.report

theorem answers_of_check (hp : p.loader.Faithful fs) (h : (((check fs s c).run).run p).1 = .ok r) :
    Answers fs s c r := by
  unfold check at h
  obtain ⟨shape, q, hshape, h⟩ := exists_of_run_bind_ok h
  obtain ⟨hshape, hq⟩ := load_eq_ok hp hshape
  obtain ⟨subject, q, hsubject, h⟩ := exists_of_run_bind_ok h
  obtain ⟨hsubject, -⟩ := load_eq_ok hq hsubject
  obtain ⟨_, q, -, h⟩ := exists_of_run_bind_ok h
  obtain ⟨report, q, hverify, h⟩ := exists_of_run_bind_ok h
  obtain ⟨m, hm, hreport⟩ := verify_eq_ok (congrArg Prod.fst hverify)
  obtain ⟨_, q, -, h⟩ := exists_of_run_bind_ok h
  obtain rfl := Except.ok.inj h
  exact ⟨rfl, rfl, rfl, shape, subject, m, hshape, hsubject, hm, hreport⟩

theorem answers_of_alone (h : alone fs s c = .ok r) : Answers fs s c r :=
  answers_of_check (Loader.faithful_start fs false) h

/-- A loader that may keep documents has kept none yet. -/
theorem check_start (fs : Files) (s : Settings) (c : Check) (keeps : Bool) :
    (((check fs s c).run).run ⟨.start keeps, []⟩).1 = alone fs s c := by
  obtain ⟨l, rs, hrun, -⟩ := comes_check fs s c ⟨.start keeps, []⟩ (Loader.faithful_start fs keeps)
  rw [hrun]

end Run

open Run (Answers Complete Reports alone listed)

/-! ## Runs -/

/-- What the checks of a run come to. -/
def outcome (fs : Files) (s : Settings) (a : Arguments) : Except Stop (List Result) :=
  (((Run.results fs (a.settings s) a.task).run).run ⟨.start (a.settings s).caches, []⟩).1

variable {fs fs' : Files} {s s' : Settings} {a a' : Arguments} {results results' : List Result}

theorem exists_complete_of_outcome (h : outcome fs s a = .ok results) :
    ∃ cs, listed fs a.task = .ok cs ∧ Complete fs (a.settings s) cs results := by
  unfold outcome Run.results at h
  obtain ⟨cs, q, hchecks, h⟩ := Run.exists_of_run_bind_ok h
  obtain ⟨l, rs, hrun, hl, -⟩ := Run.comes_checks fs a.task ⟨.start (a.settings s).caches, []⟩
    (Loader.faithful_start fs _)
  rw [hrun] at hchecks
  obtain ⟨hlisted, rfl⟩ := Prod.mk.inj hchecks
  refine ⟨cs, hlisted, ?_⟩
  rcases Run.complete_or_stopped fs (a.settings s) cs with
    ⟨results', hcomplete⟩ | ⟨done, c, rest, results', stop, rfl, hdone, hc⟩
  · obtain ⟨l', rs', hrun', -⟩ := hcomplete.comes ⟨l, [] ++ rs⟩ hl
    rw [hrun'] at h
    cases h
    exact hcomplete
  · obtain ⟨l', rs', hrun', -⟩ := hdone.comes_stopped hc rest ⟨l, [] ++ rs⟩ hl
    rw [hrun'] at h
    cases h

/-- A manifest is listed as a loader that has kept nothing reads it. -/
theorem load_of_listed {p : Path} {cs : List Check} (h : listed fs (.manifest p) = .ok cs) :
    (Manifest.load fs (.start false) p).result = .ok cs := by
  have hrun := congrArg Prod.fst (@Run.run_loadManifest fs p ⟨.start false, []⟩)
  exact mapError_eq_ok_iff.mp (hrun.symm.trans h)

/-- Two checks of two runs that ask for the same: documents at the same paths, at which the files of both
runs hold the same, the same depth, and as strict as each other, whether they say so or the run does. -/
structure AsksSame (fs fs' : Files) (s s' : Settings) (c c' : Check) : Prop where
  shape : c'.shape = c.shape
  subject : c'.subject = c.subject
  atShape : fs'.entry? c.shape = fs.entry? c.shape
  atSubject : fs'.entry? c.subject = fs.entry? c.subject
  depth : s'.maxDepth = s.maxDepth
  strict : c'.strict.getD s'.strict = c.strict.getD s.strict

theorem AsksSame.report_eq {c c' : Check} {r r' : Result} (h : AsksSame fs fs' s s' c c')
    (hr : Answers fs s c r) (hr' : Answers fs' s' c' r') : r'.report = r.report := by
  refine hr.report.unique ?_
  obtain ⟨shape, subject, m, hshape, hsubject, hm, hreport⟩ := hr'.report
  rw [h.shape, Loader.fresh_congr_entry h.atShape] at hshape
  rw [h.subject, Loader.fresh_congr_entry h.atSubject] at hsubject
  rw [h.depth, h.strict] at hm
  exact ⟨shape, subject, m, hshape, hsubject, hm, hreport⟩

/-- The results of a run that completes answer its checks one by one. -/
theorem answers_of_outcome {p : Path} {cs : List Check} (htask : a.task = .manifest p)
    (hload : (Manifest.load fs (.start false) p).result = .ok cs) (h : outcome fs s a = .ok results) :
    ∀ e ∈ cs.zip results, Answers fs (a.settings s) e.1 e.2 := by
  obtain ⟨cs', hlisted, hcomplete⟩ := exists_complete_of_outcome h
  rw [htask] at hlisted
  obtain rfl : cs' = cs := Except.ok.inj ((load_of_listed hlisted).symm.trans hload)
  exact fun e he => Run.answers_of_alone (List.forall₂_iff_zip.mp hcomplete |>.2 he)

/-- **The checks of a manifest are independent.** In a run of a manifest that completes, with a loader that
keeps documents or not, the results are those of its checks in order. Each is what its check comes to by
itself with any loader that has kept nothing: it tells the name and the paths of the check, and the report
on the two documents as the files hold them, which is strict if the check says so, or else if the argument
or the environment does. A check in another run of a manifest that asks for the same has the same report,
whatever other checks there are in either run. -/
theorem checks_independent {p : Path} (htask : a.task = .manifest p)
    (h : outcome fs s a = .ok results) :
    (∃ log, execute fs s a = conclude (a.settings s) a.format (.ok results) log) ∧
    ∃ cs, (Manifest.load fs (.start false) p).result = .ok cs ∧
      List.Forall₂ (fun c r =>
        (∀ keeps, (((Run.check fs (a.settings s) c).run).run ⟨.start keeps, []⟩).1 = .ok r) ∧
        r.name = c.name ∧ r.shape = some c.shape ∧ r.subject = some c.subject ∧
        Reports fs (a.maxDepth.getD s.maxDepth) (c.strict.getD (a.strict || s.strict)) c r.report)
        cs results ∧
      ∀ fs' s' a' p' cs' results', a'.task = .manifest p' →
        (Manifest.load fs' (.start false) p').result = .ok cs' → outcome fs' s' a' = .ok results' →
        ∀ e ∈ cs.zip results, ∀ e' ∈ cs'.zip results',
          AsksSame fs fs' (a.settings s) (a'.settings s') e.1 e'.1 → e'.2.report = e.2.report := by
  refine ⟨⟨_, execute_of_results (Prod.ext h rfl)⟩, ?_⟩
  obtain ⟨cs, hlisted, hcomplete⟩ := exists_complete_of_outcome h
  rw [htask] at hlisted
  have hload := load_of_listed hlisted
  refine ⟨cs, hload, hcomplete.imp fun c r hc => ?_, ?_⟩
  · have hanswers := Run.answers_of_alone hc
    exact ⟨fun keeps => (Run.check_start fs _ c keeps).trans hc, hanswers.name, hanswers.shape,
      hanswers.subject, hanswers.report⟩
  · intro fs' s' a' p' cs' results' htask' hload' h' e he e' he' hsame
    exact hsame.report_eq (answers_of_outcome htask hload h e he)
      (answers_of_outcome htask' hload' h' e' he')

/-- Two manifests. One of them has a check of itself, and a strict one; the other has the same checks in
the other order and under other names, one of them strict because the run is. -/
def sharedFiles : Files := .ofList [
  (.ofText "s.json", .file "\x7b\x22a\x22: 1\x7d".toUTF8.toList),
  (.ofText "t.json", .file "\x7b\x22checks\x22: [1]\x7d".toUTF8.toList),
  (.ofText "d.json", .file "\x7b\x7d".toUTF8.toList),
  (.ofText "m.json", .file ("\x7b\x22checks\x22: ["
    ++ "\x7b\x22shape\x22: \x22s.json\x22, \x22subject\x22: \x22s.json\x22\x7d, "
    ++ "\x7b\x22shape\x22: \x22s.json\x22, \x22subject\x22: \x22d.json\x22, \x22strict\x22: true\x7d, "
    ++ "\x7b\x22shape\x22: \x22t.json\x22, \x22subject\x22: \x22m.json\x22\x7d]\x7d").toUTF8.toList),
  (.ofText "n.json", .file ("\x7b\x22checks\x22: ["
    ++ "\x7b\x22name\x22: \x22x\x22, \x22shape\x22: \x22t.json\x22, \x22subject\x22: \x22m.json\x22, "
    ++ "\x22strict\x22: false\x7d, "
    ++ "\x7b\x22name\x22: \x22y\x22, \x22shape\x22: \x22s.json\x22, "
    ++ "\x22subject\x22: \x22d.json\x22\x7d]\x7d").toUTF8.toList)]

/-- What the checks of one of the manifests come to. -/
def sharedOutcome (strict caches : Bool) (manifest : String) : Except Stop (List Result) :=
  outcome sharedFiles { Settings.standard with caches }
    ⟨.manifest (.ofText manifest), .human, strict, none, none⟩

theorem checks_independent_shared :
    ∃ r₁ r₂ r₃ r₁' r₂', sharedOutcome false true "m.json" = .ok [r₁, r₂, r₃] ∧
      sharedOutcome true false "n.json" = .ok [r₁', r₂'] ∧
      r₂.report.messages = ["Missing required key 'a' at /"] ∧
      r₁'.report = r₃.report ∧ r₂'.report = r₂.report := by
  have hchecks : (Manifest.load sharedFiles (.start false) (.ofText "m.json")).result =
      .ok [⟨"s.json", .ofText "s.json", .ofText "s.json", none⟩,
        ⟨"d.json", .ofText "s.json", .ofText "d.json", some true⟩,
        ⟨"m.json", .ofText "t.json", .ofText "m.json", none⟩] :=
    eq_ok_of_toOption (by decide +kernel)
  have hchecks' : (Manifest.load sharedFiles (.start false) (.ofText "n.json")).result =
      .ok [⟨"x", .ofText "t.json", .ofText "m.json", some false⟩,
        ⟨"y", .ofText "s.json", .ofText "d.json", none⟩] :=
    eq_ok_of_toOption (by decide +kernel)
  obtain ⟨results, hresults, hmessages⟩ : ∃ results,
      (sharedOutcome false true "m.json").toOption = some results ∧
        results.map (fun r => r.report.messages) = [[], ["Missing required key 'a' at /"], []] :=
    Option.map_eq_some_iff.mp (by decide +kernel)
  obtain ⟨results', hresults', hlength⟩ : ∃ results,
      (sharedOutcome true false "n.json").toOption = some results ∧ results.length = 2 :=
    Option.map_eq_some_iff.mp (by decide +kernel)
  obtain ⟨r₁, r₂, r₃, rfl⟩ := List.length_eq_three.mp
    ((List.length_map _).symm.trans (congrArg List.length hmessages))
  obtain ⟨r₁', r₂', rfl⟩ := List.length_eq_two.mp hlength
  have h := eq_ok_of_toOption hresults
  have h' := eq_ok_of_toOption hresults'
  obtain ⟨-, cs, hload, -, hsame⟩ := checks_independent (p := .ofText "m.json") rfl h
  obtain rfl := Except.ok.inj (hload.symm.trans hchecks)
  have hpairs := hsame sharedFiles .standard
    ⟨.manifest (.ofText "n.json"), .human, true, none, none⟩ (.ofText "n.json") _ _ rfl hchecks' h'
  refine ⟨r₁, r₂, r₃, r₁', r₂', h, h', ?_, ?_, ?_⟩
  · exact (List.cons.inj (List.cons.inj hmessages).2).1
  · exact hpairs _ (.tail _ (.tail _ (.head _))) _ (.head _) ⟨rfl, rfl, rfl, rfl, rfl, rfl⟩
  · exact hpairs _ (.tail _ (.head _)) _ (.tail _ (.head _)) ⟨rfl, rfl, rfl, rfl, rfl, rfl⟩

end Command
end Conform
