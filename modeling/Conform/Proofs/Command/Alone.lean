import Mathlib.Data.List.Forall2
import Conform.Proofs.Command.Diagnosis
import Conform.Proofs.Loading.Kept

/-!
# Checks taken by themselves

The checks of a run share a loader and a log. The loader keeps nothing but what the files hold, so a check
comes to the same in every run and by itself, and it tells the messages of its report and nothing else
above the level of debugging.
-/
namespace Conform

namespace Loader

variable {fs : Files} {l : Loader}

/-- A loader that keeps nothing but what the files hold. -/
def Faithful (fs : Files) (l : Loader) : Prop := ∀ p d, l.kept? p = some d → fresh fs p none = .ok d

theorem faithful_start (fs : Files) (keeps : Bool) : (start keeps).Faithful fs := by
  intro p d h
  rw [kept?_start] at h
  cases h

theorem Faithful.result_load (h : l.Faithful fs) (p : Path) :
    (load fs l p none).result = fresh fs p none := by
  cases hkept : l.kept? p with
  | none => exact (load_of_not_kept fs none hkept).1
  | some d =>
    have hfresh := h p d hkept
    by_cases hfile : ∃ bytes, fs.entry? p = some (.file bytes)
    · obtain ⟨bytes, hbytes⟩ := hfile
      rw [(load_of_kept none hbytes hkept).1, hfresh]
    · exact (load_of_no_file l none fun bytes hbytes => hfile ⟨bytes, hbytes⟩).1

theorem Faithful.load (h : l.Faithful fs) (p : Path) : (load fs l p none).loader.Faithful fs := by
  intro q d hq
  cases hkeeps : l.keeps with
  | false =>
    rw [kept?, keeps_load, hkeeps] at hq
    cases hq
  | true =>
    rw [kept?_load fs hkeeps, Option.or_eq_some_iff] at hq
    rcases hq with hq | ⟨-, hq⟩
    · exact h q d hq
    · split at hq
      · rename_i hpq
        subst hpq
        cases hfresh : fresh fs p none with
        | ok d' =>
          rw [hfresh] at hq
          cases hq
          rfl
        | error e =>
          rw [hfresh] at hq
          cases hq
      · cases hq

end Loader

namespace Command.Run

section Bind

variable {α β : Type} {x y : Run α} {f : α → Run β} {p q : Progress}

theorem run_bind_of_ok {a : α} (h : (x.run).run p = (.ok a, q)) :
    ((x >>= f).run).run p = ((f a).run).run q := by
  rw [ExceptT.run_bind, StateT.run_bind, h]
  rfl

theorem run_bind_of_error {stop : Stop} (h : (x.run).run p = (.error stop, q)) :
    ((x >>= f).run).run p = (.error stop, q) := by
  rw [ExceptT.run_bind, StateT.run_bind, h]
  rfl

theorem run_bind_congr (h : (x.run).run p = (y.run).run p) :
    ((x >>= f).run).run p = ((y >>= f).run).run p := by
  rw [ExceptT.run_bind, ExceptT.run_bind, StateT.run_bind, StateT.run_bind, h]

end Bind

variable {fs : Files} {α β : Type}

/-- The record of an error that the command tells. -/
def errorRecord (message : String) : Log.Record := ⟨commandName, Log.errorLevel, message⟩

/-- Whatever was loaded and logged before, as long as the loader is faithful, a run has this outcome and
tells these messages; everything else that it logs is for debugging, and its loader stays faithful. -/
def Comes (fs : Files) (x : Run α) (outcome : Except Stop α) (messages : List String) : Prop :=
  ∀ p : Progress, p.loader.Faithful fs → ∃ (l : Loader) (rs : List Log.Record),
    (x.run).run p = (outcome, ⟨l, p.records ++ rs⟩) ∧ l.Faithful fs ∧
    rs.filter (fun r => r.level ≠ Log.debugLevel) = messages.map errorRecord

namespace Comes

theorem pure (a : α) : Comes fs (Pure.pure a : Run α) (.ok a) [] :=
  fun p hp => ⟨p.loader, [], by rw [List.append_nil]; rfl, hp, rfl⟩

theorem throw (stop : Stop) : Comes fs (throw stop : Run α) (.error stop) [] :=
  fun p hp => ⟨p.loader, [], by rw [List.append_nil]; rfl, hp, rfl⟩

theorem bind {x : Run α} {f : α → Run β} {a : α} {outcome : Except Stop β} {ms ms' : List String}
    (hx : Comes fs x (.ok a) ms) (hf : Comes fs (f a) outcome ms') :
    Comes fs (x >>= f) outcome (ms ++ ms') := by
  intro p hp
  obtain ⟨l, rs, hrun, hl, htold⟩ := hx p hp
  obtain ⟨l', rs', hrun', hl', htold'⟩ := hf ⟨l, p.records ++ rs⟩ hl
  refine ⟨l', rs ++ rs', ?_, hl', by rw [List.filter_append, htold, htold', List.map_append]⟩
  rw [run_bind_of_ok hrun, ← List.append_assoc]
  exact hrun'

theorem bind_error {x : Run α} {f : α → Run β} {stop : Stop} {ms : List String}
    (hx : Comes fs x (.error stop) ms) : Comes fs (x >>= f) (.error stop) ms := by
  intro p hp
  obtain ⟨l, rs, hrun, hl, htold⟩ := hx p hp
  exact ⟨l, rs, run_bind_of_error hrun, hl, htold⟩

theorem debug (logger message : String) : Comes fs (debug logger message) (.ok ()) [] :=
  fun p hp => ⟨p.loader, [_], rfl, hp, rfl⟩

theorem forM {f : α → Run PUnit} (h : ∀ a, Comes fs (f a) (.ok ()) []) (xs : List α) :
    Comes fs (xs.forM f) (.ok ()) [] := by
  induction xs with
  | nil => exact pure _
  | cons x xs ih => exact (h x).bind ih

/-- A run comes to what it comes to with a loader that has kept nothing. -/
theorem outcome_eq {x : Run α} {outcome : Except Stop α} {ms : List String} (h : Comes fs x outcome ms) :
    ((x.run).run ⟨.start false, []⟩).1 = outcome := by
  obtain ⟨l, rs, hrun, -⟩ := h ⟨.start false, []⟩ (Loader.faithful_start fs false)
  rw [hrun]

end Comes

/-! ## Loads -/

/-- The record of a remark made on the way. -/
def remarks (remark : Option String) : List Log.Record :=
  (remark.map fun m => ⟨loaderName, Log.debugLevel, m⟩).toList

theorem run_take (l : Loader) (remark : Option String) (p : Progress) :
    ((take l remark).run).run p = (.ok (), ⟨l, p.records ++ remarks remark⟩) := by
  cases remark with
  | none =>
    rw [remarks, Option.map_none, Option.toList_none, List.append_nil]
    rfl
  | some m => rfl

theorem filter_remarks (remark : Option String) :
    (remarks remark).filter (fun r => r.level ≠ Log.debugLevel) = [] := by
  cases remark <;> rfl

theorem run_load (p : Path) (q : Progress) :
    ((load fs p).run).run q = ((Loader.load fs q.loader p none).result.mapError stopOfLoad,
      ⟨(Loader.load fs q.loader p none).loader,
        q.records ++ remarks (Loader.load fs q.loader p none).remark⟩) := by
  have hget : ((get : Run Progress).run).run q = (.ok q, q) := rfl
  unfold load
  rw [run_bind_of_ok hget]
  dsimp only
  rw [run_bind_of_ok (run_take _ _ _)]
  cases (Loader.load fs q.loader p none).result <;> rfl

theorem comes_load (fs : Files) (p : Path) :
    Comes fs (load fs p) ((Loader.fresh fs p none).mapError stopOfLoad) [] := by
  intro q hq
  refine ⟨_, _, ?_, hq.load p, filter_remarks (Loader.load fs q.loader p none).remark⟩
  rw [run_load, hq.result_load]

theorem run_loadManifest (p : Path) (q : Progress) :
    ((loadManifest fs p).run).run q = ((Manifest.load fs q.loader p).result.mapError stopOfManifest,
      ⟨(Loader.load fs q.loader p none).loader,
        q.records ++ remarks (Loader.load fs q.loader p none).remark⟩) := by
  have hget : ((get : Run Progress).run).run q = (.ok q, q) := rfl
  have hload : (Manifest.load fs q.loader p).loader = (Loader.load fs q.loader p none).loader ∧
      (Manifest.load fs q.loader p).remark = (Loader.load fs q.loader p none).remark := ⟨rfl, rfl⟩
  unfold loadManifest
  rw [run_bind_of_ok hget]
  dsimp only
  rw [run_bind_of_ok (run_take _ _ _), hload.1, hload.2]
  cases (Manifest.load fs q.loader p).result <;> rfl

theorem comes_loadManifest (p : Path) :
    Comes fs (loadManifest fs p)
      ((Manifest.load fs (.start false) p).result.mapError stopOfManifest) [] := by
  intro q hq
  refine ⟨_, _, ?_, hq.load p, filter_remarks (Loader.load fs q.loader p none).remark⟩
  have hresult : (Manifest.load fs q.loader p).result = (Manifest.load fs (.start false) p).result := by
    unfold Manifest.load
    dsimp only
    rw [hq.result_load p, (Loader.faithful_start fs false).result_load p]
  rw [run_loadManifest, hresult]

/-! ## Checks -/

theorem exists_comes_verify (fs : Files) (s : Settings) (shape subject : Document) :
    ∃ outcome, Comes fs (verify s shape subject) outcome [] := by
  unfold verify
  split
  · exact ⟨_, .throw _⟩
  · rename_i m hm
    dsimp only
    generalize m.verifyWithRemarks shape subject = found
    obtain ⟨r, texts⟩ := found
    have htexts : Comes fs (texts.forM (Run.debug matcherName)) (.ok ()) [] := .forM (.debug _) texts
    cases r with
    | ok r => exact ⟨_, htexts.bind (.pure r)⟩
    | error e => exact ⟨_, htexts.bind (.throw _)⟩

theorem comes_of_lines {r : Report} {shape subject : Document} {ls : List Diagnosis.Line}
    {dumped : Except DumpError Unit} {ms : List String}
    (h : Diagnosis.lines r shape.dump subject.dump = (ls, dumped))
    (hls : ls.filter (fun l => l.level ≠ Log.debugLevel) = ms.map fun m => ⟨Log.errorLevel, m⟩) :
    Comes fs (diagnose r shape subject) (dumped.mapError fun e => .failure (.dump e)) ms := by
  intro p hp
  refine ⟨p.loader, ls.map record, by rw [run_diagnose, h], hp, ?_⟩
  have hfilter : (ls.map record).filter (fun r => r.level ≠ Log.debugLevel) =
      (ls.filter fun l => l.level ≠ Log.debugLevel).map record := List.filter_map
  rw [hfilter, hls, List.map_map]
  rfl

/-- A diagnosis tells the messages of the report, or it stops and tells nothing. -/
theorem comes_diagnose (r : Report) (shape subject : Document) :
    Comes fs (diagnose r shape subject) (.ok ()) r.messages ∨
      ∃ stop, Comes fs (diagnose r shape subject) (.error stop) [] := by
  cases hr : r.isOk with
  | true =>
    have hmessages : r.messages = [] := by simpa [Report.isOk, Report.status] using hr
    have hlines : Diagnosis.lines r shape.dump subject.dump =
        ([⟨Log.debugLevel, "Subject matches the shape"⟩], .ok ()) := if_pos hr
    rw [hmessages]
    exact .inl (comes_of_lines hlines rfl)
  | false =>
    by_cases h : Dumpable shape ∧ Dumpable subject
    · obtain ⟨s, t, -, -, hlines⟩ := Diagnosis.lines_of_dumpable hr h.1 h.2
      refine .inl (comes_of_lines hlines ?_)
      rw [List.filter_cons_of_neg (by simp), List.filter_cons_of_neg (by simp), List.filter_eq_self]
      exact List.forall_mem_map.mpr fun _ _ => rfl
    · obtain ⟨e, he, hlevel⟩ := Diagnosis.lines_of_not_dumpable hr h
      have hlines : Diagnosis.lines r shape.dump subject.dump =
          ((Diagnosis.lines r shape.dump subject.dump).1, .error e) := Prod.ext rfl he
      refine .inr ⟨_, comes_of_lines hlines (List.filter_eq_nil_iff.mpr ?_)⟩
      simpa using hlevel

/-- What a check comes to by itself. -/
def alone (fs : Files) (s : Settings) (c : Check) : Except Stop Result :=
  (((check fs s c).run).run ⟨.start false, []⟩).1

/-- The messages that are told on the way to a result. -/
def messagesOf : Except Stop Result → List String
  | .ok r => r.report.messages
  | .error _ => []

/-- In every run a check comes to what it comes to by itself. -/
theorem comes_check (fs : Files) (s : Settings) (c : Check) :
    Comes fs (check fs s c) (alone fs s c) (messagesOf (alone fs s c)) := by
  -- That there is one outcome for every loader is enough: one that has kept nothing is among them.
  have hexists : ∃ outcome, Comes fs (check fs s c) outcome (messagesOf outcome) := by
    unfold check
    have hshape := comes_load fs c.shape
    have hsubject := comes_load fs c.subject
    cases hs : (Loader.fresh fs c.shape none).mapError stopOfLoad with
    | error stop =>
      rw [hs] at hshape
      exact ⟨.error stop, hshape.bind_error⟩
    | ok shape =>
      rw [hs] at hshape
      cases ht : (Loader.fresh fs c.subject none).mapError stopOfLoad with
      | error stop =>
        rw [ht] at hsubject
        exact ⟨.error stop, hshape.bind hsubject.bind_error⟩
      | ok subject =>
        rw [ht] at hsubject
        obtain ⟨found, hverify⟩ := exists_comes_verify fs
          { s with strict := c.strict.getD s.strict } shape subject
        cases found with
        | error stop =>
          exact ⟨.error stop, hshape.bind (hsubject.bind ((Comes.debug _ _).bind hverify.bind_error))⟩
        | ok r =>
          rcases comes_diagnose r shape subject with hdiagnose | ⟨stop, hdiagnose⟩
          · refine ⟨.ok ⟨c.name, r, some c.shape, some c.subject⟩, ?_⟩
            rw [messagesOf, ← List.append_nil r.messages]
            exact hshape.bind (hsubject.bind ((Comes.debug _ _).bind
              (hverify.bind (hdiagnose.bind (.pure _)))))
          · exact ⟨.error stop, hshape.bind (hsubject.bind ((Comes.debug _ _).bind
              (hverify.bind hdiagnose.bind_error)))⟩
  obtain ⟨outcome, h⟩ := hexists
  have houtcome : alone fs s c = outcome := h.outcome_eq
  rw [houtcome]
  exact h

/-! ## Lists of checks -/

/-- What a task lists by itself. -/
def listed (fs : Files) (t : Task) : Except Stop (List Check) :=
  (((checks fs t).run).run ⟨.start false, []⟩).1

theorem comes_checks (fs : Files) (t : Task) : Comes fs (checks fs t) (listed fs t) [] := by
  have hexists : ∃ outcome, Comes fs (checks fs t) outcome [] := by
    cases t with
    | manifest p => exact ⟨_, comes_loadManifest p⟩
    | pair shape subject => exact ⟨_, .pure _⟩
  obtain ⟨outcome, h⟩ := hexists
  have houtcome : listed fs t = outcome := h.outcome_eq
  rw [houtcome]
  exact h

variable {s : Settings} {c : Check} {cs done rest : List Check} {results : List Result} {stop : Stop}

/-- Checks that come to results by themselves, in order. -/
abbrev Complete (fs : Files) (s : Settings) (cs : List Check) (results : List Result) : Prop :=
  List.Forall₂ (fun c r => alone fs s c = .ok r) cs results

theorem Complete.comes (h : Complete fs s cs results) :
    Comes fs (cs.mapM (check fs s)) (.ok results) (results.flatMap fun r => r.report.messages) := by
  induction h with
  | nil => exact .pure []
  | @cons c r cs results hc _ ih =>
    have hcheck := comes_check fs s c
    rw [hc] at hcheck
    rw [List.mapM_cons, List.flatMap_cons, ← List.append_nil (results.flatMap _)]
    exact hcheck.bind (ih.bind (.pure _))

/-- A check that stops ends the whole list, and the results before it are only told. -/
theorem Complete.comes_stopped (h : Complete fs s done results) (hc : alone fs s c = .error stop)
    (rest : List Check) :
    Comes fs ((done ++ c :: rest).mapM (check fs s)) (.error stop)
      (results.flatMap fun r => r.report.messages) := by
  induction h with
  | nil =>
    have hcheck := comes_check fs s c
    rw [hc] at hcheck
    rw [List.nil_append, List.mapM_cons]
    exact hcheck.bind_error
  | @cons c' r done results hc' _ ih =>
    have hcheck := comes_check fs s c'
    rw [hc'] at hcheck
    rw [List.cons_append, List.mapM_cons, List.flatMap_cons]
    exact hcheck.bind ih.bind_error

/-- The checks after one that stops are not run. -/
theorem Complete.run_stopped (h : Complete fs s done results) (hc : alone fs s c = .error stop)
    (rest : List Check) {p : Progress} (hp : p.loader.Faithful fs) :
    (((done ++ c :: rest).mapM (check fs s)).run).run p =
      (((done ++ [c]).mapM (check fs s)).run).run p := by
  induction h generalizing p with
  | nil =>
    have hcheck := comes_check fs s c
    rw [hc] at hcheck
    obtain ⟨l, rs, hrun, -⟩ := hcheck p hp
    rw [List.nil_append, List.nil_append, List.mapM_cons, List.mapM_cons, run_bind_of_error hrun,
      run_bind_of_error hrun]
  | @cons c' r done results hc' _ ih =>
    have hcheck := comes_check fs s c'
    rw [hc'] at hcheck
    obtain ⟨l, rs, hrun, hl, -⟩ := hcheck p hp
    rw [List.cons_append, List.cons_append, List.mapM_cons, List.mapM_cons, run_bind_of_ok hrun,
      run_bind_of_ok hrun]
    exact run_bind_congr (ih hl)

/-- Checks are all completed, or one of them stops after those before it are completed. -/
theorem complete_or_stopped (fs : Files) (s : Settings) (cs : List Check) :
    (∃ results, Complete fs s cs results) ∨
      ∃ done c rest results stop, cs = done ++ c :: rest ∧ Complete fs s done results ∧
        alone fs s c = .error stop := by
  induction cs with
  | nil => exact .inl ⟨[], .nil⟩
  | cons c cs ih =>
    cases hc : alone fs s c with
    | error stop => exact .inr ⟨[], c, cs, [], stop, rfl, .nil, hc⟩
    | ok r =>
      rcases ih with ⟨results, h⟩ | ⟨done, c', rest, results, stop, rfl, h, hc'⟩
      · exact .inl ⟨r :: results, .cons hc h⟩
      · exact .inr ⟨c :: done, c', rest, r :: results, stop, rfl, .cons hc h, hc'⟩

end Command.Run
end Conform
