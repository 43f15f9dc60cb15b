import Mathlib.Data.List.TakeWhile
import Conform.Proofs.Matching.Acts

/-!
# Runs of a walk

A walk changes a pointer and adds to a report that all its levels share. Run at any trail, it does
what its unfolding lists for the pointer of that trail: the acts are carried out in order, up to the
first fault or the first entry for which no level is left, and the pointer is the former one in the end.

Under a wildcard the last segment is renamed for every member. `RunsUnder` follows such a loop: the
segments below the last one are never touched, and leaving the block cuts the last one off.
-/
namespace Conform.Matching

variable {S X : Type}

/-- What acts make of a trail. They end at the first entry, and `stop` says why, or at a fault. -/
def play (stop : Pointer → WalkError) : List (Act S X) → Trail → Except WalkError Unit × Trail
  | [], t => (.ok (), t)
  | .issue i :: as, t => play stop as { t with report := t.report.add i }
  | .remark text :: as, t => play stop as { t with remarks := t.remarks ++ [text] }
  | .enter p _ _ :: _, t => (.error (stop p), t)
  | .fault :: _, t => (.error .unwritable, t)

section Play

variable (stop : Pointer → WalkError)

theorem play_append (as bs : List (Act S X)) (t : Trail) :
    play stop (as ++ bs) t =
      match play stop as t with
      | (.ok (), t') => play stop bs t'
      | (.error e, t') => (.error e, t') := by
  induction as generalizing t with
  | nil => rfl
  | cons a as ih =>
    cases a with
    | issue i => exact ih _
    | remark text => exact ih _
    | enter p shape subject => rfl
    | fault => rfl

/-- Acts carry their pointers with them: they neither read nor change that of the trail. -/
theorem play_at (as : List (Act S X)) (t : Trail) (q : Pointer) :
    play stop as { t with pointer := q } =
      ((play stop as t).1, { (play stop as t).2 with pointer := q }) := by
  induction as generalizing t with
  | nil => rfl
  | cons a as ih =>
    cases a with
    | issue i => exact ih { t with report := t.report.add i }
    | remark text => exact ih { t with remarks := t.remarks ++ [text] }
    | enter p shape subject => rfl
    | fault => rfl

@[simp] theorem pointer_play (as : List (Act S X)) (t : Trail) :
    (play stop as t).2.pointer = t.pointer := by
  have h := play_at stop as t t.pointer
  rw [← show t = { t with pointer := t.pointer } from rfl] at h
  exact congrArg (fun r => r.2.pointer) h

end Play

/-- At the pointer `p`, the walk does what the acts say. -/
def Runs (stop : Pointer → WalkError) (w : Walk Unit) (p : Pointer) (as : List (Act S X)) : Prop :=
  ∀ t : Trail, t.pointer = p → w.run t = play stop as t

/-- One segment below `p`, the walk does what the acts say and may rename that segment. -/
def RunsUnder (stop : Pointer → WalkError) (w : Walk Unit) (p : Pointer)
    (as : List (Act S X)) : Prop :=
  ∀ (t : Trail) (former : String), t.pointer = p.push former →
    ∃ last : String, w.run t =
      ((play stop as t).1, { (play stop as t).2 with pointer := p.push last })

section Steps

variable {stop : Pointer → WalkError} {p : Pointer} {w v : Walk Unit} {as bs : List (Act S X)}

theorem runs_pure (p : Pointer) : Runs stop (pure ()) p ([] : List (Act S X)) :=
  fun t _ => Walk.run_pure t ()

theorem runs_bind (hw : Runs stop w p as) (hv : Runs stop v p bs) :
    Runs stop (w >>= fun _ => v) p (as ++ bs) := by
  intro t ht
  rw [Walk.run_bind, hw t ht, play_append]
  have hp := pointer_play stop as t
  rcases h : play stop as t with ⟨e | u, t'⟩
  · rfl
  · rw [h] at hp
    exact hv t' (hp.trans ht)

theorem runs_add (p : Pointer) (kind : IssueKind) (message : String → String) :
    Runs stop (Walk.add kind message) p [(.found kind message p : Act S X)] := by
  rintro t rfl
  exact Walk.run_add t kind message

theorem runs_remark (p : Pointer) (message : String → String) :
    Runs stop (Walk.remark message) p [(.remark (message p.render) : Act S X)] := by
  rintro t rfl
  exact Walk.run_remark t message

theorem runs_forM {α : Type} (xs : List α) (f : α → Walk Unit) (g : α → List (Act S X))
    (h : ∀ x ∈ xs, Runs stop (f x) p (g x)) : Runs stop (xs.forM f) p (xs.flatMap g) := by
  induction xs with
  | nil => exact runs_pure p
  | cons x xs ih =>
    exact runs_bind (h x List.mem_cons_self) (ih fun y hy => h y (List.mem_cons_of_mem x hy))

/-- What is known by the text of a key is missing where the key is at fault. -/
theorem runs_written {α : Type} {key : Key} {a : α} {f : α → Walk Unit} (hf : Runs stop (f a) p as) :
    Runs stop (Walk.written (if key.isWritable then some a else none) >>= f) p (textActs key ++ as) := by
  intro t ht
  unfold textActs
  cases key.isWritable with
  | true => exact hf t ht
  | false => rfl

theorem runsUnder_written {α : Type} {key : Key} {a : α} {f : α → Walk Unit}
    (hf : RunsUnder stop (f a) p as) :
    RunsUnder stop (Walk.written (if key.isWritable then some a else none) >>= f) p
      (textActs key ++ as) := by
  intro t former ht
  unfold textActs
  cases key.isWritable with
  | true => exact hf t former ht
  | false =>
    refine ⟨former, ?_⟩
    rw [← ht]
    rfl

theorem runsUnder_pure (p : Pointer) : RunsUnder stop (pure ()) p ([] : List (Act S X)) := by
  intro t former ht
  refine ⟨former, ?_⟩
  rw [← ht]
  rfl

theorem runsUnder_bind (hw : RunsUnder stop w p as) (hv : RunsUnder stop v p bs) :
    RunsUnder stop (w >>= fun _ => v) p (as ++ bs) := by
  intro t former ht
  obtain ⟨middle, hmiddle⟩ := hw t former ht
  rw [Walk.run_bind, hmiddle, play_append]
  rcases h : play stop as t with ⟨e | u, t'⟩
  · exact ⟨middle, rfl⟩
  · obtain ⟨last, hlast⟩ := hv { t' with pointer := p.push middle } middle rfl
    refine ⟨last, hlast.trans ?_⟩
    rw [play_at]

theorem runsUnder_forM {α : Type} (xs : List α) (f : α → Walk Unit) (g : α → List (Act S X))
    (h : ∀ x ∈ xs, RunsUnder stop (f x) p (g x)) :
    RunsUnder stop (xs.forM f) p (xs.flatMap g) := by
  induction xs with
  | nil => exact runsUnder_pure p
  | cons x xs ih =>
    exact runsUnder_bind (h x List.mem_cons_self) (ih fun y hy => h y (List.mem_cons_of_mem x hy))

/-- After a renaming the walk runs at the renamed pointer. -/
theorem runsUnder_rename {segment : String} (hw : Runs stop w (p.push segment) as) :
    RunsUnder stop (Walk.rename segment >>= fun _ => w) p as := by
  intro t former ht
  refine ⟨segment, ?_⟩
  rw [Walk.run_bind, Walk.run_rename t segment ht]
  exact (hw _ rfl).trans (play_at stop as t _)

/-- Leaving a block cuts off its last segment, whatever that has become. -/
theorem run_descend_of_run {t : Trail} {segment last : String}
    (h : w.run { t with pointer := t.pointer.push segment } =
      ((play stop as t).1, { (play stop as t).2 with pointer := t.pointer.push last })) :
    (Walk.descend segment w).run t = play stop as t := by
  have hp := pointer_play stop as t
  rw [Walk.run_descend, h]
  simp only [Pointer.cut_push]
  rw [← hp]

theorem runs_descend {segment : String} (hw : Runs stop w (p.push segment) as) :
    Runs stop (Walk.descend segment w) p as := by
  rintro t rfl
  exact run_descend_of_run ((hw _ rfl).trans (play_at stop as t _))

theorem runs_descend_of_under {segment : String} (hw : RunsUnder stop w p as) :
    Runs stop (Walk.descend segment w) p as := by
  rintro t rfl
  obtain ⟨last, hlast⟩ := hw { t with pointer := t.pointer.push segment } segment rfl
  rw [play_at] at hlast
  exact run_descend_of_run hlast

end Steps

section Played

variable (stop : Pointer → WalkError)

/-- The acts before the first one that stops the walk. -/
def reached (as : List (Act S X)) : List (Act S X) := as.takeWhile fun a => !a.stops

def issuesOf (as : List (Act S X)) : List Issue := as.filterMap Act.issue?

theorem reached_of_finished {as : List (Act S X)} (h : Finished as) : reached as = as := by
  refine List.takeWhile_eq_self_iff.mpr fun a ha => ?_
  rw [h a ha]
  rfl

/-- The report grows by the issues that are reached, and by nothing else. -/
theorem report_play (as : List (Act S X)) (t : Trail) :
    (play stop as t).2.report = t.report.addAll (issuesOf (reached as)) := by
  induction as generalizing t with
  | nil => exact (Report.addAll_nil t.report).symm
  | cons a as ih =>
    cases a with
    | issue i => exact (ih _).trans (Report.addAll_cons i _ t.report).symm
    | remark text => exact ih _
    | enter p shape subject => exact (Report.addAll_nil t.report).symm
    | fault => exact (Report.addAll_nil t.report).symm

/-- How acts end does not depend on the trail. -/
theorem result_play (as : List (Act S X)) (t t' : Trail) :
    (play stop as t).1 = (play stop as t').1 := by
  induction as generalizing t t' with
  | nil => rfl
  | cons a as ih =>
    cases a with
    | issue i => exact ih _ _
    | remark text => exact ih _ _
    | enter p shape subject => rfl
    | fault => rfl

theorem play_ok_iff (as : List (Act S X)) (t : Trail) :
    (play stop as t).1 = .ok () ↔ Finished as := by
  induction as generalizing t with
  | nil => simp [play, Finished]
  | cons a as ih =>
    cases a with
    | issue i => simpa [play, Finished] using ih { t with report := t.report.add i }
    | remark text => simpa [play, Finished] using ih { t with remarks := t.remarks ++ [text] }
    | enter p shape subject => simp [play, Finished]
    | fault => simp [play, Finished]

end Played

section Level

variable {stop : Pointer → WalkError}
variable {below : S → X → Walk Unit} {f : Pointer → S → X → List (Act S X)}
variable (hb : ∀ p shape subject, Runs stop (below shape subject) p (f p shape subject))
include hb

/-! One level, if the levels below it do what `f` says. -/

/-- The elements of a sequence are checked one after the other, at the pointer of the sequence. -/
theorem runs_elements (p : Pointer) (template : S) (xs : List X) :
    Runs stop
      (if xs.isEmpty then Walk.add .emptyArray nothingInArray else xs.forM fun x => below template x)
      p ((if xs.isEmpty then [.found .emptyArray nothingInArray p]
        else xs.map fun x => .enter p template x).flatMap (Act.expand f)) := by
  cases xs with
  | nil => exact runs_add p _ _
  | cons x xs =>
    simp only [List.isEmpty_cons, Bool.false_eq_true, if_false, List.flatMap_map, Act.expand]
    exact runs_forM _ _ _ fun y _ => hb p template y

variable [Node X]

theorem runs_checkArray (p : Pointer) (shape : List S) (subject : X) :
    Runs stop (checkArray below shape subject) p
      ((arrayActs p shape subject).flatMap (Act.expand f)) := by
  unfold checkArray arrayActs
  cases Node.view subject with
  | null => exact runs_add p _ _
  | scalar s => exact runs_add p _ _
  | mapping es => exact runs_add p _ _
  | sequence form xs =>
    cases shape with
    | nil => exact runs_pure p
    | cons template more =>
      have helements := runs_elements hb p template xs
      cases more with
      | nil => exact helements
      | cons second more => exact runs_bind (runs_remark p _) helements

theorem runs_checkObject (p : Pointer) (shape : S) (entries : Entries S) (subject : X) :
    Runs stop (checkObject below shape entries subject) p
      ((objectActs p shape entries subject).flatMap (Act.expand f)) := by
  unfold checkObject objectActs
  cases Node.view subject with
  | null => exact runs_add p _ _
  | scalar s => exact runs_add p _ _
  | sequence form xs => exact runs_add p _ _
  | mapping es =>
    cases entries with
    | nil => exact runs_pure p
    | cons e entries => simpa [Act.expand] using hb p shape subject

variable [Node S]

theorem runs_checkValue (p : Pointer) (shape : S) (subject : X) :
    Runs stop (checkValue below shape subject) p
      ((valueActs p shape subject).flatMap (Act.expand f)) := by
  unfold checkValue valueActs
  cases Node.view shape with
  | null => exact runs_pure p
  | scalar s => exact runs_pure p
  | sequence form elements => exact runs_checkArray hb p elements subject
  | mapping entries => exact runs_checkObject hb p shape entries subject

/-- The loop over the members renames the last segment, and nothing below it. -/
theorem runsUnder_checkMembers (p : Pointer) (shape : S) (subject : X) :
    RunsUnder stop (checkMembers below shape subject) p
      (((members subject).flatMap fun m =>
        nameActs shape m.1 ++ memberActs (p.push m.1.text) shape m.2).flatMap (Act.expand f)) := by
  have hnone : (members subject).flatMap (fun _ => ([] : List (Act S X))) = [] := by simp
  simp only [List.flatMap_assoc, List.flatMap_append]
  unfold checkMembers nameActs memberActs
  cases Node.view shape with
  | null => simpa only [List.flatMap_nil, List.append_nil, hnone] using runsUnder_pure p
  | scalar s => simpa only [List.flatMap_nil, List.append_nil, hnone] using runsUnder_pure p
  | sequence form elements =>
    refine runsUnder_forM _ _ _ fun m _ => ?_
    dsimp only
    rw [flatMap_expand_textActs]
    exact runsUnder_written (runsUnder_rename (runs_checkArray hb (p.push m.1.text) elements m.2))
  | mapping entries =>
    refine runsUnder_forM _ _ _ fun m _ => ?_
    dsimp only
    rw [flatMap_expand_textActs]
    refine runsUnder_written (runsUnder_rename ?_)
    simpa [Act.expand] using hb (p.push m.1.text) shape m.2

theorem runs_checkMarked (p : Pointer) (subject : X) (entry : Key × S) :
    Runs stop (checkMarked below subject entry (Marker.ofKey entry.1)) p
      ((markedActs p subject entry).flatMap (Act.expand f)) := by
  unfold checkMarked markedActs
  dsimp only
  cases (Marker.ofKey entry.1).kind with
  | wildcard =>
    cases acceptsWildcard subject with
    | true => exact runs_descend_of_under (runsUnder_checkMembers hb p entry.2 subject)
    | false => exact runs_add p _ _
  | optional =>
    cases entry? (Marker.ofKey entry.1) entry.1 subject with
    | some value => exact runs_descend (runs_checkValue hb _ entry.2 value)
    | none => exact runs_pure p
  | exact =>
    cases entry? (Marker.ofKey entry.1) entry.1 subject with
    | some value => exact runs_descend (runs_checkValue hb _ entry.2 value)
    | none => exact runs_add p _ _

theorem runs_checkEntry (p : Pointer) (subject : X) (entry : Key × S) :
    Runs stop (checkEntry below subject entry) p
      ((entryActs p subject entry).flatMap (Act.expand f)) := by
  rw [entryActs, List.flatMap_append, flatMap_expand_textActs]
  exact runs_written (runs_checkMarked hb p subject entry)

theorem runs_level (p : Pointer) (shape : S) (subject : X) :
    Runs stop (level below shape subject) p ((acts p shape subject).flatMap (Act.expand f)) := by
  have hvalue := runs_checkValue hb p shape subject
  unfold level acts
  cases Node.view shape with
  | null => exact hvalue
  | scalar s => exact hvalue
  | sequence form elements => exact hvalue
  | mapping entries =>
    rw [List.flatMap_assoc]
    exact runs_forM _ _ _ fun e _ => runs_checkEntry hb p subject e

end Level

variable [Node S] [Node X]

/-- A walk does what its unfolding over as many levels says. -/
theorem runs_walk (stop : Pointer → WalkError) (n : Nat) (p : Pointer) (shape : S) (subject : X) :
    Runs stop (walk stop n shape subject) p (unfolding n p shape subject) := by
  induction n generalizing p shape subject with
  | zero => rintro t rfl; rfl
  | succ n ih => exact runs_level ih p shape subject

/-- So many levels, or those of them that the stack holds. -/
def capped (stack : Option Nat) (levels : Nat) : Nat :=
  match stack with
  | none => levels
  | some held => min held levels

theorem capped_le (stack : Option Nat) (levels : Nat) : capped stack levels ≤ levels := by
  cases stack with
  | none => exact Nat.le_refl _
  | some held => exact Nat.min_le_right _ _

theorem lt_capped_iff {stack : Option Nat} {levels n : Nat} :
    n < capped stack levels ↔ n < levels ∧ ∀ held ∈ stack, n < held := by
  cases stack with
  | none => simp [capped]
  | some held =>
    simp only [capped, Option.mem_def, Option.some.injEq, forall_eq']
    omega

theorem capped_mono (stack : Option Nat) {m n : Nat} (h : m ≤ n) :
    capped stack m ≤ capped stack n := by
  cases stack with
  | none => exact h
  | some held =>
    simp only [capped]
    omega

theorem levels_mono (depth : Int) {limit limit' : Int} (h : limit ≤ limit') :
    levels limit depth ≤ levels limit' depth := by
  unfold levels
  omega

/-- Why a walk stops on a stack: for the limit, unless the stack holds fewer levels than that allows. -/
def stopOn (stack : Option Nat) (limit depth : Int) (p : Pointer) : WalkError :=
  match stack with
  | none => .tooDeep limit p.render
  | some held => if levels limit depth ≤ held then .tooDeep limit p.render else .stackExhausted

/-- On any stack and with any limit a walk does what its unfolding over so many levels says. -/
theorem runs_stopOn (stack : Option Nat) (limit depth : Int) (shape : S) (subject : X) (p : Pointer) :
    Runs (stopOn stack limit depth) (walkOn stack limit depth shape subject) p
      (unfolding (capped stack (levels limit depth)) p shape subject) := by
  cases stack with
  | none => exact runs_walk _ _ p shape subject
  | some held =>
    by_cases h : levels limit depth ≤ held
    · have hstop : stopOn (some held) limit depth = fun p => .tooDeep limit p.render :=
        funext fun p => if_pos h
      rw [hstop, walkOn, if_pos h, capped, Nat.min_eq_right h]
      exact runs_walk _ _ p shape subject
    · have hstop : stopOn (some held) limit depth = fun _ => .stackExhausted :=
        funext fun p => if_neg h
      rw [hstop, walkOn, if_neg h, capped, Nat.min_eq_left (Nat.le_of_not_le h)]
      exact runs_walk _ _ p shape subject

theorem runs_walkOn (stack : Option Nat) (limit depth : Int) (shape : S) (subject : X)
    (p : Pointer) :
    ∃ stop, Runs stop (walkOn stack limit depth shape subject) p
      (unfolding (capped stack (levels limit depth)) p shape subject) :=
  ⟨_, runs_stopOn stack limit depth shape subject p⟩

theorem exists_run_walkOn (stack : Option Nat) (limit depth : Int) (shape : S) (subject : X)
    (p : Pointer) :
    ∃ stop n, n ≤ levels limit depth ∧
      Runs stop (walkOn stack limit depth shape subject) p (unfolding n p shape subject) := by
  obtain ⟨stop, hrun⟩ := runs_walkOn stack limit depth shape subject p
  exact ⟨stop, _, capped_le stack _, hrun⟩

end Conform.Matching
