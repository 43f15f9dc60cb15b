import Conform.Proofs.Lint.Visits
import Conform.Proofs.Matching.Bare
import Conform.Proofs.Matching.Keys
import Conform.Proofs.Returns

/-!
# No operation of a walk faults

If every key in the shape and in the subject has a text, then a walk by bare operations does what the walk
does, step by step: each operation is only reached where its test has been passed. A key that was found is
found again by the lookup, the first element is taken of a sequence that has one, members are taken of a
collection, and the last segment is renamed inside a block. So a walk ends, or it stops for its limit.
-/
namespace Conform

namespace Bare

/-! ## Operations behind their tests -/

section Operations

variable {S X : Type} [Node X] {marker : Marker} {key : Key} {subject value : X}

theorem text_of_writable (h : key.isWritable = true) : text key = .ok key.text := if_pos h

theorem marker_of_writable (h : key.isWritable = true) : Bare.marker key = .ok (Marker.ofKey key) := by
  unfold Bare.marker Marker.ofKey
  rw [text_of_writable h]
  split
  · rfl
  · cases Marker.optionalNameOf? key <;> rfl

/-- A key is found exactly if there is an entry for it. -/
theorem hasEntry_eq (marker : Marker) (key : Key) (subject : X) :
    hasEntry marker key subject = (Matching.entry? marker key subject).isSome := by
  unfold hasEntry Matching.entry?
  cases Node.view subject with
  | mapping es =>
    simp only [Entries.has_eq_isSome_get?]
    cases es.get? (.str marker.name) <;> cases key.string? <;> simp
  | _ => rfl

/-- A key that was found is not missed: by the name if that is there, or else by the key itself. -/
theorem lookup_of_found (h : Matching.entry? marker key subject = some value) :
    lookup marker key subject = .ok value := by
  unfold Matching.entry? at h
  unfold lookup
  cases hx : Node.view subject with
  | mapping es =>
    simp only [hx] at h
    dsimp only
    rw [Entries.has_eq_isSome_get?]
    cases hname : es.get? (.str marker.name) with
    | some other =>
      rw [hname] at h
      cases h
      simp [entry, hname]
    | none =>
      rw [hname] at h
      cases hkey : key.string? with
      | some s => simp [hkey] at h
      | none =>
        have hget : es.get? key = some value := by simpa [hkey] using h
        simp [entry, hget]
  | _ => simp [hx] at h

/-- A value that a wildcard accepts has members. -/
theorem members_of_accepted (h : Matching.acceptsWildcard subject = true) (hx : KeysWritable subject) :
    members subject = .ok ((Matching.members subject).map fun m => (.ok m.1.text, m.2)) := by
  unfold Matching.acceptsWildcard at h
  unfold members Matching.members
  cases hv : Node.view subject with
  | null => simp [hv] at h
  | scalar s => simp [hv] at h
  | sequence form xs => simp
  | mapping es =>
    refine congrArg _ (List.map_congr_left fun e he => ?_)
    exact Prod.ext (text_of_writable (hx.key hv he)) rfl

end Operations

/-! ## Steps -/

namespace Attempt

variable {α β : Type}

theorem run_bind (w : Attempt α) (f : α → Attempt β) (t : Trail) :
    (w >>= f).run t =
      match w.run t with
      | (.ok a, t') => (f a).run t'
      | (.error e, t') => (.error e, t') := by
  change ExceptT.bindCont f (w.run t).1 (w.run t).2 = _
  rcases w.run t with ⟨_ | _, _⟩ <;> rfl

theorem run_lift (w : Walk α) (t : Trail) :
    (lift w).run t = ((w.run t).1.mapError .inl, (w.run t).2) := rfl

theorem lift_bind (w : Walk α) (f : α → Walk β) : lift (w >>= f) = lift w >>= fun a => lift (f a) := by
  refine ExceptT.ext (funext fun t => ?_)
  refine (run_lift _ t).trans (.trans ?_ (run_bind _ _ t).symm)
  rw [Walk.run_bind, run_lift]
  rcases w.run t with ⟨_ | _, _⟩ <;> rfl

theorem forM_eq_lift {xs : List α} {f' : α → Attempt PUnit} {f : α → Walk PUnit}
    (h : ∀ x ∈ xs, f' x = lift (f x)) : xs.forM f' = lift (xs.forM f) := by
  induction xs with
  | nil => rfl
  | cons x xs ih =>
    have hrest := ih fun y hy => h y (List.mem_cons_of_mem x hy)
    show (f' x >>= fun _ => xs.forM f') = lift (f x >>= fun _ => xs.forM f)
    rw [lift_bind, h x List.mem_cons_self, hrest]

theorem operation_bind {x : Except Fault α} {a : α} (h : x = .ok a) (f : α → Attempt β) :
    operation x >>= f = f a := by
  subst h
  rfl

end Attempt

open Attempt (lift operation lift_bind forM_eq_lift operation_bind)

section Level

variable {S X : Type} [Node S] [Node X]
variable {below' : S → X → Attempt Unit} {below : S → X → Walk Unit}
variable (hb : ∀ shape subject, KeysWritable shape → KeysWritable subject →
  below' shape subject = lift (below shape subject))
include hb

/-! One level, if the levels below it do what the walk does. -/

theorem checkArray_eq {elements : List S} {subject : X} (hs : ∀ s ∈ elements, KeysWritable s)
    (hx : KeysWritable subject) :
    checkArray below' elements subject = lift (Matching.checkArray below elements subject) := by
  unfold checkArray Matching.checkArray
  cases hv : Node.view subject with
  | null => rfl
  | scalar s => rfl
  | mapping es => rfl
  | sequence form xs =>
    cases elements with
    | nil => rfl
    | cons template more =>
      have helements : xs.forM (fun x => below' template x) =
          lift (xs.forM fun x => below template x) :=
        forM_eq_lift fun x hmem =>
          hb template x (hs template List.mem_cons_self) (hx.member (.element hv hmem))
      have hrest : (if xs.isEmpty then lift (Walk.add .emptyArray Matching.nothingInArray)
            else operation (first (template :: more)) >>= fun s => xs.forM fun x => below' s x) =
          lift (if xs.isEmpty then Walk.add .emptyArray Matching.nothingInArray
            else xs.forM fun x => below template x) := by
        split
        · rfl
        · exact (operation_bind rfl _).trans helements
      cases more with
      | nil => exact hrest
      | cons second more => exact (congrArg _ (funext fun _ => hrest)).trans (lift_bind _ _).symm

theorem checkObject_eq {shape : S} (entries : Entries S) {subject : X} (hs : KeysWritable shape)
    (hx : KeysWritable subject) :
    checkObject below' shape entries subject = lift (Matching.checkObject below shape entries subject) := by
  unfold checkObject Matching.checkObject
  cases Node.view subject with
  | mapping es =>
    dsimp only
    split
    · rfl
    · exact hb shape subject hs hx
  | _ => rfl

theorem checkValue_eq {shape : S} {subject : X} (hs : KeysWritable shape) (hx : KeysWritable subject) :
    checkValue below' shape subject = lift (Matching.checkValue below shape subject) := by
  unfold checkValue Matching.checkValue
  cases hv : Node.view shape with
  | null => rfl
  | scalar s => rfl
  | sequence form elements => exact checkArray_eq hb (fun s hmem => hs.member (.element hv hmem)) hx
  | mapping entries => exact checkObject_eq hb entries hs hx

omit hb in
theorem eachMember_eq {subject : X} {check' : X → Attempt Unit} {check : X → Walk Unit}
    (h : Matching.acceptsWildcard subject = true) (hx : KeysWritable subject)
    (hcheck : ∀ member, KeysWritable member → check' member = lift (check member)) :
    eachMember subject check' = lift ((Matching.members subject).forM fun m => do
      Walk.rename (← Walk.written m.1.text?)
      check m.2) := by
  unfold eachMember
  rw [operation_bind (members_of_accepted h hx)]
  refine .trans (List.forM_map ..) (forM_eq_lift fun m hm => ?_)
  have hkeys := hx.member (Matching.exists_mem_members_iff.mp ⟨m.1, hm⟩)
  rw [Key.text?, if_pos (Matching.isWritable_of_mem_members hx hm), Walk.written_bind,
    operation_bind rfl, lift_bind, hcheck m.2 hkeys]

theorem checkMembers_eq {shape : S} {subject : X} (hs : KeysWritable shape)
    (h : Matching.acceptsWildcard subject = true) (hx : KeysWritable subject) :
    checkMembers below' shape subject = lift (Matching.checkMembers below shape subject) := by
  unfold checkMembers Matching.checkMembers
  cases hv : Node.view shape with
  | null => rfl
  | scalar s => rfl
  | sequence form elements =>
    exact eachMember_eq h hx fun member hm =>
      checkArray_eq hb (fun s hmem => hs.member (.element hv hmem)) hm
  | mapping entries => exact eachMember_eq h hx fun member hm => hb shape member hs hm

theorem checkEntry_eq {subject : X} {e : Key × S} (hkey : e.1.isWritable = true)
    (hs : KeysWritable e.2) (hx : KeysWritable subject) :
    checkEntry below' subject e = lift (Matching.checkEntry below subject e) := by
  unfold checkEntry Matching.checkEntry
  rw [operation_bind (marker_of_writable hkey), Marker.ofKey?, if_pos hkey, Walk.written_bind]
  unfold Matching.checkMarked
  dsimp only
  -- The test and the lookup search in the same order, so the lookup is reached with what it finds.
  have hvalue : ∀ value, Matching.entry? (Marker.ofKey e.1) e.1 subject = some value →
      (operation (lookup (Marker.ofKey e.1) e.1 subject) >>= checkValue below' e.2) =
        lift (Matching.checkValue below e.2 value) := fun value h =>
    (operation_bind (lookup_of_found h) _).trans
      (checkValue_eq hb hs (hx.member (Matching.member_of_entry_eq_some h)))
  rw [hasEntry_eq]
  cases hkind : (Marker.ofKey e.1).kind with
  | wildcard =>
    cases haccepts : Matching.acceptsWildcard subject with
    | true => exact congrArg (Attempt.descend _) (checkMembers_eq hb hs haccepts hx)
    | false => rfl
  | optional =>
    cases hentry : Matching.entry? (Marker.ofKey e.1) e.1 subject with
    | some value => exact congrArg (Attempt.descend _) (hvalue value hentry)
    | none => rfl
  | exact =>
    cases hentry : Matching.entry? (Marker.ofKey e.1) e.1 subject with
    | some value => exact congrArg (Attempt.descend _) (hvalue value hentry)
    | none => rfl

theorem level_eq {shape : S} {subject : X} (hs : KeysWritable shape) (hx : KeysWritable subject) :
    level below' shape subject = lift (Matching.level below shape subject) := by
  have hvalue := checkValue_eq hb hs hx
  unfold level Matching.level
  cases hv : Node.view shape with
  | null => exact hvalue
  | scalar s => exact hvalue
  | sequence form elements => exact hvalue
  | mapping entries =>
    exact forM_eq_lift fun e he => checkEntry_eq hb (hs.key hv he) (hs.value hv he) hx

end Level

variable {S X : Type} [Node S] [Node X] {shape : S} {subject : X}

theorem walk_eq (hs : KeysWritable shape) (hx : KeysWritable subject) (stop : Pointer → WalkError)
    (n : Nat) : walk stop n shape subject = lift (Matching.walk stop n shape subject) := by
  induction n generalizing shape subject with
  | zero => rfl
  | succ n ih => exact level_eq (fun _ _ hs hx => ih hs hx) hs hx

theorem walkOn_eq (hs : KeysWritable shape) (hx : KeysWritable subject) (stack : Option Nat)
    (limit depth : Int) :
    walkOn stack limit depth shape subject = lift (Matching.walkOn stack limit depth shape subject) := by
  cases stack with
  | none => exact walk_eq hs hx _ _
  | some held =>
    unfold walkOn Matching.walkOn
    dsimp only
    split
    · exact walk_eq hs hx _ _
    · exact walk_eq hs hx _ _

/-! ## Listings and verifications -/

theorem issuesFrom_eq {node : S} (hs : KeysWritable node) (stop : Pointer → Lint.Error) (n : Nat)
    (p : Pointer) : issuesFrom stop n p node = (Lint.issuesFrom stop n p node).mapError .inl := by
  induction n generalizing p node with
  | zero => rfl
  | succ n ih =>
    unfold issuesFrom
    cases hv : Node.view node with
    | null => rw [Lint.issuesFrom, hv]; rfl
    | scalar s => rw [Lint.issuesFrom, hv]; rfl
    | sequence form xs =>
      rw [Lint.issuesFrom, hv]
      cases xs with
      | nil => rfl
      | cons x xs =>
        have hbelow := ih (hs.member (.element hv List.mem_cons_self)) p
        show (issuesFrom stop n p x >>= _) = _
        rw [hbelow]
        dsimp only
        cases Lint.issuesFrom stop n p x <;> rfl
    | mapping entries =>
      have hentry : ∀ e ∈ entries, (do
          let marker ← (Bare.marker e.1).mapError .inr
          let issues ← issuesFrom stop n (p.push marker.name) e.2
          return Lint.keyIssues e.1 p.render ++ issues) =
            (Lint.entryIssuesFrom stop n p e).mapError Sum.inl := by
        intro e he
        rw [marker_of_writable (hs.key hv he),
          Lint.entryIssuesFrom_of_isWritable (hs.key hv he)]
        show (issuesFrom stop n _ e.2 >>= _) = _
        rw [ih (hs.value hv he)]
        cases Lint.issuesFrom stop n _ e.2 <;> rfl
      dsimp only
      rw [Lint.issuesFrom_of_mapping stop hv, mapM_eq_mapError hentry]
      cases entries.mapM (Lint.entryIssuesFrom stop n p) <;> rfl

theorem refuse_eq (hs : KeysWritable shape) (hroot : Node.kind shape = .mapping) (stack : Stack)
    (m : Matcher) : refuse stack m shape = (m.refuse stack shape).mapError .inl := by
  have hissues : issuesOn stack.listing m.maxDepth shape =
      (Lint.issuesOn stack.listing m.maxDepth shape).mapError .inl := by
    unfold issuesOn Lint.issuesOn Lint.issues Lint.issuesWithin
    rw [hroot]
    cases stack.listing with
    | none => exact issuesFrom_eq hs _ _ _
    | some held =>
      dsimp only
      split
      · exact issuesFrom_eq hs _ _ _
      · exact issuesFrom_eq hs _ _ _
  unfold refuse Matcher.refuse
  rw [hissues]
  split
  · cases Lint.issuesOn stack.listing m.maxDepth shape with
    | error e => rfl
    | ok issues => cases issues <;> rfl
  · rfl

theorem verifyOn_eq (hs : KeysWritable shape) (hx : KeysWritable subject) (stack : Stack) (m : Matcher) :
    verifyOn stack m shape subject = (m.verifyOn stack shape subject).mapError .inl := by
  unfold verifyOn Matcher.verifyOn Matcher.outcomeOn
  cases hv : Node.view shape with
  | null => rfl
  | scalar s => rfl
  | sequence form xs => rfl
  | mapping entries =>
    rw [refuse_eq hs (Node.kind_of_mapping hv), walkOn_eq hs hx]
    dsimp only
    cases m.refuse stack shape with
    | error e => rfl
    | ok u =>
      rw [Attempt.run_lift]
      dsimp only [Except.mapError]
      rcases (Matching.walkOn stack.walk m.maxDepth 0 shape subject).run (.start .root) with ⟨_ | _, _⟩ <;>
        rfl

end Bare

/-! ## How walks and verifications end -/

/-- The shape is no mapping, or it has authoring problems. -/
def VerifyError.RefusesShape : VerifyError → Prop
  | .root _ => True
  | .ambiguous _ => True
  | _ => False

/-- The levels run out, or the stack does before them. -/
def VerifyError.RunsOut : VerifyError → Prop
  | .lint (.tooDeep ..) => True
  | .lint (.stackExhausted _) => True
  | .walk _ (.tooDeep ..) => True
  | .walk _ .stackExhausted => True
  | _ => False

theorem VerifyError.runsOut_of_isDepth {e : VerifyError} (h : e.isDepth = true) : e.RunsOut := by
  rcases e with _ | _ | (_ | _ | _) | ⟨_, _ | _ | _ | _⟩ <;> trivial

variable {S X : Type} [Node S] [Node X] {shape : S} {subject : X}

section Ends

variable (hs : Matching.PartsWritable shape) (hx : KeysWritable subject)
include hs hx

/-- A walk ends, or it stops because there are no more levels. -/
theorem Matching.walkOn_ends (stack : Option Nat) (limit depth : Int) (t : Trail) :
    ((walkOn stack limit depth shape subject).run t).1 = .ok () ∨
      ∃ p, ((walkOn stack limit depth shape subject).run t).1 = .error (stopOn stack limit depth p) := by
  rw [runs_stopOn stack limit depth shape subject t.pointer t rfl, result_play_eq]
  split
  · exact .inl rfl
  · rename_i e es hpending
    rcases mem_pending (hpending ▸ List.mem_cons_self) with ⟨⟨p, rfl⟩, -⟩ | ⟨-, hfault⟩
    · exact .inr ⟨p, rfl⟩
    · exact absurd hfault (fault_not_mem_unfolding hs hx _ _)

theorem Matcher.error_of_verifyOn {stack : Stack} {m : Matcher} {e : VerifyError}
    (h : m.verifyOn stack shape subject = .error e) : e.RefusesShape ∨ e.RunsOut := by
  unfold verifyOn outcomeOn at h
  split at h
  · rename_i entries hroot
    split at h
    · rename_i hrefuse
      cases h
      unfold refuse at hrefuse
      split at hrefuse
      · split at hrefuse
        · cases hrefuse
        · cases hrefuse
          exact .inl trivial
        · rename_i hlint
          cases hrefuse
          have hdepth := Lint.isDepth_of_issuesOn (Node.kind_of_mapping hroot) hs hlint
          exact .inr (VerifyError.runsOut_of_isDepth hdepth)
      · cases hrefuse
    · have hends := Matching.walkOn_ends hs hx stack.walk m.maxDepth 0 (.start .root)
      cases hrun : (Matching.walkOn stack.walk m.maxDepth 0 shape subject).run (.start .root) with
      | mk result t =>
        rw [hrun] at h hends
        obtain rfl | ⟨p, rfl⟩ : result = .ok () ∨ ∃ p, result = .error _ := hends
        · cases h
        · cases h
          exact .inr (VerifyError.runsOut_of_isDepth (Matching.isDepth_stopOn stack.walk m.maxDepth 0 p))
  · cases h
    exact .inl trivial

end Ends

/-- **No operation faults.** Where all keys have a text, a walk by bare operations does what the walk
does, from every pointer, every report and every depth, and under every limit: it returns, or it stops at
a place that is too deep. So does a verification by bare operations, which returns a report, or refuses the
shape, or runs out of levels. -/
theorem bare_operations_do_not_fault (hs : KeysWritable shape) (hx : KeysWritable subject) :
    (∀ limit depth t,
      (((Bare.walkFrom limit depth shape subject).run t).1 = .ok () ∨
        ∃ path, ((Bare.walkFrom limit depth shape subject).run t).1 =
          .error (.inl (.tooDeep limit path))) ∧
      (Bare.walkFrom limit depth shape subject).run t =
        (((Matching.walkFrom limit depth shape subject).run t).1.mapError .inl,
          ((Matching.walkFrom limit depth shape subject).run t).2)) ∧
    ∀ stack m,
      ((∃ r, Bare.verifyOn stack m shape subject = .ok r) ∨
        ∃ e, Bare.verifyOn stack m shape subject = .error (.inl e) ∧ (e.RefusesShape ∨ e.RunsOut)) ∧
      Bare.verifyOn stack m shape subject = (m.verifyOn stack shape subject).mapError .inl := by
  have hparts := Matching.partsWritable_of_keysWritable hs
  refine ⟨fun limit depth t => ?_, fun stack m => ?_⟩
  · have hwalk := Bare.walkOn_eq hs hx none limit depth
    have hrun : (Bare.walkFrom limit depth shape subject).run t =
        (((Matching.walkFrom limit depth shape subject).run t).1.mapError .inl,
          ((Matching.walkFrom limit depth shape subject).run t).2) :=
      congrArg (fun w : Bare.Attempt Unit => w.run t) hwalk
    refine ⟨?_, hrun⟩
    rw [hrun]
    rcases Matching.walkOn_ends hparts hx none limit depth t with hok | ⟨p, hp⟩
    · exact .inl (congrArg (Except.mapError Sum.inl) hok)
    · exact .inr ⟨p.render, congrArg (Except.mapError Sum.inl) hp⟩
  · have hverify := Bare.verifyOn_eq hs hx stack m
    refine ⟨?_, hverify⟩
    rw [hverify]
    cases he : m.verifyOn stack shape subject with
    | ok r => exact .inl ⟨r, rfl⟩
    | error e => exact .inr ⟨e, rfl, Matcher.error_of_verifyOn hparts hx he⟩

/-- A mapping whose keys are of several types and which leads back to itself under each of them. -/
def tangle : Document := .place ⟨#[
  .mapping [(.atom (.int 1), 0), (.str "[*:key]", 1), (.str "[opt:key:1]", 0), (.tuple [.null], 1)],
  .sequence .tuple [0]]⟩ 0

theorem bare_operations_do_not_fault_tangle :
    KeysWritable tangle ∧
    (∃ path, ((Bare.walkFrom 2 (-1) tangle tangle).run (.start .root)).1 =
      .error (.inl (.tooDeep 2 path))) ∧
    ∃ e, Bare.verifyOn .usual ⟨2, true, by decide⟩ tangle tangle = .error (.inl e) ∧
      (e.RefusesShape ∨ e.RunsOut) := by
  have hkeys : KeysWritable tangle := keysWritable_of_isWritable (by decide +kernel)
  obtain ⟨hwalk, hverify⟩ := bare_operations_do_not_fault hkeys hkeys
  have hdeep : ((Bare.walkFrom 2 (-1) tangle tangle).run (.start .root)).1.toOption = none := by
    decide +kernel
  have hrefused : (Bare.verifyOn .usual ⟨2, true, by decide⟩ tangle tangle).toOption.isSome = false := by
    decide +kernel
  refine ⟨hkeys, (hwalk 2 (-1) (.start .root)).1.resolve_left fun hok => ?_,
    (hverify .usual ⟨2, true, by decide⟩).1.resolve_left fun ⟨r, hok⟩ => ?_⟩
  · rw [hok] at hdeep
    cases hdeep
  · rw [hok] at hrefused
    cases hrefused

end Conform
