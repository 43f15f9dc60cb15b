import Conform.Document.Value
import Conform.Proofs.Matching.Alike

/-!
# Entries made optional

Entries of a shape whose keys are plain names may be made optional, any of them and at any depth. The
walk then takes the same way, since a marker looks up the name that it carries: it enters the same
levels at the same places and stops where it stopped before. It finds the same issues, except that
the entries that were made optional are no longer missed.

To say which entry an issue was found for, acts are listed with routes. A route leads from the root of
the shape to a part of it; unlike a pointer, it tells two entries of one mapping apart whatever their
keys are, and does not depend on the subject.
-/
namespace Conform.Matching

/-- The positions of the entries and the elements on the way to a part of a shape. -/
abbrev Route := List Nat

variable {S T X : Type}

section Loosened

/-- The key is a name that is not empty, and the other one is the optional marker around it. -/
def MadeOptional (key key' : Key) : Prop :=
  ∃ name : String, name ≠ "" ∧ key = .str name ∧ (Marker.ofKey key).kind = .exact ∧
    key' = .str (Marker.optionalText name)

/-- A layer at `r`, and the same layer with the chosen entries made optional. -/
inductive OptionalLayer (chosen : Route → Bool) (R : Route → S → T → Prop) (r : Route) :
    View S → View T → Prop
  | null : OptionalLayer chosen R r .null .null
  | scalar (s : Scalar) : OptionalLayer chosen R r (.scalar s) (.scalar s)
  | sequence (form : Form) {xs : List S} {ys : List T}
      (each : List.Forall₂ (fun x y => R (r ++ [x.2]) x.1 y) xs.zipIdx ys) :
      OptionalLayer chosen R r (.sequence form xs) (.sequence form ys)
  | mapping {es : Entries S} {fs : Entries T}
      (each : List.Forall₂ (fun e f =>
        (if chosen (r ++ [e.2]) then MadeOptional e.1.1 f.1 else f.1 = e.1.1) ∧
          R (r ++ [e.2]) e.1.2 f.2) es.zipIdx fs) :
      OptionalLayer chosen R r (.mapping es) (.mapping fs)

theorem OptionalLayer.mono {chosen : Route → Bool} {R R' : Route → S → T → Prop} {r : Route}
    {v : View S} {w : View T} (h : OptionalLayer chosen R r v w)
    (hR : ∀ r s t, R r s t → R' r s t) : OptionalLayer chosen R' r v w := by
  cases h with
  | null => exact .null
  | scalar s => exact .scalar s
  | sequence form each => exact .sequence form (each.imp fun _ _ hxy => hR _ _ _ hxy)
  | mapping each => exact .mapping (each.imp fun _ _ hef => ⟨hef.1, hR _ _ _ hef.2⟩)

variable [Node S] [Node T]

/-- `loose` is the part `shape` at `r` with the chosen entries made optional, all the way down. -/
def Loosens (chosen : Route → Bool) (r : Route) (shape : S) (loose : T) : Prop :=
  ∃ R : Route → S → T → Prop, R r shape loose ∧
    ∀ r s t, R r s t → OptionalLayer chosen R r (Node.view s) (Node.view t)

namespace Loosens

variable {chosen : Route → Bool} {r : Route} {shape : S} {loose : T}

theorem layer (h : Loosens chosen r shape loose) :
    OptionalLayer chosen (Loosens chosen) r (Node.view shape) (Node.view loose) := by
  obtain ⟨R, hroot, hR⟩ := h
  exact (hR r shape loose hroot).mono fun r s t hst => ⟨R, hst, hR⟩

theorem of_layer
    (h : OptionalLayer chosen (Loosens chosen) r (Node.view shape) (Node.view loose)) :
    Loosens chosen r shape loose := by
  refine ⟨fun r' s t => Loosens chosen r' s t ∨ (r' = r ∧ s = shape ∧ t = loose),
    .inr ⟨rfl, rfl, rfl⟩, ?_⟩
  rintro r' s t (hst | ⟨rfl, rfl, rfl⟩)
  · exact hst.layer.mono fun _ _ _ => .inl
  · exact h.mono fun _ _ _ => .inl

end Loosens

end Loosened

section Located

variable [Node S] [Node X]

/-- The route to what is entered for a value at `r`: a sequence is entered at its first element. -/
def routeInto (r : Route) (value : S) : Route :=
  if Node.kind value = .sequence then r ++ [0] else r

/-- An act for a value at `r`. An entry carries the route of what is entered. -/
def locate (r : Route) (value : S) (a : Act S X) : Route × Act S X :=
  (if a.isEnter then routeInto r value else r, a)

/-- The acts of one level, each with the route of the entry that it is for. -/
def locatedActs (r : Route) (p : Pointer) (shape : S) (subject : X) : List (Route × Act S X) :=
  match Node.view shape with
  | .mapping entries => entries.zipIdx.flatMap fun e =>
    (entryActs p subject e.1).map (locate (r ++ [e.2]) e.1.2)
  | _ => (valueActs p shape subject).map (locate r shape)

/-- As `Act.expand`, with routes. -/
def expandAt (f : Route → Pointer → S → X → List (Route × Act S X)) :
    Route × Act S X → List (Route × Act S X)
  | (r, .enter p shape subject) => f r p shape subject
  | a => [a]

/-- The acts of a walk over so many levels, each with the route of the entry that it is for. -/
def located : Nat → Route → Pointer → S → X → List (Route × Act S X)
  | 0, r, p, shape, subject => [(r, .enter p shape subject)]
  | n + 1, r, p, shape, subject => (locatedActs r p shape subject).flatMap (expandAt (located n))

theorem locatedActs_of_not_mapping {r : Route} {p : Pointer} {shape : S} {subject : X}
    (h : Node.kind shape ≠ .mapping) :
    locatedActs r p shape subject = (valueActs p shape subject).map (locate r shape) := by
  unfold locatedActs
  split
  · rename_i entries hs
    exact absurd (Node.kind_of_mapping hs) h
  · rfl

theorem map_snd_locatedActs (r : Route) (p : Pointer) (shape : S) (subject : X) :
    (locatedActs r p shape subject).map Prod.snd = acts p shape subject := by
  have hlocate : ∀ r (value : S), Prod.snd ∘ locate (X := X) r value = id := fun _ _ => rfl
  unfold locatedActs acts
  cases Node.view shape with
  | null => simp [hlocate]
  | scalar s => simp [hlocate]
  | sequence form xs => simp [hlocate]
  | mapping entries =>
    simp only [List.map_flatMap, List.map_map, hlocate, List.map_id]
    conv_rhs => rw [← List.zipIdx_map_fst 0 entries, List.flatMap_map]

theorem map_snd_located (n : Nat) (r : Route) (p : Pointer) (shape : S) (subject : X) :
    (located n r p shape subject).map Prod.snd = unfolding n p shape subject := by
  induction n generalizing r p shape subject with
  | zero => rfl
  | succ n ih =>
    rw [located, unfolding, ← map_snd_locatedActs r, List.flatMap_map, List.map_flatMap]
    refine List.flatMap_congr fun a _ => ?_
    obtain ⟨q, a⟩ := a
    cases a with
    | issue i => rfl
    | remark text => rfl
    | enter p' shape' subject' => exact ih q p' shape' subject'
    | fault => rfl

end Located

section Kept

/-- The issues among acts, each with the route of the entry that it was found for. -/
def origins (as : List (Route × Act S X)) : List (Route × Issue) :=
  as.filterMap fun a => a.2.issue?.map fun i => (a.1, i)

theorem map_snd_origins (as : List (Route × Act S X)) :
    (origins as).map Prod.snd = issuesOf (as.map Prod.snd) := by
  unfold origins issuesOf
  rw [List.map_filterMap, List.filterMap_map]
  refine List.filterMap_congr fun a _ => ?_
  rw [Option.map_map]
  exact Option.map_id'

variable (chosen : Route → Bool)

/-- The issue says that a chosen entry is missing. -/
def silenced (i : Route × Issue) : Bool := i.2.kind = .missingRequiredKey && chosen i.1

/-- An act that takes place with the chosen entries optional as well. -/
def kept (a : Route × Act S X) : Bool := !a.2.issue?.any fun i => silenced chosen (a.1, i)

theorem origins_filter_kept (as : List (Route × Act S X)) :
    origins (as.filter (kept chosen)) = (origins as).filter fun i => !silenced chosen i := by
  unfold origins
  rw [List.filterMap_filter, List.filter_filterMap]
  refine List.filterMap_congr fun a _ => ?_
  obtain ⟨r, a⟩ := a
  cases a with
  | issue i => cases h : silenced chosen (r, i) <;> simp [kept, Act.issue?, h, Option.filter]
  | remark text => rfl
  | enter p shape subject => rfl
  | fault => rfl

/-- What is not kept stops nothing. -/
theorem pending_filter_kept (stop : Pointer → WalkError) (as : List (Route × Act S X)) :
    pending stop ((as.filter (kept chosen)).map Prod.snd) = pending stop (as.map Prod.snd) := by
  unfold pending
  rw [List.filterMap_map, List.filterMap_map, List.filterMap_filter]
  refine List.filterMap_congr fun a _ => ?_
  obtain ⟨r, a⟩ := a
  cases a with
  | issue i => cases h : silenced chosen (r, i) <;> simp [kept, Act.issue?, Act.error?, h]
  | remark text => rfl
  | enter p shape subject => rfl
  | fault => rfl

/-- What is not kept of some acts is an issue, and so nothing that is kept comes of it. -/
theorem flatMap_expandAt_kept (f : Route → Pointer → S → X → List (Route × Act S X))
    (as : List (Route × Act S X)) :
    (as.flatMap (expandAt f)).filter (kept chosen) =
      (as.filter (kept chosen)).flatMap fun a => (expandAt f a).filter (kept chosen) := by
  induction as with
  | nil => rfl
  | cons a as ih =>
    rw [List.flatMap_cons, List.filter_append, ih]
    cases hk : kept chosen a with
    | true => rw [List.filter_cons_of_pos hk, List.flatMap_cons]
    | false =>
      obtain ⟨r, a⟩ := a
      have hnone : (expandAt f (r, a)).filter (kept chosen) = [] := by
        cases a with
        | issue i => simp [expandAt, hk]
        | remark text => cases hk
        | enter p shape subject => cases hk
        | fault => cases hk
      rw [List.filter_cons_of_neg (by simp [hk]), hnone, List.nil_append]

/-- Where the entry is not chosen, all that is done for it is kept. -/
theorem filter_kept_of_not_chosen [Node S] {r : Route} (h : chosen r = false) (value : S)
    (as : List (Act S X)) :
    (as.map (locate r value)).filter (kept chosen) = as.map (locate r value) := by
  refine List.filter_eq_self.mpr fun a ha => ?_
  obtain ⟨a, -, rfl⟩ := List.mem_map.mp ha
  cases a with
  | issue i => simp [locate, kept, silenced, Act.issue?, h]
  | remark text => rfl
  | enter p shape subject => rfl
  | fault => rfl

end Kept

section Mirrors

variable [Node S] [Node T] {chosen : Route → Bool} {r : Route} {value : S}

/-- An act with its route, and the same act under the shape with the chosen entries made optional. -/
def Mirrors (chosen : Route → Bool) (a : Route × Act S X) (b : Act T X) : Prop :=
  a.2.Alike (Loosens chosen a.1) Eq b

theorem mirrors_map_locate {as : List (Act S X)} {bs : List (Act T X)}
    (h : List.Forall₂ (Act.Alike (Loosens chosen (routeInto r value)) Eq) as bs) :
    List.Forall₂ (Mirrors chosen) (as.map (locate r value)) bs := by
  rw [List.forall₂_map_left_iff]
  refine h.imp fun a b hab => ?_
  cases hab with
  | issue i => exact .issue i
  | remark text text' => exact .remark text text'
  | enter p hs hx => exact .enter p hs hx
  | fault => exact .fault

end Mirrors

section Level

variable [Node X]

theorem kind_of_mem_arrayActs {p : Pointer} {elements : List S} {subject : X} {i : Issue}
    (h : .issue i ∈ arrayActs p elements subject) : i.kind ≠ .missingRequiredKey := by
  unfold arrayActs at h
  cases hx : Node.view subject with
  | null => simp_all [Act.found]
  | scalar s => simp_all [Act.found]
  | mapping es => simp_all [Act.found]
  | sequence form xs =>
    cases elements with
    | nil => simp [hx] at h
    | cons template more => cases xs <;> cases more <;> simp_all [Act.found]

variable [Node S]

/-- A value is never missing itself. -/
theorem kind_of_mem_valueActs {p : Pointer} {value : S} {subject : X} {i : Issue}
    (h : .issue i ∈ valueActs p value subject) : i.kind ≠ .missingRequiredKey := by
  unfold valueActs at h
  cases hv : Node.view value with
  | null => simp [hv] at h
  | scalar s => simp [hv] at h
  | sequence form elements =>
    rw [hv] at h
    exact kind_of_mem_arrayActs h
  | mapping entries =>
    rw [hv] at h
    unfold objectActs at h
    cases hx : Node.view subject <;> cases entries <;> simp_all [Act.found]

theorem filter_kept_valueActs (chosen : Route → Bool) (r : Route) (p : Pointer) (value : S)
    (subject : X) :
    ((valueActs p value subject).map (locate r value)).filter (kept chosen) =
      (valueActs p value subject).map (locate r value) := by
  refine List.filter_eq_self.mpr fun a ha => ?_
  obtain ⟨a, hmem, rfl⟩ := List.mem_map.mp ha
  cases a with
  | issue i =>
    have hkind := kind_of_mem_valueActs hmem
    simp [locate, kept, silenced, Act.issue?, hkind]
  | remark text => rfl
  | enter p shape subject => rfl
  | fault => rfl

variable [Node T] {chosen : Route → Bool} {r : Route} {value : S} {value' : T}

theorem Loosens.demands (h : Loosens chosen r value value') :
    Demands (Loosens chosen (routeInto r value)) value value' := by
  have hlayer := h.layer
  generalize hv : Node.view value = v at hlayer
  generalize hv' : Node.view value' = v' at hlayer
  cases hlayer with
  | null => exact .leaf (.inl (Node.kind_of_view hv)) (.inl (Node.kind_of_view hv'))
  | scalar s => exact .leaf (.inr (Node.kind_of_view hv)) (.inr (Node.kind_of_view hv'))
  | @sequence form xs ys each =>
    have hroute : routeInto r value = r ++ [0] := by simp [routeInto, Node.kind, hv, View.kind]
    have hlength : xs.length = ys.length := by simpa using each.length_eq
    refine .sequence hv hv' hlength fun t ht t' ht' => ?_
    cases xs with
    | nil => cases ht
    | cons x xs =>
      rw [List.zipIdx_cons] at each
      cases each with
      | cons hfirst _ =>
        cases ht
        cases ht'
        rw [hroute]
        exact hfirst
  | @mapping es fs each =>
    have hroute : routeInto r value = r := by simp [routeInto, Node.kind, hv, View.kind]
    have hlength : es.length = fs.length := by simpa using each.length_eq
    refine .mapping hv hv' ?_ (hroute.symm ▸ h)
    cases es <;> cases fs <;> simp_all

theorem Loosens.kind_eq (h : Loosens chosen r value value') : Node.kind value' = Node.kind value := by
  have hlayer := h.layer
  unfold Node.kind
  generalize Node.view value = v at hlayer ⊢
  generalize Node.view value' = v' at hlayer ⊢
  cases hlayer <;> rfl

/-- An entry of a level does the same if it is made optional, except that it is not missed. -/
theorem mirrors_entryActs {key key' : Key}
    (hk : if chosen r then MadeOptional key key' else key' = key)
    (hv : Loosens chosen r value value') (p : Pointer) (subject : X) :
    List.Forall₂ (Mirrors chosen)
      (((entryActs p subject (key, value)).map (locate r value)).filter (kept chosen))
      (entryActs p subject (key', value')) := by
  cases hc : chosen r with
  | false =>
    obtain rfl : key' = key := by simpa [hc] using hk
    rw [filter_kept_of_not_chosen chosen hc]
    refine mirrors_map_locate
      (composes_alike.entryActs ?_ ?_ hv.demands.nameActs p (.refl composes_alike key' subject))
    · rintro p x _ rfl
      exact hv.demands.valueActs outlines_eq p rfl
    · rintro p x _ rfl
      exact hv.demands.memberActs outlines_eq p rfl
  | true =>
    obtain ⟨name, hname, rfl, hexact, rfl⟩ : MadeOptional key key' := by simpa [hc] using hk
    have hkey : Marker.ofKey (.str name) = ⟨.exact, name⟩ := Marker.ofKey_of_exact hexact
    have hentry : entry? ⟨.exact, name⟩ (.str name) subject =
        entry? ⟨.optional, name⟩ (.str (Marker.optionalText name)) subject :=
      entry?_of_name_eq rfl _ _ subject
    simp only [entryActs, textActs_str, List.nil_append, markedActs, hkey,
      Marker.ofKey_optionalText hname, hentry]
    cases entry? ⟨.optional, name⟩ (.str (Marker.optionalText name)) subject with
    | some x =>
      rw [filter_kept_valueActs]
      exact mirrors_map_locate (hv.demands.valueActs outlines_eq _ rfl)
    | none =>
      have hdropped : kept chosen (locate r value
          (.found .missingRequiredKey (missingKey name) p : Act S X)) = false := by
        simp [locate, kept, silenced, Act.found, Act.issue?, hc]
      simp only [List.map_cons, List.map_nil, List.filter_cons, hdropped]
      exact .nil

/-- One level: what is kept of the acts with the route `r` are the acts under the loosened shape. -/
theorem mirrors_locatedActs (h : Loosens chosen r value value') (p : Pointer) (subject : X) :
    List.Forall₂ (Mirrors chosen) ((locatedActs r p value subject).filter (kept chosen))
      (acts p value' subject) := by
  by_cases hkind : Node.kind value = .mapping
  · obtain ⟨es, hs⟩ := Node.exists_view_mapping hkind
    obtain ⟨fs, hs'⟩ := Node.exists_view_mapping (h.kind_eq.trans hkind)
    have hlayer := h.layer
    rw [hs, hs'] at hlayer
    cases hlayer with
    | mapping each =>
      simp only [locatedActs, acts, hs, hs', List.filter_flatMap]
      exact List.rel_flatMap each fun e f hef => mirrors_entryActs hef.1 hef.2 p subject
  · rw [locatedActs_of_not_mapping hkind, acts_of_not_mapping (h.kind_eq ▸ hkind),
      filter_kept_valueActs]
    exact mirrors_map_locate (h.demands.valueActs outlines_eq p rfl)

/-- A walk over any number of levels. -/
theorem mirrors_located (n : Nat) (h : Loosens chosen r value value') (p : Pointer) (subject : X) :
    List.Forall₂ (Mirrors chosen) ((located n r p value subject).filter (kept chosen))
      (unfolding n p value' subject) := by
  induction n generalizing r p value value' subject with
  | zero => exact .cons (.enter p h rfl) .nil
  | succ n ih =>
    have hkept : ∀ a ∈ (locatedActs r p value subject).filter (kept chosen), kept chosen a = true :=
      fun a ha => (List.mem_filter.mp ha).2
    have hlevel := (List.forall₂_and_left _ _).mpr ⟨hkept, mirrors_locatedActs h p subject⟩
    rw [located, unfolding, flatMap_expandAt_kept chosen]
    refine List.rel_flatMap hlevel fun a b hab => ?_
    obtain ⟨q, a⟩ := a
    obtain ⟨hk, hab⟩ := hab
    cases hab with
    | issue i =>
      simp only [expandAt, List.filter_cons_of_pos hk, List.filter_nil]
      exact .cons (.issue i) .nil
    | remark text text' => exact .cons (.remark text text') .nil
    | enter p' hs hx =>
      subst hx
      exact ih hs p' _
    | fault => exact .cons .fault .nil

/-- The loosened shape leaves the same to stop a walk, at the same places. -/
theorem pending_unfolding_of_loosens (stop : Pointer → WalkError) (n : Nat)
    (h : Loosens chosen r value value') (p : Pointer) (subject : X) :
    pending stop (unfolding n p value' subject) = pending stop (unfolding n p value subject) := by
  have hmirrors := mirrors_located n h p subject
  have herror : List.Forall₂ (fun a b => Act.error? stop a.2 = Act.error? stop b)
      ((located n r p value subject).filter (kept chosen)) (unfolding n p value' subject) :=
    hmirrors.imp fun a b hab => hab.error?_eq stop
  rw [← map_snd_located n r p value subject, ← pending_filter_kept chosen, pending,
    ← filterMap_eq_of_forall₂ herror, pending, List.filterMap_map]
  rfl

/-- The loosened shape finds the issues that are not silenced. -/
theorem issuesOf_unfolding_of_loosens (n : Nat) (h : Loosens chosen r value value') (p : Pointer)
    (subject : X) :
    issuesOf (unfolding n p value' subject) =
      ((origins (located n r p value subject)).filter fun i => !silenced chosen i).map Prod.snd := by
  have hmirrors := mirrors_located n h p subject
  have hissue : List.Forall₂ (fun a b => Act.issue? a.2 = Act.issue? b)
      ((located n r p value subject).filter (kept chosen)) (unfolding n p value' subject) :=
    hmirrors.imp fun a b hab => hab.issue?_eq
  rw [← origins_filter_kept, map_snd_origins, issuesOf, issuesOf,
    ← filterMap_eq_of_forall₂ hissue, List.filterMap_map]
  rfl

end Level

end Conform.Matching

namespace Conform.Matcher

open Matching

variable {S T X : Type} [Node S] [Node T] [Node X]

/-- The issues of a verification, each with the route of the entry that it was found for. -/
def origins (stack : Stack) (m : Matcher) (shape : S) (subject : X) : List (Route × Issue) :=
  Matching.origins (located (capped stack.walk (levels m.maxDepth 0)) [] .root shape subject)

/-- **Optional entries are checked like required ones, and not missed.** With any entries made
optional, a lenient matcher stops exactly if it stopped before, and for the same reason. If it
returns, it has found what it found before, in the same order, without the issues which say that one
of these entries is missing. -/
theorem loosened_finds_all_but_silenced (chosen : Route → Bool) (stack : Stack) (m : Matcher)
    (hm : m.strict = false) (shape : S) (loose : T) (hs : Node.kind shape = .mapping)
    (h : Loosens chosen [] shape loose) (subject : X) :
    (∀ e, m.verifyOn stack loose subject = .error e ↔ m.verifyOn stack shape subject = .error e) ∧
    ∀ r, m.verifyOn stack shape subject = .ok r →
      r.issues = (m.origins stack shape subject).map Prod.snd ∧
      ∃ r', m.verifyOn stack loose subject = .ok r' ∧
        r'.issues =
          ((m.origins stack shape subject).filter fun i => !silenced chosen i).map Prod.snd := by
  have hs' : Node.kind loose = .mapping := h.kind_eq.trans hs
  obtain ⟨stop, hsettle⟩ := exists_settle stack hm
  have hpending : pending stop (m.unfolded stack loose subject) =
      pending stop (m.unfolded stack shape subject) := pending_unfolding_of_loosens stop _ h .root subject
  refine ⟨fun e => ?_, fun r hr => ?_⟩
  · rw [hsettle hs subject, hsettle hs' subject]
    exact settle_eq_error_iff_of_pending hpending e
  · obtain ⟨hfin, rfl⟩ := (verifyOn_eq_ok_iff hm hs).mp hr
    have hfin' : Finished (m.unfolded stack loose subject) := by
      rw [← pending_eq_nil_iff stop, hpending]
      exact (pending_eq_nil_iff stop _).mpr hfin
    refine ⟨?_, _, (verifyOn_eq_ok_iff hm hs').mpr ⟨hfin', rfl⟩, ?_⟩
    · rw [Report.issues_ofIssues, unfolded, ← map_snd_located _ [], ← map_snd_origins]
      rfl
    · rw [Report.issues_ofIssues]
      exact issuesOf_unfolding_of_loosens _ h .root subject

/-- Rooms with a door each, and a key that looks like the end of a marker. -/
def house : Value :=
  .record [("rooms", .list [.record [("door", .record [("key", .null)])]]), ("x]", .null)]

/-- The house in which a room needs no door. -/
def openHouse : Value :=
  .record [("rooms", .list [.record [(Marker.optionalText "door", .record [("key", .null)])]]),
    (Marker.optionalText "x]", .null)]

def bareRooms : Value := .record [("rooms", .list [.record [], .record [("door", .record [])]])]

def doors (r : Route) : Bool := r = [0, 0, 0] || r = [1]

theorem loosens_house : Loosens doors [] house openHouse := by
  have hnull : ∀ r, Loosens doors r Value.null Value.null := fun r => .of_layer .null
  have hdoor : Loosens doors [0, 0, 0] (Value.record [("key", .null)])
      (Value.record [("key", .null)]) :=
    .of_layer (.mapping (.cons ⟨rfl, hnull _⟩ .nil))
  have hroom : Loosens doors [0, 0] (Value.record [("door", .record [("key", .null)])])
      (Value.record [(Marker.optionalText "door", .record [("key", .null)])]) :=
    .of_layer (.mapping (.cons ⟨⟨"door", by decide, rfl, rfl, rfl⟩, hdoor⟩ .nil))
  exact .of_layer (.mapping (.cons ⟨rfl, .of_layer (.sequence .list (.cons hroom .nil))⟩
    (.cons ⟨⟨"x]", by decide, rfl, rfl, rfl⟩, hnull _⟩ .nil)))

theorem loosened_finds_all_but_silenced_house :
    Loosens doors [] house openHouse ∧
      (∃ r, (⟨9, false, by decide⟩ : Matcher).verify house bareRooms = .ok r ∧
        r.messages = ["Missing required key 'door' at /rooms",
          "Missing required key 'key' at /rooms/door", "Missing required key 'x]' at /"]) ∧
      ∃ r', (⟨9, false, by decide⟩ : Matcher).verify openHouse bareRooms = .ok r' ∧
        r'.issues.map Issue.message = ["Missing required key 'key' at /rooms/door"] := by
  have h := loosened_finds_all_but_silenced doors .usual ⟨9, false, by decide⟩ rfl house openHouse
    rfl loosens_house bareRooms
  obtain ⟨-, r', hr', hissues⟩ := h.2 _ rfl
  exact ⟨loosens_house, ⟨_, rfl, rfl⟩, r', hr', (congrArg (List.map Issue.message) hissues).trans rfl⟩

end Conform.Matcher
