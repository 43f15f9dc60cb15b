import Mathlib.Data.List.Perm.Basic
import Conform.Proofs.Matching.Depth
import Conform.Proofs.Matching.Sparse

/-!
# Entries in another order

Nothing is bound to the order in which a mapping has its entries. If the entries of the mappings of a
shape and of a subject are put in another order, a walk comes to the same acts, also in another order:
so the same levels are left to be entered, though not the same one first, and the same issues are
found as often as before.
-/
namespace Conform.Matching

variable {S T X Y : Type} {R : S → T → Prop} {Q : X → Y → Prop}

/-- The elements of two lists are related one by one, once the first list is put in some order. -/
def Shuffled {α β : Type} (P : α → β → Prop) (as : List α) (bs : List β) : Prop :=
  ∃ cs, as.Perm cs ∧ List.Forall₂ P cs bs

namespace Shuffled

variable {α β γ δ : Type} {P : α → β → Prop} {P' : γ → δ → Prop} {as as' : List α} {bs bs' : List β}

theorem of_forall₂ (h : List.Forall₂ P as bs) : Shuffled P as bs := ⟨as, .refl as, h⟩

theorem of_perm (h : as.Perm as') (h' : Shuffled P as' bs) : Shuffled P as bs := by
  obtain ⟨cs, hperm, heach⟩ := h'
  exact ⟨cs, h.trans hperm, heach⟩

theorem append (h : Shuffled P as bs) (h' : Shuffled P as' bs') :
    Shuffled P (as ++ as') (bs ++ bs') := by
  obtain ⟨cs, hperm, heach⟩ := h
  obtain ⟨cs', hperm', heach'⟩ := h'
  exact ⟨cs ++ cs', hperm.append hperm', List.rel_append heach heach'⟩

theorem flatMap {f : α → List γ} {g : β → List δ} (h : Shuffled P as bs)
    (hfg : ∀ a b, P a b → Shuffled P' (f a) (g b)) : Shuffled P' (as.flatMap f) (bs.flatMap g) := by
  obtain ⟨cs, hperm, heach⟩ := h
  refine of_perm (hperm.flatMap_right f) ?_
  clear hperm
  induction heach with
  | nil => exact of_forall₂ .nil
  | cons hab _ ih => exact append (hfg _ _ hab) ih

theorem exists_right (h : Shuffled P as bs) {a : α} (ha : a ∈ as) : ∃ b ∈ bs, P a b := by
  obtain ⟨cs, hperm, heach⟩ := h
  replace ha := hperm.mem_iff.mp ha
  clear hperm
  induction heach with
  | nil => cases ha
  | @cons c b cs bs hcb _ ih =>
    rcases List.mem_cons.mp ha with rfl | ha
    · exact ⟨b, List.mem_cons_self, hcb⟩
    · obtain ⟨b', hb', hab⟩ := ih ha
      exact ⟨b', List.mem_cons_of_mem b hb', hab⟩

theorem exists_left (h : Shuffled P as bs) {b : β} (hb : b ∈ bs) : ∃ a ∈ as, P a b := by
  obtain ⟨cs, hperm, heach⟩ := h
  obtain ⟨a, ha, hab⟩ := (of_forall₂ heach.flip).exists_right hb
  exact ⟨a, hperm.mem_iff.mpr ha, hab⟩

/-- What is read off related elements in the same way is the same up to the order. -/
theorem filterMap_perm {f : α → Option γ} {g : β → Option γ} (h : Shuffled P as bs)
    (hfg : ∀ a b, P a b → f a = g b) : (as.filterMap f).Perm (bs.filterMap g) := by
  obtain ⟨cs, hperm, heach⟩ := h
  rw [← filterMap_eq_of_forall₂ (heach.imp hfg)]
  exact hperm.filterMap f

theorem isEmpty_eq (h : Shuffled P as bs) : as.isEmpty = bs.isEmpty := by
  obtain ⟨cs, hperm, heach⟩ := h
  have hlength : as.length = bs.length := hperm.length_eq.trans heach.length_eq
  cases as <;> cases bs <;> simp_all

end Shuffled

theorem unfolds_shuffled : Unfolds (Shuffled (Act.Alike R Q)) R Q where
  nil := .of_forall₂ .nil
  issue i := .of_forall₂ (.cons (.issue i) .nil)
  fault := .of_forall₂ (.cons .fault .nil)
  append h h' := h.append h'
  alike h := .of_forall₂ h
  flatMap h hfg := h.flatMap hfg

theorem spans_of_shuffled {α β : Type} {P : α → β → Prop} {as : List α} {bs : List β}
    (h : Shuffled P as bs) : Spans (Shuffled (Act.Alike R Q)) P as bs :=
  fun _ _ hfg => h.flatMap hfg

/-- If every key counts, no entry is left out. -/
theorem shuffled_of_layer {es : Entries X} {fs : Entries Y}
    (h : SparseLayer (fun _ => True) Q (.mapping es) (.mapping fs)) :
    Shuffled (fun e f => f.1 = e.1 ∧ Q e.2 f.2) es fs := by
  cases h with
  | @mapping _ kept dropped _ _ order skipped each =>
    obtain rfl : dropped = [] := List.eq_nil_iff_forall_not_mem.mpr fun e he => skipped e he trivial
    rw [List.append_nil] at order
    exact ⟨kept, order, each⟩

section Reordered

variable [Node X] [Node Y] {subject : X} {subject' : Y}

/-- The document with the entries of its mappings in another order, at any depth. -/
def Reordered : X → Y → Prop := Sparse fun _ => True

theorem Reordered.layer (h : Reordered subject subject') :
    SparseLayer (fun _ => True) Reordered (Node.view subject) (Node.view subject') := Sparse.layer h

theorem reordered_of_views {es kept : Entries X} {fs : Entries Y}
    (hv : Node.view subject = .mapping es) (hv' : Node.view subject' = .mapping fs)
    (distinct : es.Distinct) (order : es.Perm kept)
    (each : List.Forall₂ (fun e f => f.1 = e.1 ∧ Reordered e.2 f.2) kept fs) :
    Reordered subject subject' := by
  refine Sparse.of_layer ?_
  rw [hv, hv']
  exact .mapping distinct ((List.append_nil kept).symm ▸ order) (List.forall_mem_nil _) each

theorem reordered_of_perm {es kept : Entries Value} {fs : Entries Value} (distinct : es.Distinct)
    (order : es.Perm kept) (each : List.Forall₂ (fun e f => f.1 = e.1 ∧ Reordered e.2 f.2) kept fs) :
    Reordered (Value.mapping es) (Value.mapping fs) := reordered_of_views rfl rfl distinct order each

theorem acceptsWildcard_of_reordered (h : Reordered subject subject') :
    acceptsWildcard subject = acceptsWildcard subject' := by
  have hlayer := h.layer
  unfold acceptsWildcard
  generalize Node.view subject = v at hlayer ⊢
  generalize Node.view subject' = w at hlayer ⊢
  cases hlayer with
  | null => rfl
  | scalar s => rfl
  | sequence form each => rfl
  | mapping distinct order skipped each =>
    have hentries := shuffled_of_layer (.mapping distinct order skipped each)
    exact congrArg Bool.not hentries.isEmpty_eq

theorem shuffled_members (h : Reordered subject subject') :
    Shuffled (fun m m' => m'.1 = m.1 ∧ Reordered m.2 m'.2) (members subject) (members subject') := by
  have hlayer := h.layer
  generalize hv : Node.view subject = v at hlayer
  generalize hv' : Node.view subject' = w at hlayer
  cases hlayer with
  | null => simpa only [members, hv, hv'] using Shuffled.of_forall₂ .nil
  | scalar s => simpa only [members, hv, hv'] using Shuffled.of_forall₂ .nil
  | sequence form each => exact .of_forall₂ (forall₂_members_of_sequence hv hv' each)
  | mapping distinct order skipped each =>
    have hentries := shuffled_of_layer (.mapping distinct order skipped each)
    simpa only [members, hv, hv'] using hentries

theorem agree_of_reordered (key : Key) (h : Reordered subject subject') :
    Agree (Shuffled (Act.Alike R Reordered)) Reordered key subject subject' where
  entry := rel_entry?_of_sparse h.layer (fun _ _ => trivial) fun _ _ => trivial
  accepts _ := acceptsWildcard_of_reordered h
  members _ := spans_of_shuffled (shuffled_members h)

variable [Node S] [Node T]

theorem demands_of_reordered {shape : S} {shape' : T} (h : Reordered shape shape') :
    Demands Reordered shape shape' := by
  have hlayer := h.layer
  generalize hv : Node.view shape = v at hlayer
  generalize hv' : Node.view shape' = w at hlayer
  cases hlayer with
  | null => exact .leaf (.inl (Node.kind_of_view hv)) (.inl (Node.kind_of_view hv'))
  | scalar s => exact .leaf (.inr (Node.kind_of_view hv)) (.inr (Node.kind_of_view hv'))
  | sequence form each => exact .of_forall₂ hv hv' each
  | mapping distinct order skipped each =>
    have hentries := shuffled_of_layer (.mapping distinct order skipped each)
    exact .mapping hv hv' hentries.isEmpty_eq h

/-- Walks over documents in another order are in step, up to the order of the acts. -/
theorem inStep_of_reordered :
    InStep (S := S) (T := T) (X := X) (Y := Y) (Shuffled (Act.Alike Reordered Reordered)) Reordered
      Reordered where
  outline x y h := outline_of_sparse h.layer
  demands shape shape' h := demands_of_reordered h
  entries := by
    intro shape shape' subject subject' es fs hs hx hv hv'
    have hlayer := hs.layer
    rw [hv, hv'] at hlayer
    intro f g hfg
    refine (shuffled_of_layer hlayer).flatMap fun e e' he => hfg e e' ⟨he.1, he.2, ?_⟩
    exact agree_of_reordered e.1 hx

end Reordered
end Conform.Matching

namespace Conform.Matcher

open Matching

variable {S T X Y : Type} {R : S → T → Prop} {Q : X → Y → Prop}

/-- Acts in another order are stopped if and only if they were stopped before, and for nothing new. -/
theorem settle_of_shuffled {as : List (Act S X)} {bs : List (Act T Y)}
    (h : Shuffled (Act.Alike R Q) as bs) (stop : Pointer → WalkError) (maxDepth : Int) :
    (∃ e ∈ pending stop as, ∃ e' ∈ pending stop as,
      settle stop maxDepth as = .error (.walk maxDepth e) ∧
      settle stop maxDepth bs = .error (.walk maxDepth e')) ∨
    ∃ found found' : List Issue, settle stop maxDepth as = .ok (.ofIssues found) ∧
      settle stop maxDepth bs = .ok (.ofIssues found') ∧ found.Perm found' := by
  have hpending : (pending stop as).Perm (pending stop bs) :=
    h.filterMap_perm fun _ _ hab => hab.error?_eq stop
  have hissues : (issuesOf as).Perm (issuesOf bs) := h.filterMap_perm fun _ _ hab => hab.issue?_eq
  unfold settle
  cases hp : pending stop as with
  | nil =>
    rw [hp, List.nil_perm] at hpending
    rw [hpending]
    exact .inr ⟨_, _, rfl, rfl, hissues⟩
  | cons e es =>
    cases hq : pending stop bs with
    | nil =>
      rw [hp, hq] at hpending
      cases hpending.length_eq
    | cons e' es' =>
      rw [hp, hq] at hpending
      exact .inl ⟨e, List.mem_cons_self, e', hpending.mem_iff.mpr List.mem_cons_self, rfl, rfl⟩

theorem status_of_perm {found found' : List Issue} (h : found.Perm found') :
    (Report.ofIssues found).status = (Report.ofIssues found').status := by
  cases found with
  | nil => rw [List.nil_perm.mp h]
  | cons i found =>
    cases found' with
    | nil => cases h.length_eq
    | cons j found' => simp [Report.status]

variable [Node S] [Node T] [Node X] [Node Y]

/-- **The order of entries does not matter.** If the entries of the mappings of a shape and of a
subject are put in any order, at any depth, then either a lenient matcher stops before and after, or it
returns a report before and after: with the same issues, each as often as before, so with the same
verdict. Where it stops, it does so for the depth, unless a key has no text. -/
theorem verifyOn_perm_of_reordered (stack : Stack) (m : Matcher) (hm : m.strict = false) {shape : S}
    {shape' : T} (hs : Node.kind shape = .mapping) (hshape : Reordered shape shape') {subject : X}
    {subject' : Y} (hsubject : Reordered subject subject') :
    (∃ e e', m.verifyOn stack shape subject = .error e ∧
      m.verifyOn stack shape' subject' = .error e' ∧
      ∀ f ∈ [e, e'], f.isDepth = true ∨
        ¬ (PartsWritable shape ∧ KeysWritable subject) ∧ f = .walk m.maxDepth .unwritable) ∨
    ∃ r r', m.verifyOn stack shape subject = .ok r ∧ m.verifyOn stack shape' subject' = .ok r' ∧
      r.issues.Perm r'.issues ∧ r.messages.Perm r'.messages ∧ r.status = r'.status := by
  have hs' : Node.kind shape' = .mapping := (demands_of_reordered hshape).mapping_iff.mp hs
  have hacts : Shuffled (Act.Alike Reordered Reordered) (m.unfolded stack shape subject)
      (m.unfolded stack shape' subject') :=
    inStep_of_reordered.unfolding unfolds_shuffled _ .root hshape hsubject
  rw [verifyOn_eq_settle stack hm hs, verifyOn_eq_settle stack hm hs']
  rcases settle_of_shuffled hacts (stopOn stack.walk m.maxDepth 0) m.maxDepth with
    ⟨e, he, e', he', herror, herror'⟩ | ⟨found, found', hfound, hfound', hperm⟩
  · have hstopped : ∀ f ∈ pending (stopOn stack.walk m.maxDepth 0) (m.unfolded stack shape subject),
        (VerifyError.walk m.maxDepth f).isDepth = true ∨ ¬ (PartsWritable shape ∧ KeysWritable subject) ∧
          VerifyError.walk m.maxDepth f = .walk m.maxDepth .unwritable := by
      intro f hf
      rcases mem_pending hf with ⟨⟨p, rfl⟩, -⟩ | ⟨rfl, hfault⟩
      · exact .inl (isDepth_stopOn _ _ _ p)
      · exact .inr ⟨not_writable_of_fault hfault, rfl⟩
    refine .inl ⟨_, _, herror, herror', List.forall_mem_cons.mpr ⟨hstopped e he, ?_⟩⟩
    exact List.forall_mem_singleton.mpr (hstopped e' he')
  · refine .inr ⟨_, _, hfound, hfound', ?_, ?_, status_of_perm hperm⟩
    · rw [Report.issues_ofIssues, Report.issues_ofIssues]
      exact hperm
    · rw [Report.messages_ofIssues, Report.messages_ofIssues]
      exact hperm.map Issue.message

/-- The cellar is asked for three times: under a name, as an optional entry and as a member. -/
def storeys : Value :=
  .record [("[*:key]", .record [("door", .null)]),
    ("cellar", .record [("drain", .null), ("lamp", .null)]), ("[opt:key:cellar]", .list [.null])]

def storeysReordered : Value :=
  .record [("[opt:key:cellar]", .list [.null]),
    ("cellar", .record [("lamp", .null), ("drain", .null)]), ("[*:key]", .record [("door", .null)])]

def tower : Value := .record [("cellar", .record [("rat", .null), ("lamp", .null)]), ("roof", .null)]

def towerReordered : Value :=
  .record [("roof", .null), ("cellar", .record [("lamp", .null), ("rat", .null)])]

theorem reordered_null : Reordered Value.null Value.null := .of_layer .null

theorem reordered_storeys : Reordered storeys storeysReordered := by
  have hdoor : Reordered (Value.record [("door", .null)]) (Value.record [("door", .null)]) :=
    reordered_of_perm (by decide) (.refl _) (.cons ⟨rfl, reordered_null⟩ .nil)
  have hcellar : Reordered (Value.record [("drain", .null), ("lamp", .null)])
      (Value.record [("lamp", .null), ("drain", .null)]) :=
    reordered_of_perm (by decide) (.swap _ _ _)
      (.cons ⟨rfl, reordered_null⟩ (.cons ⟨rfl, reordered_null⟩ .nil))
  have hlist : Reordered (Value.list [.null]) (Value.list [.null]) :=
    .of_layer (.sequence .list (.cons reordered_null .nil))
  exact reordered_of_perm (by decide) (List.reverse_perm _).symm
    (.cons ⟨rfl, hlist⟩ (.cons ⟨rfl, hcellar⟩ (.cons ⟨rfl, hdoor⟩ .nil)))

theorem reordered_tower : Reordered tower towerReordered := by
  have hcellar : Reordered (Value.record [("rat", .null), ("lamp", .null)])
      (Value.record [("lamp", .null), ("rat", .null)]) :=
    reordered_of_perm (by decide) (.swap _ _ _)
      (.cons ⟨rfl, reordered_null⟩ (.cons ⟨rfl, reordered_null⟩ .nil))
  exact reordered_of_perm (by decide) (.swap _ _ _)
    (.cons ⟨rfl, reordered_null⟩ (.cons ⟨rfl, hcellar⟩ .nil))

theorem verifyOn_perm_of_reordered_tower :
    Node.kind storeys = .mapping ∧ Reordered storeys storeysReordered ∧
      Reordered tower towerReordered ∧
      ∃ r r', (⟨9, false, by decide⟩ : Matcher).verify storeys tower = .ok r ∧
        (⟨9, false, by decide⟩ : Matcher).verify storeysReordered towerReordered = .ok r' ∧
        r.issues.Perm r'.issues ∧ r.status = r'.status ∧
        r.messages = ["Missing required key 'door' at /cellar",
          "Missing required key 'door' at /roof", "Missing required key 'drain' at /cellar",
          "Value at /cellar should be array (expected: array, found: object)"] ∧
        r'.messages = ["Value at /cellar should be array (expected: array, found: object)",
          "Missing required key 'drain' at /cellar", "Missing required key 'door' at /roof",
          "Missing required key 'door' at /cellar"] := by
  refine ⟨rfl, reordered_storeys, reordered_tower, ?_⟩
  rcases verifyOn_perm_of_reordered .usual ⟨9, false, by decide⟩ rfl rfl reordered_storeys
    reordered_tower with ⟨e, e', he, -⟩ | ⟨r, r', hr, hr', hissues, -, hstatus⟩
  · cases he
  · obtain rfl := Except.ok.inj hr
    obtain rfl := Except.ok.inj hr'
    exact ⟨_, _, rfl, rfl, hissues, hstatus, rfl, rfl⟩

/-- A shaft that leads down too far. -/
def shaft : Key × Value := (.str "shaft", .record [("landing", .record [("floor", .null)])])

/-- The order of entries decides whether a walk is stopped for the depth or by a key without a text. -/
theorem depth_error_depends_on_order :
    Reordered (Value.mapping [shaft, (longKey, .null)]) (Value.mapping [(longKey, .null), shaft]) ∧
      (∃ path, narrow.verifyOn .unbounded (Value.mapping [shaft, (longKey, .null)])
        (Value.mapping [shaft]) = .error (.walk 1 (.tooDeep 1 path))) ∧
      narrow.verifyOn .unbounded (Value.mapping [(longKey, .null), shaft]) (Value.mapping [shaft]) =
        .error (.walk 1 .unwritable) := by
  have hfloor : Reordered (Value.record [("floor", .null)]) (Value.record [("floor", .null)]) :=
    reordered_of_perm (by decide) (.refl _) (.cons ⟨rfl, reordered_null⟩ .nil)
  have hshaft : Reordered shaft.2 shaft.2 :=
    reordered_of_perm (by decide) (.refl _) (.cons ⟨rfl, hfloor⟩ .nil)
  have hdistinct : Entries.Distinct [shaft, (longKey, .null)] := by decide
  refine ⟨?_, ⟨"/shaft/landing", rfl⟩, verifyOn_of_first_key rfl rfl longKey_not_writable⟩
  exact reordered_of_perm hdistinct (.swap _ _ _)
    (.cons ⟨rfl, reordered_null⟩ (.cons ⟨rfl, hshaft⟩ .nil))

end Conform.Matcher
