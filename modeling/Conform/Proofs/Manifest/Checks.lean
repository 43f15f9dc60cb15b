import Conform.Command.Run
import Conform.Proofs.Manifest.Schema

/-!
# The checks that a manifest lists

A document that is loaded as a manifest either lists checks, all of which are returned, or is refused with
all its problems. The one exception is a problem that cannot be told.
-/
namespace Conform.Manifest

open Command (Run)

/-- What an entry of a manifest says. -/
structure Entry where
  shape : String
  subject : String
  name : Option String
  strict : Option Bool

def textView (t : String) : View Document := .scalar (.atom (.str t))

def truthView (b : Bool) : View Document := .scalar (.atom (.bool b))

/-- The layer of the value of a field. -/
def fieldView (es : Entries Document) (field : String) : Option (View Document) :=
  (es.get? (.str field)).map Document.view

/-- A mapping that says what an entry says and nothing else. -/
structure Entry.Of (e : Entry) (es : Entries Document) : Prop where
  keys : ∀ f ∈ es, f.1 = .str "name" ∨ f.1 = .str "shape" ∨ f.1 = .str "subject" ∨ f.1 = .str "strict"
  shape : fieldView es "shape" = some (textView e.shape) ∧ e.shape ≠ ""
  subject : fieldView es "subject" = some (textView e.subject) ∧ e.subject ≠ ""
  name : fieldView es "name" = e.name.map textView ∧ e.name ≠ some ""
  strict : fieldView es "strict" = e.strict.map truthView

/-- The check of an entry. It is called by its subject, unless it has a name, and its paths start at the
base of the manifest, unless they are absolute. -/
def Entry.check (base : Path) (e : Entry) : Check where
  name := e.name.getD e.subject
  shape := base.join (.ofText e.shape)
  subject := base.join (.ofText e.subject)
  strict := e.strict

/-- A mapping whose only key is `checks`, and its value a list of entries. -/
def Lists (d : Document) (entries : List Entry) : Prop :=
  ∃ es xs, d.view = .mapping es ∧ (∀ f ∈ es, f.1 = .str "checks") ∧
    fieldView es "checks" = some (.sequence .list xs) ∧ entries ≠ [] ∧
    List.Forall₂ (fun e x => ∃ fs, x.view = .mapping fs ∧ e.Of fs) entries xs

variable {es : Entries Document} {d x : Document} {field : String} {e : Entry} {entries : List Entry}
  {base : Path}

theorem isSome_fieldView : (fieldView es field).isSome = es.has (.str field) := by
  rw [fieldView, Option.isSome_map, Entries.has_eq_isSome_get?]

/-! ## The schema -/

theorem text_field_iff : (∀ x, es.get? (.str field) = some x → Schema.text.Accepts x) ↔
    ∃ t, fieldView es field = Option.map textView t ∧ t ≠ some "" := by
  unfold fieldView
  cases es.get? (.str field) with
  | none => exact ⟨fun _ => ⟨none, rfl, nofun⟩, fun _ => nofun⟩
  | some x =>
    constructor
    · intro h
      cases h x rfl with
      | @text _ t hx hne => exact ⟨some t, congrArg some hx, fun ht => hne (Option.some.inj ht)⟩
    · rintro ⟨t, ht, hne⟩ x ⟨⟩
      cases t with
      | none => cases ht
      | some t => exact .text (Option.some.inj ht) fun h => hne (congrArg some h)

theorem truth_field_iff : (∀ x, es.get? (.str field) = some x → Schema.truth.Accepts x) ↔
    ∃ b, fieldView es field = Option.map truthView b := by
  unfold fieldView
  cases es.get? (.str field) with
  | none => exact ⟨fun _ => ⟨none, rfl⟩, fun _ => nofun⟩
  | some x =>
    constructor
    · intro h
      cases h x rfl with
      | @truth _ b hx => exact ⟨some b, congrArg some hx⟩
    · rintro ⟨b, hb⟩ x ⟨⟩
      cases b with
      | none => cases hb
      | some b => exact .truth (Option.some.inj hb)

theorem required_text_field (hrequired : es.has (.str field) = true)
    (h : ∀ x, es.get? (.str field) = some x → Schema.text.Accepts x) :
    ∃ t, fieldView es field = some (textView t) ∧ t ≠ "" := by
  obtain ⟨t, ht, hne⟩ := text_field_iff.mp h
  rw [← isSome_fieldView, ht] at hrequired
  cases t with
  | none => cases hrequired
  | some t => exact ⟨t, ht, fun h => hne (congrArg some h)⟩

theorem checkSchema_accepts_iff :
    checkSchema.Accepts x ↔ ∃ (e : Entry) (es : _), x.view = .mapping es ∧ e.Of es := by
  constructor
  · intro h
    cases h with
    | record hx hrequired hfields hkeys =>
      obtain ⟨shape, hshape⟩ := required_text_field (hrequired "shape" (by decide))
        (hfields ("shape", .text) (by simp))
      obtain ⟨subject, hsubject⟩ := required_text_field (hrequired "subject" (by decide))
        (hfields ("subject", .text) (by simp))
      obtain ⟨name, hname⟩ := text_field_iff.mp (hfields ("name", .text) (by simp))
      obtain ⟨strict, hstrict⟩ := truth_field_iff.mp (hfields ("strict", .truth) (by simp))
      exact ⟨⟨shape, subject, name, strict⟩, _, hx, by simpa using hkeys, hshape, hsubject, hname,
        hstrict⟩
  · rintro ⟨e, es, hx, he⟩
    have hrequired : es.has (.str "shape") = true ∧ es.has (.str "subject") = true := by
      rw [← isSome_fieldView, ← isSome_fieldView, he.shape.1, he.subject.1]
      exact ⟨rfl, rfl⟩
    have hshape := text_field_iff.mpr ⟨some e.shape, he.shape.1, by simpa using he.shape.2⟩
    have hsubject := text_field_iff.mpr ⟨some e.subject, he.subject.1, by simpa using he.subject.2⟩
    have hname := text_field_iff.mpr ⟨e.name, he.name⟩
    have hstrict := truth_field_iff.mpr ⟨e.strict, he.strict⟩
    exact .record hx (by simpa using hrequired)
      (List.forall_mem_cons.mpr ⟨hname, List.forall_mem_cons.mpr ⟨hshape,
        List.forall_mem_cons.mpr ⟨hsubject, List.forall_mem_singleton.mpr hstrict⟩⟩⟩)
      (by simpa using he.keys)

theorem exists_forall₂_iff {α β : Type} {R : α → β → Prop} {ys : List β} :
    (∃ xs, List.Forall₂ R xs ys) ↔ ∀ y ∈ ys, ∃ x, R x y := by
  constructor
  · rintro ⟨xs, h⟩
    induction h with
    | nil => exact List.forall_mem_nil _
    | cons hx _ ih => exact List.forall_mem_cons.mpr ⟨⟨_, hx⟩, ih⟩
  · intro h
    induction ys with
    | nil => exact ⟨[], .nil⟩
    | cons y ys ih =>
      obtain ⟨⟨x, hx⟩, hys⟩ := List.forall_mem_cons.mp h
      obtain ⟨xs, hxs⟩ := ih hys
      exact ⟨x :: xs, .cons hx hxs⟩

theorem schema_accepts_iff : schema.Accepts d ↔ ∃ entries, Lists d entries := by
  constructor
  · intro h
    cases h with
    | @record _ _ _ es hd hrequired hfields hkeys =>
      have hhas := hrequired "checks" (by decide)
      rw [Entries.has_eq_isSome_get?] at hhas
      obtain ⟨checks, hchecks⟩ := Option.isSome_iff_exists.mp hhas
      cases hfields ("checks", .list checkSchema) (by simp) checks hchecks with
      | @list _ _ xs hlist hne hitems =>
        obtain ⟨entries, hentries⟩ := exists_forall₂_iff.mpr fun x hx =>
          checkSchema_accepts_iff.mp (hitems x hx)
        refine ⟨entries, es, xs, hd, by simpa using hkeys, ?_, ?_, hentries⟩
        · rw [fieldView, hchecks, Option.map_some, hlist]
        · rintro rfl
          cases hentries
          exact hne rfl
  · rintro ⟨entries, es, xs, hd, hkeys, hchecks, hne, hentries⟩
    obtain ⟨checks, hget, hlist⟩ := Option.map_eq_some_iff.mp hchecks
    have haccepts : (Schema.list checkSchema).Accepts checks := by
      refine .list hlist ?_ fun x hx =>
        checkSchema_accepts_iff.mpr (exists_forall₂_iff.mp ⟨entries, hentries⟩ x hx)
      rintro rfl
      cases hentries
      exact hne rfl
    refine .record hd ?_ ?_ (by simpa using hkeys)
    · rw [List.forall_mem_singleton, Entries.has_eq_isSome_get?, hget]
      rfl
    · refine List.forall_mem_singleton.mpr fun x hx => ?_
      cases hget.symm.trans hx
      exact haccepts

/-! ## What is read -/

theorem part?_eq (hx : x.view = .mapping es) (field : String) : part? field x = es.get? (.str field) := by
  simp only [part?, hx]

theorem text?_of_view {t : String} (h : x.view = textView t) : text? x = some t := by
  simp only [text?, h, textView]

theorem truth?_of_view {b : Bool} (h : x.view = truthView b) : truth? x = some b := by
  simp only [truth?, h, truthView]

/-- A field is read as what its value says. -/
theorem bind_read {α : Type} {read : Document → Option α} {layer : α → View Document}
    (hread : ∀ {y a}, y.view = layer a → read y = some a) (hx : x.view = .mapping es) {said : Option α}
    (h : fieldView es field = said.map layer) : (part? field x).bind read = said := by
  rw [part?_eq hx]
  unfold fieldView at h
  cases hget : es.get? (.str field) with
  | none =>
    rw [hget] at h
    exact (Option.map_eq_none_iff.mp h.symm).symm
  | some y =>
    rw [hget] at h
    obtain ⟨a, rfl, ha⟩ := Option.map_eq_some_iff.mp h.symm
    exact hread ha.symm

theorem check_eq (hx : x.view = .mapping es) (he : e.Of es) : check base x = e.check base := by
  have hshape : (part? "shape" x).bind text? = some e.shape := bind_read text?_of_view hx he.shape.1
  have hsubject : (part? "subject" x).bind text? = some e.subject :=
    bind_read text?_of_view hx he.subject.1
  have hname : (part? "name" x).bind text? = e.name := bind_read text?_of_view hx he.name.1
  have hstrict : (part? "strict" x).bind truth? = e.strict := bind_read truth?_of_view hx he.strict
  simp only [check, Entry.check, hshape, hsubject, hname, hstrict, Option.getD_some]

theorem problems_perm (d : Document) : (problems d).Perm (schema.violations d) :=
  List.mergeSort_perm _ _

theorem problems_eq_nil_iff (d : Document) : problems d = [] ↔ ∃ entries, Lists d entries := by
  rw [← schema_accepts_iff, ← Schema.violations_eq_nil_iff, ← List.length_eq_zero_iff,
    (problems_perm d).length_eq, List.length_eq_zero_iff]

theorem messages_eq_none_iff (d : Document) :
    (problems d).mapM Violation.message? = none ↔ schema.Conceals d := by
  rw [mapM_eq_none_iff, ← Schema.exists_untold_iff]
  exact exists_congr fun v => and_congr_left' (problems_perm d).mem_iff

theorem checks_of_lists (h : Lists d entries) (p : Path) :
    checks p d = .ok (entries.map (Entry.check p.parent)) := by
  have hnone := (problems_eq_nil_iff d).mpr ⟨entries, h⟩
  obtain ⟨es, xs, hd, -, hchecks, -, hentries⟩ := h
  obtain ⟨list, hget, hlist⟩ := Option.map_eq_some_iff.mp hchecks
  have hitems : ((part? "checks" d).map items).getD [] = xs := by
    rw [part?_eq hd, hget]
    simp only [Option.map_some, Option.getD_some, items, hlist]
  have hmap : ∀ {entries xs},
      List.Forall₂ (fun (e : Entry) x => ∃ fs, x.view = .mapping fs ∧ e.Of fs) entries xs →
      xs.map (check p.parent) = entries.map (Entry.check p.parent) := by
    intro entries xs hentries
    induction hentries with
    | nil => rfl
    | cons he _ ih =>
      obtain ⟨fs, hx, he⟩ := he
      rw [List.map_cons, List.map_cons, check_eq hx he, ih]
  simp only [checks, hnone, hitems, hmap hentries]

theorem checks_of_problems (h : problems d ≠ []) (p : Path) :
    checks p d = .error (.invalid p (problems d)) := by
  unfold checks
  split
  · contradiction
  · rfl

/-- The message of a refusal for problems with messages. -/
def refusalText (p : Path) (messages : List String) : String :=
  "Manifest validation failed for " ++ p.text ++ ":\n"
    ++ "\n".intercalate (messages.map ("  - " ++ ·))

theorem stopOfManifest_of_messages {problems : List Violation} {messages : List String}
    (h : problems.mapM Violation.message? = some messages) (p : Path) :
    Run.stopOfManifest (.invalid p problems) = .refusal (refusalText p messages) := by
  simp only [Run.stopOfManifest, ManifestError.message?, h]
  rfl

theorem stopOfManifest_of_untold {problems : List Violation}
    (h : problems.mapM Violation.message? = none) (p : Path) :
    Run.stopOfManifest (.invalid p problems) = .failure .unwritable := by
  simp only [Run.stopOfManifest, ManifestError.message?, h]
  rfl

/-- A document that is loaded as a manifest. If it lists entries, their checks are returned, and else it
is refused with all its problems, unless an integer of too many digits stands in what they show. -/
theorem load_of_document {fs : Files} {l : Loader} {p : Path}
    (h : (Loader.load fs l p none).result = .ok d) :
    (problems d = [] ↔ ∃ entries, Lists d entries) ∧
    (∀ entries, Lists d entries →
      (load fs l p).result = .ok (entries.map (Entry.check p.parent))) ∧
    ((¬ ∃ entries, Lists d entries) →
      (load fs l p).result = .error (.invalid p (problems d)) ∧
      (¬ schema.Conceals d → ∃ messages, (problems d).mapM Violation.message? = some messages ∧
        Run.stopOfManifest (.invalid p (problems d)) = .refusal (refusalText p messages)) ∧
      (schema.Conceals d →
        Run.stopOfManifest (.invalid p (problems d)) = .failure .unwritable)) := by
  have hload : (load fs l p).result = checks p d := by
    simp only [load, h]
  rw [hload]
  refine ⟨problems_eq_nil_iff d, fun entries hlists => checks_of_lists hlists p, fun hnone => ?_⟩
  refine ⟨checks_of_problems (mt (problems_eq_nil_iff d).mp hnone) p, fun hshown => ?_, fun hconceals =>
    stopOfManifest_of_untold ((messages_eq_none_iff d).mpr hconceals) p⟩
  obtain ⟨messages, hmessages⟩ := Option.ne_none_iff_exists'.mp (mt (messages_eq_none_iff d).mp hshown)
  exact ⟨messages, hmessages, stopOfManifest_of_messages hmessages p⟩

/-- A manifest with one entry, whose subject has a place of its own. -/
def batchFiles : Files := .ofList [(.ofText "dir/batch.yaml", .file
  "checks: [\x7bshape: s.yaml, subject: /d.yaml, strict: no\x7d]".toUTF8.toList)]

theorem load_of_document_batch : ∃ d,
    (Loader.load batchFiles (.start false) (.ofText "dir/batch.yaml") none).result = .ok d ∧
    problems d = [] ∧ ∃ entries, Lists d entries ∧ entries.map (Entry.check (.ofText "dir")) =
      [⟨"/d.yaml", .ofText "dir/s.yaml", .ofText "/d.yaml", some false⟩] := by
  have hok : (Loader.load batchFiles (.start false) (.ofText "dir/batch.yaml") none).result.isOk =
      true := by decide +kernel
  have hchecks : (load batchFiles (.start false) (.ofText "dir/batch.yaml")).result.toOption =
      some [⟨"/d.yaml", .ofText "dir/s.yaml", .ofText "/d.yaml", some false⟩] := by decide +kernel
  cases h : (Loader.load batchFiles (.start false) (.ofText "dir/batch.yaml") none).result with
  | error e =>
    rw [h] at hok
    cases hok
  | ok d =>
    obtain ⟨hproblems, hlists, hinvalid⟩ := load_of_document h
    have hexists : ∃ entries, Lists d entries := by
      by_contra hnone
      rw [(hinvalid hnone).1] at hchecks
      cases hchecks
    obtain ⟨entries, hentries⟩ := hexists
    rw [hlists entries hentries] at hchecks
    exact ⟨d, rfl, hproblems.mpr ⟨entries, hentries⟩, entries, hentries, Option.some.inj hchecks⟩

/-- A mapping with a number where the list of entries should be; in hexadecimal digits it is a one and
3600 zeros. -/
def hexadecimal : Document := .tree (.record [("checks", .int (Nat.pow 16 3600))])

theorem conceals_hexadecimal : schema.Conceals hexadecimal := by
  have hunwritable : (Document.tree (.int (Nat.pow 16 3600))).isWritable = false := by decide +kernel
  refine .field (f := ("checks", .list checkSchema)) rfl (List.mem_singleton_self _) rfl
    (.mistyped ?_ ?_)
  · rintro ⟨xs, hxs⟩
    cases hxs
  · rw [← Document.isWritable_iff, hunwritable]
    exact Bool.false_ne_true

/-- The document lists no entries, and yet it is not refused: the number has too many digits for the
message of the problem. -/
theorem hexadecimal_not_refused : problems hexadecimal ≠ [] ∧
    ∀ p, ∃ e, checks p hexadecimal = .error e ∧ Run.stopOfManifest e = .failure .unwritable := by
  have hmessages := (messages_eq_none_iff hexadecimal).mpr conceals_hexadecimal
  have hproblems : problems hexadecimal ≠ [] := by
    intro h
    rw [h] at hmessages
    cases hmessages
  exact ⟨hproblems, fun p => ⟨_, checks_of_problems hproblems p, stopOfManifest_of_untold hmessages p⟩⟩

end Conform.Manifest
