import Conform.Proofs.Document.Decoding
import Conform.Proofs.Json.Ascii
import Conform.Proofs.Json.RoundTrip
import Conform.Result

/-!
# Results in JSON read back

The JSON text about a list of results is ASCII, and what is decoded from it is a record of the results
in order, with everything that is known about each of them.
-/
namespace Conform

namespace Json

/-- An object that names no field twice is a record of its fields. -/
theorem toValue_object {fields : List (String × Json)} (h : (fields.map Prod.fst).Nodup) :
    (Json.object fields).toValue = .record (fields.map fun f => (f.1, f.2.toValue)) := by
  have hdistinct : Entries.Distinct (toEntries fields) := by
    rw [toEntries_eq_map]
    refine List.pairwise_map.mpr ((List.pairwise_map.mp h).imp fun hne => ?_)
    rw [Key.same_str]
    exact decide_eq_false hne
  rw [toValue, Entries.ofList_of_distinct hdistinct, toEntries_eq_map, Value.record, List.map_map]
  rfl

theorem toValue_array (xs : List Json) : (Json.array xs).toValue = .list (xs.map toValue) := by
  rw [toValue, toValues_eq_map]

end Json

/-! ## What the text says -/

def Issue.summary (i : Issue) : Value :=
  .record [("kind", .str i.kind.name), ("message", .str i.message), ("path", .str i.path)]

/-- A result without a path says nothing about it. -/
def Result.summary (r : Result) : Value :=
  .record (("name", .str r.name) :: (r.shape.map fun p => ("shape", .str p.text)).toList
    ++ (r.subject.map fun p => ("subject", .str p.text)).toList
    ++ [("status", .str r.report.status.name), ("messages", .list (r.report.messages.map .str)),
      ("issues", .list (r.report.issues.map Issue.summary))])

namespace Rendering

def summary (rs : List Result) : Value :=
  .record [("documents", .int rs.length),
    ("errors", .int (rs.flatMap fun r => r.report.messages).length),
    ("results", .list (rs.map Result.summary))]

end Rendering

theorem Issue.toValue_toJson (i : Issue) : i.toJson.toValue = i.summary := by
  have hnames : ["kind", "message", "path"].Nodup := by decide
  exact Json.toValue_object hnames

theorem Result.nodup_fields (r : Result) : (r.fields.map Prod.fst).Nodup := by
  unfold fields Report.fields
  cases r.shape <;> cases r.subject <;> simp

theorem Result.toValue_toJson (r : Result) : r.toJson.toValue = r.summary := by
  have hmessages : (Json.array (r.report.messages.map .str)).toValue =
      .list (r.report.messages.map .str) := by
    rw [Json.toValue_array, List.map_map]
    rfl
  have hissues : (Json.array (r.report.issues.map Issue.toJson)).toValue =
      .list (r.report.issues.map Issue.summary) := by
    rw [Json.toValue_array, List.map_map]
    exact congrArg Value.list (List.map_congr_left fun i _ => Issue.toValue_toJson i)
  rw [toJson, Json.toValue_object r.nodup_fields, Result.summary, fields, ← hmessages, ← hissues]
  cases r.shape <;> cases r.subject <;> rfl

theorem Rendering.toValue_document (rs : List Result) :
    (document rs).toValue = summary rs := by
  have hnames : ([("documents", .int rs.length), ("errors", .int (messageCount rs)),
      ("results", .array (rs.map Result.toJson))] : List (String × Json)).map Prod.fst |>.Nodup := by
    show ["documents", "errors", "results"].Nodup
    decide
  have hresults : (Json.array (rs.map Result.toJson)).toValue = .list (rs.map Result.summary) := by
    rw [Json.toValue_array, List.map_map]
    exact congrArg Value.list (List.map_congr_left fun r _ => r.toValue_toJson)
  rw [document, Json.toValue_object hnames, summary, ← hresults]
  rfl

namespace Rendering

open Json (Fits)

theorem fits_texts (room : Nat) (texts : List String) :
    ∀ j ∈ texts.map Json.str, Fits room j :=
  List.forall_mem_map.mpr fun s _ => .str s

theorem fits_issue (room : Nat) (i : Issue) : Fits (room + 1) i.toJson :=
  .object (List.forall_mem_cons.mpr ⟨.str _, List.forall_mem_cons.mpr ⟨.str _,
    List.forall_mem_singleton.mpr (.str _)⟩⟩)

theorem fits_result (room : Nat) (r : Result) : Fits (room + 3) r.toJson := by
  refine .object (List.forall_mem_append.mpr ⟨List.forall_mem_append.mpr ⟨?_, ?_⟩, ?_⟩)
  · refine List.forall_mem_cons.mpr ⟨.str _, ?_⟩
    cases r.shape with
    | none => exact List.forall_mem_nil _
    | some p => exact List.forall_mem_singleton.mpr (.str _)
  · cases r.subject with
    | none => exact List.forall_mem_nil _
    | some p => exact List.forall_mem_singleton.mpr (.str _)
  · exact List.forall_mem_cons.mpr ⟨.str _, List.forall_mem_cons.mpr
      ⟨.array (fits_texts _ _), List.forall_mem_singleton.mpr
        (.array (List.forall_mem_map.mpr fun i _ => fits_issue room i))⟩⟩

theorem fits_document {rs : List Result}
    (hdocuments : Numeral.isWritable rs.length = true)
    (herrors : Numeral.isWritable (messageCount rs) = true) (room : Nat) :
    Fits (room + 5) (document rs) :=
  .object (List.forall_mem_cons.mpr ⟨.int hdocuments, List.forall_mem_cons.mpr ⟨.int herrors,
    List.forall_mem_singleton.mpr
      (.array (List.forall_mem_map.mpr fun r _ => fits_result room r))⟩⟩)

theorem isWritable_length {α : Type} (xs : List α) :
    Numeral.isWritable xs.length = true ↔ xs.length < Nat.pow 10 Numeral.digitLimit := by
  rw [Numeral.isWritable, decide_eq_true_iff, Int.natAbs_natCast]

/-- The text is ASCII. It is decoded to the summary of the results, if they and their messages can be
counted in as many digits as an integer may have. -/
theorem json_read_back (rs : List Result) :
    (∀ c ∈ (json rs).toList, c.toNat < 0x80) ∧
    (Document.decodeNamed "json" (json rs).toList = .ok (.tree (summary rs)) ↔
      rs.length < Nat.pow 10 Numeral.digitLimit ∧
        (rs.flatMap fun r => r.report.messages).length < Nat.pow 10 Numeral.digitLimit) := by
  constructor
  · rw [json, Json.write, String.toList_ofList]
    exact Json.isAscii_chars (document rs) 0
  have hformat : Document.decodeNamed "json" = Document.decode .json := rfl
  rw [hformat, ← isWritable_length, ← isWritable_length]
  constructor
  · intro h
    -- An integer that was read has few digits.
    have hparts := (Document.dumpable_tree_iff.mp (Document.dumpable_of_json h)).2
    have hint : ∀ n : Int, Value.int n ∈ (summary rs).view.parts → Numeral.isWritable n = true :=
      fun n hn => (Document.dumpable_tree_iff.mp (hparts _ hn)).1
    exact ⟨hint _ List.mem_cons_self, hint _ (List.mem_cons_of_mem _ List.mem_cons_self)⟩
  · rintro ⟨hdocuments, herrors⟩
    have hread := Json.readChars_write Json.Style.sound_ascii (fits_document hdocuments herrors 985)
    unfold Document.decode
    dsimp only
    rw [json, hread]
    exact congrArg (fun v => Except.ok (Document.tree v)) (toValue_document rs)

end Rendering
end Conform
