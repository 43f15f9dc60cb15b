import Conform.Proofs.Numeral.Written
import Conform.Proofs.Rendering.Annotations
import Conform.Proofs.Report

/-!
# The forms of output agree

The lines for people count messages in headings, list issues below them and close with the failed results.
The JSON document counts messages and states a status for every result, and the annotations are one line
for every message. For reports that are built up, all of these tell the same.
-/
namespace Conform

/-! ## What is read from a JSON document -/

/-- The counts in a JSON document about results, and the statuses of the results in it. -/
structure Tally where
  documents : Nat
  errors : Nat
  statuses : List String

namespace Json

def field? (name : String) : Json → Option Json
  | .object fields => fields.lookup name
  | _ => none

def status? (result : Json) : Option String :=
  match result.field? "status" with
  | some (.str s) => some s
  | _ => none

def tally? (j : Json) : Option Tally :=
  match j.field? "documents", j.field? "errors", j.field? "results" with
  | some (.int (.ofNat documents)), some (.int (.ofNat errors)), some (.array results) =>
    (results.mapM status?).map fun statuses => ⟨documents, errors, statuses⟩
  | _, _, _ => none

end Json

theorem Result.status?_toJson (r : Result) : r.toJson.status? = some r.report.status.name := by
  unfold toJson fields Json.status? Json.field?
  cases r.shape <;> cases r.subject <;> rfl

namespace Rendering

variable {rs : List Result}

theorem tally?_document (rs : List Result) : (document rs).tally? =
    some ⟨rs.length, messageCount rs, rs.map fun r => r.report.status.name⟩ := by
  have hstatuses : (rs.map Result.toJson).mapM Json.status? =
      some (rs.map fun r => r.report.status.name) := by
    induction rs with
    | nil => rfl
    | cons r rs ih => rw [List.map_cons, List.mapM_cons, r.status?_toJson, ih]; rfl
  show ((rs.map Result.toJson).mapM Json.status?).map _ = _
  rw [hstatuses]
  rfl

/-! ## The lines for people in parts -/

/-- What is said about one result: a heading, with a count if the result failed, and entries below it. -/
structure Paragraph where
  name : String
  failures : Option Nat
  entries : List Issue

namespace Paragraph

def heading (p : Paragraph) : String :=
  match p.failures with
  | none => s!"{p.name}: OK\n"
  | some n => s!"{p.name}: FAILED ({n} error(s))\n"

def text (p : Paragraph) : String := p.heading ++ String.join (p.entries.map issueLine)

def ofResult (r : Result) : Paragraph :=
  if r.report.isOk then ⟨r.name, none, []⟩
  else ⟨r.name, some r.report.messages.length, r.report.issues⟩

end Paragraph

/-- What the closing line says. -/
inductive Verdict
  | succeeded (documents : Nat)
  | failed (failures documents : Nat)

namespace Verdict

def text : Verdict → String
  | .succeeded n => s!"Verification succeeded: {n} document(s) matched the shape.\n"
  | .failed k n => s!"Verification failed: {k} of {n} document(s) did not match the shape.\n"

def ofCounts (failures documents : Nat) : Verdict :=
  if failures = 0 then .succeeded documents else .failed failures documents

end Verdict

/-- One paragraph for every result. -/
def paragraphs (rs : List Result) : List Paragraph := rs.map Paragraph.ofResult

theorem text_ofResult (r : Result) : (Paragraph.ofResult r).text = paragraph r := by
  unfold Paragraph.ofResult paragraph
  split
  · exact String.append_empty
  · rfl

theorem text_ofCounts (rs : List Result) :
    (Verdict.ofCounts (failedCount rs) rs.length).text = closingLine rs := by
  unfold Verdict.ofCounts closingLine
  split <;> rfl

theorem human_eq (rs : List Result) :
    human rs = String.join ((paragraphs rs).map Paragraph.text) ++
      (Verdict.ofCounts (failedCount rs) rs.length).text := by
  rw [human, text_ofCounts, paragraphs, List.map_map]
  congr 2
  exact List.map_congr_left fun r _ => (text_ofResult r).symm

/-! ## The closing line is found at the end of a text -/

theorem not_mem_toString {c : Char} (hc : c.isDigit = false) (n : Nat) : c ∉ (toString n).toList := by
  intro hmem
  rw [Numeral.isDigit_of_mem_toString hmem] at hc
  cases hc

namespace Verdict

/-- The text after its first letter. -/
def rest : Verdict → List Char
  | .succeeded n => "erification succeeded: ".toList ++ ((toString n).toList ++
      ' ' :: "document(s) matched the shape.\n".toList)
  | .failed k n => "erification failed: ".toList ++ ((toString k).toList ++
      ' ' :: ("of ".toList ++ ((toString n).toList ++
        ' ' :: "document(s) did not match the shape.\n".toList)))

theorem toList_text (v : Verdict) : v.text.toList = 'V' :: v.rest := by
  cases v with
  | succeeded n =>
    show ("Verification succeeded: " ++ toString n ++ " document(s) matched the shape.\n").toList = _
    rw [String.toList_append, String.toList_append, List.append_assoc]
    rfl
  | failed k n =>
    show ("Verification failed: " ++ toString k ++ " of " ++ toString n ++
      " document(s) did not match the shape.\n").toList = _
    simp only [String.toList_append, List.append_assoc]
    rfl

theorem not_mem_rest (v : Verdict) : 'V' ∉ v.rest := by
  have hnumber := not_mem_toString (c := 'V') (by decide)
  unfold rest
  cases v with
  | succeeded n =>
    dsimp only
    rw [List.mem_append, List.mem_append]
    exact not_or.mpr ⟨by decide, not_or.mpr ⟨hnumber n, by decide⟩⟩
  | failed k n =>
    dsimp only
    rw [List.mem_append, List.mem_append, List.mem_cons, List.mem_append, List.mem_append]
    exact not_or.mpr ⟨by decide, not_or.mpr ⟨hnumber k, not_or.mpr ⟨by decide,
      not_or.mpr ⟨by decide, not_or.mpr ⟨hnumber n, by decide⟩⟩⟩⟩⟩

theorem rest_injective {v w : Verdict} (h : v.rest = w.rest) : v = w := by
  unfold rest at h
  cases v with
  | succeeded m =>
    cases w with
    | succeeded n =>
      dsimp only at h
      rw [List.append_cancel_left_eq] at h
      obtain ⟨rfl, -⟩ := Numeral.toString_append_inj (by decide) h
      rfl
    | failed k n => simp at h
  | failed k m =>
    cases w with
    | succeeded n => simp at h
    | failed l n =>
      dsimp only at h
      rw [List.append_cancel_left_eq] at h
      obtain ⟨rfl, hdocuments⟩ := Numeral.toString_append_inj (by decide) h
      rw [List.append_cancel_left_eq] at hdocuments
      obtain ⟨rfl, -⟩ := Numeral.toString_append_inj (by decide) hdocuments
      rfl

/-- Its first letter is not found again in a closing line, so no other one is the end of the same text. -/
theorem eq_of_suffix {v w : Verdict} {cs : List Char} (hv : v.text.toList <:+ cs)
    (hw : w.text.toList <:+ cs) : v = w := by
  have hinside : ∀ v w : Verdict, v.text.toList <:+ w.text.toList → v = w := by
    intro v w h
    rw [toList_text, toList_text, List.suffix_cons_iff] at h
    rcases h with h | h
    · exact rest_injective (List.cons.inj h).2
    · exact absurd (h.subset List.mem_cons_self) w.not_mem_rest
  rcases List.suffix_or_suffix_of_suffix hv hw with h | h
  · exact hinside v w h
  · exact (hinside w v h).symm

theorem suffix_human_iff {v : Verdict} : v.text.toList <:+ (human rs).toList ↔
    v = .ofCounts (failedCount rs) rs.length := by
  have hend : (ofCounts (failedCount rs) rs.length).text.toList <:+ (human rs).toList := by
    rw [human_eq, String.toList_append]
    exact List.suffix_append _ _
  constructor
  · exact fun h => eq_of_suffix h hend
  · rintro rfl
    exact hend

theorem exists_succeeded_suffix_iff :
    (∃ n, (succeeded n).text.toList <:+ (human rs).toList) ↔ failedCount rs = 0 := by
  simp only [suffix_human_iff, ofCounts]
  split <;> simp [*]

end Verdict

/-! ## Counts -/

theorem sum_failures (rs : List Result) :
    ((paragraphs rs).filterMap Paragraph.failures).foldr (· + ·) 0 = messageCount rs := by
  induction rs with
  | nil => rfl
  | cons r rs ih =>
    have hcount : messageCount (r :: rs) = r.report.messages.length + messageCount rs := by
      rw [messageCount, List.flatMap_cons, List.length_append]
      rfl
    rw [hcount, paragraphs, List.map_cons, Paragraph.ofResult, ← paragraphs]
    split
    · rename_i hok
      rw [Report.isOk_iff.mp hok, List.filterMap_cons_none rfl, ih, List.length_nil, Nat.zero_add]
    · rw [← ih]
      rfl

/-- The entries are issues and the count is one of messages. -/
theorem length_entries {r : Result} (h : r.report.Built) :
    (Paragraph.ofResult r).entries.length = (Paragraph.ofResult r).failures.getD 0 := by
  unfold Paragraph.ofResult
  split
  · rfl
  · dsimp only [Option.getD_some]
    rw [h.messages_eq, List.length_map]

theorem length_annotationLines (rs : List Result) : (annotationLines rs).length = messageCount rs := by
  rw [annotationLines, messageCount, List.length_flatMap, List.length_flatMap]
  simp only [List.length_map]

theorem splitOn_annotations (rs : List Result) :
    (annotations rs).toList.splitOn '\n' = annotationLines rs ++ [[]] := by
  rw [annotations, String.toList_ofList]
  refine splitOn_lines fun line hline => ?_
  obtain ⟨file, message, rfl⟩ := exists_commandLine hline
  exact (commandLine_parts file message).1

theorem failedCount_eq_count (rs : List Result) :
    failedCount rs = (rs.map fun r => r.report.status.name).count "failed" := by
  rw [failedCount, ← List.countP_eq_length_filter, List.count_eq_countP, List.countP_map]
  refine List.countP_congr fun r _ => ?_
  simp [Report.status_name_eq_failed_iff, ← Report.isOk_iff]

theorem failedCount_eq_zero_iff : failedCount rs = 0 ↔ ∀ r ∈ rs, r.report.messages = [] := by
  simp [failedCount, Report.isOk_iff]

theorem annotations_eq_empty_iff : annotations rs = "" ↔ ∀ r ∈ rs, r.report.messages = [] := by
  have hlines : annotations rs = "" ↔ annotationLines rs = [] := by
    rw [← String.toList_inj, annotations, String.toList_ofList]
    cases annotationLines rs <;> simp
  rw [hlines, annotationLines, List.flatMap_eq_nil_iff]
  simp only [List.map_eq_nil_iff]

/-- **The forms of output agree** about results with reports that are built up. The JSON document counts as
many errors as there are lines of annotations, and as many as the headings for people count together. In
every paragraph for people, as many entries follow as the heading counts, and none where it has no count.
The text for people ends with the closing line about the statuses and the count of documents in JSON, and
with no other closing line. It ends with one of success exactly if there are no annotations, and that is if
every status is that of a pass. -/
theorem formats_agree (rs : List Result) (h : ∀ r ∈ rs, r.report.Built) :
    ∃ tally : Tally, json rs = (document rs).write .ascii ∧ (document rs).tally? = some tally ∧
      (annotations rs).toList.splitOn '\n' = annotationLines rs ++ [[]] ∧
      (annotationLines rs).length = tally.errors ∧
      human rs = String.join ((paragraphs rs).map Paragraph.text) ++ closingLine rs ∧
      ((paragraphs rs).filterMap Paragraph.failures).foldr (· + ·) 0 = tally.errors ∧
      (∀ p ∈ paragraphs rs, p.entries.length = p.failures.getD 0) ∧
      (∀ v : Verdict, v.text.toList <:+ (human rs).toList ↔
        v = .ofCounts (tally.statuses.count "failed") tally.documents) ∧
      ((∃ n, (Verdict.succeeded n).text.toList <:+ (human rs).toList) ↔ annotations rs = "") ∧
      (annotations rs = "" ↔ ∀ s ∈ tally.statuses, s = "ok") := by
  refine ⟨_, rfl, tally?_document rs, splitOn_annotations rs, length_annotationLines rs, ?_,
    sum_failures rs, ?_, fun v => ?_, ?_, ?_⟩
  · rw [human_eq, text_ofCounts]
  · exact List.forall_mem_map.mpr fun r hr => length_entries (h r hr)
  · rw [← failedCount_eq_count]
    exact Verdict.suffix_human_iff
  · rw [Verdict.exists_succeeded_suffix_iff, failedCount_eq_zero_iff, annotations_eq_empty_iff]
  · simp only [annotations_eq_empty_iff, List.forall_mem_map, Report.status_name_eq_ok_iff]

/-- What is found in a house without a door, where a key is not a bunch of keys. -/
def found : Report := .ofIssues
  [⟨.missingRequiredKey, "Missing required key 'door' at /", "/"⟩,
    ⟨.arrayTypeMismatch, "Value at /key should be array (expected: array, found: null)", "/key"⟩]

/-- Results of a verification, of adding an issue, and of nothing. Their names and messages look like
other lines. -/
def threeResults : List Result :=
  [⟨"house", found, none, some (.ofText "house.yaml")⟩,
    ⟨"rooms", Report.empty.add ⟨.emptyArray, "nothing\nthere: OK", "/rooms"⟩, none, none⟩,
    ⟨"garden: FAILED (7 error(s))", .empty, none, none⟩]

theorem formats_agree_three :
    (⟨1, false, by decide⟩ : Matcher).verify (Value.record [("door", .null), ("key", .list [])])
        (Value.record [("key", .null)]) = .ok found ∧
      (annotationLines threeResults).length = 3 ∧
      ∀ v : Verdict, v.text.toList <:+ (human threeResults).toList ↔ v = .failed 2 3 := by
  have hfound : (⟨1, false, by decide⟩ : Matcher).verify
      (Value.record [("door", .null), ("key", .list [])]) (Value.record [("key", .null)]) = .ok found := rfl
  have hbuilt : ∀ r ∈ threeResults, r.report.Built :=
    List.forall_mem_cons.mpr ⟨Report.built_of_verifyOn hfound,
      List.forall_mem_cons.mpr ⟨.add _ .empty, List.forall_mem_singleton.mpr .empty⟩⟩
  obtain ⟨tally, -, htally, -, hlines, -, -, -, hverdict, -⟩ := formats_agree threeResults hbuilt
  obtain rfl := Option.some.inj (htally.symm.trans (tally?_document threeResults))
  exact ⟨hfound, hlines, hverdict⟩

end Rendering
end Conform
