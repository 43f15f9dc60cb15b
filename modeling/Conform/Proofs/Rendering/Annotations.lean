import Mathlib.Data.List.Basic
import Conform.Result

/-!
# Annotations read back

A list of results is written as one command for every message, and every command on a line of its own.
Each line gives back the file and the message that it was made of, so no name, path or message can end
its command, begin another one or add a property to it.
-/
namespace Conform.Rendering

/-! ## Escapes -/

/-- The character that two digits behind a percent sign stand for. -/
def escaped? : Char → Char → Option Char
  | '2', '5' => some '%'
  | '0', 'D' => some '\r'
  | '0', 'A' => some '\n'
  | _, _ => none

/-- The same inside a property. -/
def escapedInProperty? : Char → Char → Option Char
  | '3', 'A' => some ':'
  | '2', 'C' => some ','
  | a, b => escaped? a b

/-- Undoes escapes from left to right. A percent sign that starts none stays. -/
def unescape (code? : Char → Char → Option Char) : List Char → List Char
  | [] => []
  | '%' :: a :: b :: r =>
    match code? a b with
    | some c => c :: unescape code? r
    | none => '%' :: unescape code? (a :: b :: r)
  | c :: r => c :: unescape code? r

theorem unescape_cons {c : Char} (hc : c ≠ '%') (code? : Char → Char → Option Char)
    (r : List Char) : unescape code? (c :: r) = c :: unescape code? r := by
  rw [unescape.eq_def]
  split
  · contradiction
  · rename_i heq
    cases heq
    exact absurd rfl hc
  · rename_i heq
    cases heq
    rfl

theorem unescape_escapeData_append (c : Char) (r : List Char) :
    unescape escaped? (escapeData c ++ r) = c :: unescape escaped? r := by
  unfold escapeData
  split
  · rfl
  · rfl
  · rfl
  · rename_i hpercent _ _
    exact unescape_cons hpercent _ _

theorem unescape_escapeProperty_append (c : Char) (r : List Char) :
    unescape escapedInProperty? (escapeProperty c ++ r) = c :: unescape escapedInProperty? r := by
  unfold escapeProperty
  split
  · rfl
  · rfl
  · unfold escapeData
    split
    · rfl
    · rfl
    · rfl
    · rename_i hpercent _ _
      exact unescape_cons hpercent _ _

/-- Undoing escapes character by character undoes them in a whole text. -/
theorem unescape_flatMap {code? : Char → Char → Option Char} {escape : Char → List Char}
    (h : ∀ c r, unescape code? (escape c ++ r) = c :: unescape code? r) (cs : List Char) :
    unescape code? (cs.flatMap escape) = cs := by
  induction cs with
  | nil => rfl
  | cons c cs ih => rw [List.flatMap_cons, h, ih]

/-- Replaces a character throughout a text. -/
def replace (c : Char) (code : String) (cs : List Char) : List Char :=
  cs.flatMap fun d => if d = c then code.toList else [d]

theorem replace_append (c : Char) (code : String) (cs ds : List Char) :
    replace c code (cs ++ ds) = replace c code cs ++ replace c code ds := List.flatMap_append

/-- The escapes of a text are replacements one after the other. The percent sign is replaced first, or
the percent signs of the other escapes would be escaped as well. -/
theorem flatMap_escapeData (cs : List Char) : cs.flatMap escapeData =
    replace '\n' "%0A" (replace '\r' "%0D" (replace '%' "%25" cs)) := by
  induction cs with
  | nil => rfl
  | cons c cs ih =>
    have hone : escapeData c =
        replace '\n' "%0A" (replace '\r' "%0D" (replace '%' "%25" [c])) := by
      unfold escapeData
      split
      · rfl
      · rfl
      · rfl
      · rename_i hpercent hreturn hfeed
        simp only [replace, List.flatMap_cons, List.flatMap_nil, List.append_nil, if_neg hpercent,
          if_neg hreturn, if_neg hfeed]
    rw [List.flatMap_cons, ih, hone, ← replace_append, ← replace_append, ← replace_append,
      List.singleton_append]

theorem flatMap_escapeProperty (cs : List Char) : cs.flatMap escapeProperty =
    replace ',' "%2C" (replace ':' "%3A" (cs.flatMap escapeData)) := by
  induction cs with
  | nil => rfl
  | cons c cs ih =>
    have hone : escapeProperty c = replace ',' "%2C" (replace ':' "%3A" (escapeData c)) := by
      unfold escapeProperty
      split
      · rfl
      · rfl
      · rename_i hcolon hcomma
        unfold escapeData
        split
        · rfl
        · rfl
        · rfl
        · simp only [replace, List.flatMap_cons, List.flatMap_nil, List.append_nil, if_neg hcolon,
            if_neg hcomma]
    rw [List.flatMap_cons, ih, hone, ← replace_append, ← replace_append, List.flatMap_cons]

theorem not_mem_replace_self {c : Char} {code : String} (h : c ∉ code.toList) (cs : List Char) :
    c ∉ replace c code cs := by
  intro hmem
  obtain ⟨d, -, hd⟩ := List.mem_flatMap.mp hmem
  split at hd
  · exact h hd
  · rename_i hne
    exact hne (List.mem_singleton.mp hd).symm

theorem not_mem_replace {c d : Char} {code : String} {cs : List Char} (hcode : d ∉ code.toList)
    (h : d ∉ cs) : d ∉ replace c code cs := by
  intro hmem
  obtain ⟨e, he, hd⟩ := List.mem_flatMap.mp hmem
  split at hd
  · exact hcode hd
  · exact h (List.mem_singleton.mp hd ▸ he)

theorem not_mem_escapeData (cs : List Char) :
    '\n' ∉ cs.flatMap escapeData ∧ '\r' ∉ cs.flatMap escapeData := by
  rw [flatMap_escapeData]
  exact ⟨not_mem_replace_self (by decide) _,
    not_mem_replace (by decide) (not_mem_replace_self (by decide) _)⟩

theorem not_mem_escapeProperty (cs : List Char) :
    ('\n' ∉ cs.flatMap escapeProperty ∧ '\r' ∉ cs.flatMap escapeProperty) ∧
      ':' ∉ cs.flatMap escapeProperty ∧ ',' ∉ cs.flatMap escapeProperty := by
  obtain ⟨hfeed, hreturn⟩ := not_mem_escapeData cs
  rw [flatMap_escapeProperty]
  exact ⟨⟨not_mem_replace (by decide) (not_mem_replace (by decide) hfeed),
      not_mem_replace (by decide) (not_mem_replace (by decide) hreturn)⟩,
    not_mem_replace (by decide) (not_mem_replace_self (by decide) _),
    not_mem_replace_self (by decide) _⟩

/-! ## Commands -/

/-- The texts before and after the first two colons in a row. -/
def cutAtColons : List Char → Option (List Char × List Char)
  | ':' :: ':' :: r => some ([], r)
  | c :: r => (cutAtColons r).map fun parts => (c :: parts.1, parts.2)
  | [] => none

theorem cutAtColons_append {cs : List Char} (h : ':' ∉ cs) (r : List Char) :
    cutAtColons (cs ++ ':' :: ':' :: r) = some (cs, r) := by
  induction cs with
  | nil => rfl
  | cons c cs ih =>
    obtain ⟨hc, hcs⟩ := not_or.mp (mt List.mem_cons.mpr h)
    rw [List.cons_append, cutAtColons.eq_def]
    split
    · rename_i heq
      exact absurd (List.cons.inj heq).1.symm hc
    · rename_i heq
      cases heq
      rw [ih hcs]
      rfl
    · contradiction

/-- What a command starts with, up to its file. -/
def opening : List Char := "::error file=".toList

/-- The file and the message of a command. -/
def readCommand (line : List Char) : Option (String × String) :=
  if opening.isPrefixOf line then
    (cutAtColons (line.drop opening.length)).map fun parts =>
      (String.ofList (unescape escapedInProperty? parts.1), String.ofList (unescape escaped? parts.2))
  else none

theorem readCommand_commandLine (file message : String) :
    readCommand (commandLine file message) = some (file, message) := by
  have hline : commandLine file message = opening ++ (file.toList.flatMap escapeProperty ++
      ':' :: ':' :: message.toList.flatMap escapeData) := List.append_assoc _ _ _
  have hcut := cutAtColons_append (not_mem_escapeProperty file.toList).2.1
    (message.toList.flatMap escapeData)
  have hprefix := List.isPrefixOf_iff_prefix.mpr (List.prefix_append opening
    (file.toList.flatMap escapeProperty ++ ':' :: ':' :: message.toList.flatMap escapeData))
  rw [readCommand, hline, if_pos hprefix, List.drop_left, hcut]
  simp only [Option.map_some, unescape_flatMap unescape_escapeProperty_append,
    unescape_flatMap unescape_escapeData_append, String.ofList_toList]

/-- A command is one line, and nothing in it ends the property that names the file. -/
theorem commandLine_parts (file message : String) :
    '\n' ∉ commandLine file message ∧ '\r' ∉ commandLine file message ∧
    ∃ property data, commandLine file message = opening ++ property ++ ':' :: ':' :: data ∧
      ':' ∉ property ∧ ',' ∉ property := by
  obtain ⟨⟨hfeed, hreturn⟩, hmarks⟩ := not_mem_escapeProperty file.toList
  obtain ⟨hfeed', hreturn'⟩ := not_mem_escapeData message.toList
  have hopening : '\n' ∉ opening ∧ '\r' ∉ opening := by decide
  have hline : ∀ c, c ≠ ':' → c ∉ opening → c ∉ file.toList.flatMap escapeProperty →
      c ∉ message.toList.flatMap escapeData → c ∉ commandLine file message := by
    intro c hc hopening hfile hmessage hmem
    rcases List.mem_append.mp hmem with hmem | hmem
    · exact (List.mem_append.mp hmem).elim hopening hfile
    · rcases List.mem_cons.mp hmem with rfl | hmem
      · exact hc rfl
      · exact (List.mem_cons.mp hmem).elim hc hmessage
  exact ⟨hline _ (by decide) hopening.1 hfeed hfeed', hline _ (by decide) hopening.2 hreturn hreturn',
    _, _, rfl, hmarks⟩

theorem exists_commandLine {rs : List Result} {line : List Char} (h : line ∈ annotationLines rs) :
    ∃ file message, line = commandLine file message := by
  obtain ⟨r, -, hline⟩ := List.mem_flatMap.mp h
  obtain ⟨m, -, rfl⟩ := List.mem_map.mp hline
  exact ⟨_, _, rfl⟩

/-- Lines that are each ended by a line feed are found again, with nothing behind the last one. -/
theorem splitOn_lines {ls : List (List Char)} (h : ∀ l ∈ ls, '\n' ∉ l) :
    (ls.flatMap fun l => l ++ ['\n']).splitOn '\n' = ls ++ [[]] := by
  induction ls with
  | nil => rfl
  | cons l ls ih =>
    obtain ⟨hl, hls⟩ := List.forall_mem_cons.mp h
    rw [List.flatMap_cons, List.append_assoc, List.singleton_append,
      List.splitOn_append_cons_self_of_not_mem hl, ih hls, List.cons_append]

/-- The text holds one line for every message, results and messages in order, and each line gives back
its file, which is the subject or else the name of the result, and its message. No line holds a line
end, or a mark that ends the property with the file. -/
theorem annotations_read_back (rs : List Result) :
    (annotations rs).toList.splitOn '\n' = annotationLines rs ++ [[]] ∧
    (annotationLines rs).map readCommand =
      (rs.flatMap fun r => r.report.messages.map fun m =>
        some ((r.subject.map Path.text).getD r.name, m)) ∧
    (∀ line ∈ annotationLines rs, '\n' ∉ line ∧ '\r' ∉ line ∧
      ∃ property data, line = opening ++ property ++ ':' :: ':' :: data ∧
        ':' ∉ property ∧ ',' ∉ property) := by
  have hparts : ∀ line ∈ annotationLines rs, '\n' ∉ line ∧ '\r' ∉ line ∧
      ∃ property data, line = opening ++ property ++ ':' :: ':' :: data ∧
        ':' ∉ property ∧ ',' ∉ property := by
    intro line hline
    obtain ⟨file, message, rfl⟩ := exists_commandLine hline
    exact commandLine_parts file message
  refine ⟨?_, ?_, hparts⟩
  · rw [annotations, String.toList_ofList]
    exact splitOn_lines fun line hline => (hparts line hline).1
  · rw [annotationLines, List.map_flatMap]
    refine List.flatMap_congr fun r _ => ?_
    rw [List.map_map]
    exact List.map_congr_left fun m _ => readCommand_commandLine r.file m

end Conform.Rendering
