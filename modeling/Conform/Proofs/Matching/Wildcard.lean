import Conform.Document.Value
import Conform.Proofs.Matching.Outcome

/-!
# A wildcard and the names it stands for

Against a mapping, a wildcard means what an entry for every name in it means, in the order of the
mapping and with the same shape for each. The two come to their acts in different ways: a wildcard goes
through the members and follows a mapping at once, while a name is looked up, and what is found must be
a mapping before it is followed. Where the shape has no entries, only the wildcard enters a level; that
level has nothing to do, so that a walk which may enter it comes to the same.
-/
namespace Conform.Matching

variable {S X : Type} [Node S] [Node X]

section Acts

variable {shape value : S} {subject : X} {es : Entries X}

theorem acts_of_wildcard {key : Key} (hkey : (Marker.ofKey key).kind = .wildcard)
    (hs : Node.view shape = .mapping [(key, value)]) (hx : Node.view subject = .mapping es)
    (hes : es ≠ []) (hkeys : ∀ e ∈ es, Marker.isPlain e.1 = true) (p : Pointer) :
    acts p shape subject = es.flatMap fun e => memberActs (p.push e.1.text) value e.2 := by
  have haccepts : acceptsWildcard subject = true := by
    rw [acceptsWildcard, hx]
    simpa using hes
  have hmarker : (Marker.ofKey key).kind ≠ .exact := by
    rw [hkey]
    decide
  obtain ⟨name, rfl⟩ := Key.exists_of_isSome_string? (Marker.isSome_string?_of_ne_exact hmarker)
  simp only [acts, hs, List.flatMap_cons, List.flatMap_nil, List.append_nil, entryActs, textActs_str,
    List.nil_append, markedActs, hkey, haccepts, if_true, members, hx]
  refine List.flatMap_congr fun e he => ?_
  obtain ⟨member, hmember, -⟩ := Marker.isPlain_iff.mp (hkeys e he)
  rw [hmember, nameActs_of_isWritable rfl, List.nil_append]

/-- Every name of the subject is found in it, at its own entry. -/
theorem acts_of_names (hkeys : ∀ e ∈ es, Marker.isPlain e.1 = true) (hdistinct : es.Distinct)
    (hs : Node.view shape = .mapping (es.mapValues fun _ => value))
    (hx : Node.view subject = .mapping es) (p : Pointer) :
    acts p shape subject = es.flatMap fun e => valueActs (p.push e.1.text) value e.2 := by
  simp only [acts, hs, Entries.mapValues, List.flatMap_map]
  refine List.flatMap_congr fun e he => ?_
  obtain ⟨name, hname, hmarker⟩ := Marker.isPlain_iff.mp (hkeys e he)
  have htext : Marker.ofKey e.1 = ⟨.exact, e.1.text⟩ := by rw [hmarker, hname, Key.text_str]
  have hentry := entry?_of_mem (hkeys e he) hdistinct hx he
  rw [entryActs_of_isPlain (hkeys e he), hentry, htext]

end Acts

/-- A member is checked like a value, if it is a mapping wherever the shape is one: a level that is
entered without need ends there. -/
theorem expand_memberActs (n : Nat) (p : Pointer) {value : S} {member : X}
    (h : Node.kind value = .mapping → Node.kind member = .mapping) :
    (memberActs p value member).flatMap (Act.expand (unfolding (n + 1))) =
      (valueActs p value member).flatMap (Act.expand (unfolding (n + 1))) := by
  by_cases hkind : Node.kind value = .mapping
  · obtain ⟨entries, hs⟩ := Node.exists_view_mapping hkind
    obtain ⟨es, hx⟩ := Node.exists_view_mapping (h hkind)
    rw [memberActs_of_mapping hkind, valueActs, hs]
    simp only [objectActs, hx]
    cases entries with
    | nil => simp [Act.expand, unfolding, acts, hs]
    | cons e entries => rfl
  · rw [memberActs_of_not_mapping hkind]

variable {wild named value : S} {subject : X} {es : Entries X}

/-- From two levels on, the acts are the same. -/
theorem unfolding_wildcard (hx : Node.view subject = .mapping es) (hes : es ≠ [])
    (hkeys : ∀ e ∈ es, Marker.isPlain e.1 = true) (hdistinct : es.Distinct)
    {key : Key} (hkey : (Marker.ofKey key).kind = .wildcard)
    (hwild : Node.view wild = .mapping [(key, value)])
    (hnamed : Node.view named = .mapping (es.mapValues fun _ => value))
    (hvalue : Node.kind value = .mapping → ∀ e ∈ es, Node.kind e.2 = .mapping)
    (n : Nat) (p : Pointer) :
    unfolding (n + 2) p wild subject = unfolding (n + 2) p named subject := by
  rw [unfolding, unfolding, acts_of_wildcard hkey hwild hx hes hkeys,
    acts_of_names hkeys hdistinct hnamed hx, List.flatMap_assoc, List.flatMap_assoc]
  refine List.flatMap_congr fun e he => ?_
  exact expand_memberActs n _ fun hkind => hvalue hkind e he

end Conform.Matching

namespace Conform.Matcher

open Matching

variable {S X : Type} [Node S] [Node X]

/-- **A wildcard means every name spelled out.** Let the subject be a mapping that is not empty, with
names for keys and none of them twice. If the shape below the wildcard is a mapping, let all the members
be mappings too. Then a lenient matcher comes to the same outcome with the wildcard and with an entry for
each name: the same report, or the same error. (A stack has to hold the root and the level below it.) -/
theorem wildcard_eq_names (stack : Stack) (hstack : ∀ held ∈ stack.walk, 2 ≤ held) (m : Matcher)
    (hm : m.strict = false) {wild named value : S} {subject : X} {es : Entries X}
    (hx : Node.view subject = .mapping es) (hes : es ≠ [])
    (hkeys : ∀ e ∈ es, Marker.isPlain e.1 = true) (hdistinct : es.Distinct)
    {key : Key} (hkey : (Marker.ofKey key).kind = .wildcard)
    (hwild : Node.view wild = .mapping [(key, value)])
    (hnamed : Node.view named = .mapping (es.mapValues fun _ => value))
    (hvalue : Node.kind value = .mapping → ∀ e ∈ es, Node.kind e.2 = .mapping) :
    m.verifyOn stack wild subject = m.verifyOn stack named subject := by
  have hlimit : 1 < levels m.maxDepth 0 := by
    have hpositive := m.positive
    unfold levels
    omega
  have hlevels : 1 < capped stack.walk (levels m.maxDepth 0) := lt_capped_iff.mpr ⟨hlimit, hstack⟩
  obtain ⟨n, hn⟩ := Nat.exists_eq_add_of_le' hlevels
  obtain ⟨stop, hsettle⟩ := exists_settle stack hm
  rw [hsettle (Node.kind_of_mapping hwild) subject, hsettle (Node.kind_of_mapping hnamed) subject,
    unfolded, unfolded, hn,
    unfolding_wildcard hx hes hkeys hdistinct hkey hwild hnamed hvalue n .root]

/-- Two rooms, the first of them unfurnished. -/
def rooms : Entries Value :=
  [(.str "attic", .record []), (.str "hall", .record [("chair", .int 1)])]

/-- What every room should have. -/
def furnished : Value := .record [("chair", .record [])]

theorem wildcard_eq_names_rooms :
    ∃ r, (⟨1, false, by decide⟩ : Matcher).verify (Value.record [("[*:key]", furnished)])
        (Value.mapping rooms) = .ok r ∧
      (⟨1, false, by decide⟩ : Matcher).verify (Value.mapping (rooms.mapValues fun _ => furnished))
        (Value.mapping rooms) = .ok r ∧
      r.messages = ["Missing required key 'chair' at /attic",
        "Value at /hall/chair should be object (expected: object, found: scalar)"] := by
  have hstack : ∀ held ∈ Stack.usual.walk, 2 ≤ held := by
    rintro _ ⟨⟩
    decide
  have hkeys : ∀ e ∈ rooms, Marker.isPlain e.1 = true := by decide
  have hdistinct : rooms.Distinct := by simp [rooms, Entries.Distinct]
  have hmembers : ∀ e ∈ rooms, Node.kind e.2 = .mapping := by decide
  have hsame : (⟨1, false, by decide⟩ : Matcher).verify (Value.record [("[*:key]", furnished)])
      (Value.mapping rooms) = (⟨1, false, by decide⟩ : Matcher).verify
        (Value.mapping (rooms.mapValues fun _ => furnished)) (Value.mapping rooms) :=
    wildcard_eq_names .usual hstack _ rfl rfl (List.cons_ne_nil _ _) hkeys hdistinct
      (rfl : (Marker.ofKey (.str "[*:key]")).kind = .wildcard) rfl rfl fun _ => hmembers
  exact ⟨_, rfl, hsame.symm, rfl⟩

end Conform.Matcher
