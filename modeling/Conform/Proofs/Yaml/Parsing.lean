import Conform.Proofs.Returns
import Conform.Proofs.Yaml.Lexing
import Conform.Yaml.Element

/-!
# What keeps tokens from being elements

Tokens that spell no elements are malformed, stop at a fault of the text, or open too many collections
inside one another.
-/
namespace Conform.Yaml.Elements

variable {α : Type}

/-- What a text can be refused for before its elements denote anything. -/
inductive ElementFault : Fault → Prop
  | lexical {e : Fault} (h : LexFault e) : ElementFault e
  | tooNested : ElementFault .tooNested

theorem ElementFault.malformed : ElementFault .malformed := .lexical .malformed

attribute [grind ←] ElementFault.malformed ElementFault.tooNested

/-- The text behind the tokens that are left stops for a reason of its own. -/
def StopsByText (s : Progress) : Prop := ∀ e, s.rest.stop = some e → LexFault e

abbrev ElementSafe (x : Builder α) : Prop := Guarded StopsByText ElementFault x

/-- Steps that leave the end of the text as it is. -/
theorem safe_modify {f : Progress → Progress} (h : ∀ s, (f s).rest.stop = s.rest.stop) :
    ElementSafe (modify f) :=
  .modify fun s hs e he => hs e (h s ▸ he)

@[grind ←] theorem safe_peek : ElementSafe peek := by
  refine Yields.then_guarded (Q := StopsByText) (Yields.get fun s hs => hs) fun s hs => ?_
  dsimp only
  split
  · exact .pure _
  · refine .throw ?_
    cases hstop : s.rest.stop with
    | none => exact .malformed
    | some e => exact .lexical (hs e hstop)

@[grind ←] theorem safe_skip : ElementSafe skip := safe_modify fun _ => rfl

@[grind ←] theorem safe_push (e : Element) : ElementSafe (push e) :=
  .modifyGet fun _ hs => hs

@[grind ←] theorem safe_pushAnchored (anchor : Option (List Char)) (e : Element) :
    ElementSafe (pushAnchored anchor e) := by
  unfold pushAnchored
  refine .bind (safe_push e) fun i => ?_
  split
  · refine .bind .get fun s => ?_
    split
    · exact .throw_bind .malformed _
    · exact .bind (safe_modify fun _ => rfl) fun _ => .pure i
  · exact .pure i

@[grind ←] theorem safe_pushEmpty : ElementSafe pushEmpty := safe_push _

@[grind ←] theorem safe_tagText (t : WrittenTag) : ElementSafe (tagText t) := by
  unfold tagText
  grind

@[grind ←] theorem safe_anchor? : ElementSafe anchor? := by
  unfold anchor?
  grind

@[grind ←] theorem safe_writtenTag? : ElementSafe writtenTag? := by
  unfold writtenTag?
  grind

@[grind ←] theorem safe_properties : ElementSafe properties := by
  unfold properties
  grind

@[grind ←] theorem safe_skipComma (first : Bool) : ElementSafe (skipComma first) := by
  unfold skipComma
  grind

@[grind ←] theorem safe_elementBefore (ends : List Token) {read : Builder Nat}
    (h : ElementSafe read) : ElementSafe (elementBefore ends read) := by
  unfold elementBefore
  grind

@[grind ←] theorem safe_valueBefore (ends : List Token) {read : Builder Nat} (h : ElementSafe read) :
    ElementSafe (valueBefore ends read) := by
  unfold valueBefore
  grind

@[grind ←] theorem safe_flowPair (close : Token) {read : Builder Nat} (h : ElementSafe read) :
    ElementSafe (flowPair close read) := by
  unfold flowPair
  grind

section Parts

variable {fuel : Nat} (helement : ∀ p levels, ElementSafe (element p levels fuel))
  (hparts : ∀ c levels, ElementSafe (parts c levels fuel))
  (hitems : ∀ unindented levels, ElementSafe (blockItems unindented levels fuel))
  (hentries : ∀ levels, ElementSafe (blockEntries levels fuel))
  (hflowItems : ∀ first levels, ElementSafe (flowItems first levels fuel))
  (hflowEntries : ∀ first levels, ElementSafe (flowEntries first levels fuel))

theorem safe_collection {c : Collection} {levels : Nat} (h : ElementSafe (parts c levels fuel))
    (anchor : Option (List Char)) (tag : Tag) :
    ElementSafe (do
      let i ← pushAnchored anchor ⟨tag, .sequence []⟩
      let content ← parts c levels fuel
      modify fun s => { s with table := s.table.setIfInBounds i ⟨tag, content⟩ }
      return i) :=
  .bind (safe_pushAnchored _ _) fun i => .bind h fun _ =>
    .bind (safe_modify fun _ => rfl) fun _ => .pure i

include hparts in
theorem safe_element_succ (p : Place) (levels : Nat) :
    ElementSafe (element p levels (fuel + 1)) := by
  unfold element
  refine .bind safe_peek fun t => ?_
  dsimp only
  split
  · grind
  · refine .bind safe_properties fun properties => .bind safe_peek fun t => ?_
    split
    · split
      · exact .bind safe_skip fun _ => safe_collection (hparts _ levels) _ _
      · exact safe_collection (hparts _ levels) _ _
    · grind
    · grind

include hitems hentries hflowItems hflowEntries in
theorem safe_parts_succ (c : Collection) (levels : Nat) : ElementSafe (parts c levels (fuel + 1)) := by
  unfold parts
  grind

include helement hitems in
theorem safe_blockItems_succ (unindented : Bool) (levels : Nat) :
    ElementSafe (blockItems unindented levels (fuel + 1)) := by
  unfold blockItems
  grind

include helement hentries in
theorem safe_blockEntries_succ (levels : Nat) : ElementSafe (blockEntries levels (fuel + 1)) := by
  unfold blockEntries
  grind

include helement hflowItems in
theorem safe_flowItems_succ (first : Bool) (levels : Nat) :
    ElementSafe (flowItems first levels (fuel + 1)) := by
  unfold flowItems
  refine .bind safe_peek fun t => ?_
  split
  · grind
  · refine .bind (safe_skipComma first) fun _ => .bind safe_peek fun t => ?_
    split
    · grind
    · split
      · refine .bind (safe_push _) fun i => .bind (safe_flowPair _ (helement _ _)) fun e => ?_
        exact .bind (safe_modify fun _ => rfl) fun _ => .bind (hflowItems _ _) fun _ => .pure _
      · grind

include helement hflowEntries in
theorem safe_flowEntries_succ (first : Bool) (levels : Nat) :
    ElementSafe (flowEntries first levels (fuel + 1)) := by
  unfold flowEntries
  refine .bind safe_peek fun t => ?_
  split
  · grind
  · refine .bind (safe_skipComma first) fun _ => .bind safe_peek fun t => ?_
    grind

end Parts

/-- Elements and their parts, one level of calls after the other. -/
theorem safe_elements (fuel : Nat) :
    (∀ p levels, ElementSafe (element p levels fuel)) ∧
    (∀ c levels, ElementSafe (parts c levels fuel)) ∧
    (∀ unindented levels, ElementSafe (blockItems unindented levels fuel)) ∧
    (∀ levels, ElementSafe (blockEntries levels fuel)) ∧
    (∀ first levels, ElementSafe (flowItems first levels fuel)) ∧
    (∀ first levels, ElementSafe (flowEntries first levels fuel)) := by
  induction fuel with
  | zero =>
    exact ⟨fun _ _ => .throw .malformed, fun _ _ => .throw .malformed, fun _ _ => .throw .malformed,
      fun _ => .throw .malformed, fun _ _ => .throw .malformed, fun _ _ => .throw .malformed⟩
  | succ fuel ih =>
    obtain ⟨helement, hparts, hitems, hentries, hflowItems, hflowEntries⟩ := ih
    exact ⟨safe_element_succ hparts, safe_parts_succ hitems hentries hflowItems hflowEntries,
      safe_blockItems_succ helement hitems, safe_blockEntries_succ helement hentries,
      safe_flowItems_succ helement hflowItems, safe_flowEntries_succ helement hflowEntries⟩

@[grind ←] theorem safe_element (p : Place) (levels fuel : Nat) :
    ElementSafe (element p levels fuel) := (safe_elements fuel).1 p levels

/-! ## Whole texts -/

@[grind ←] theorem safe_directives (versioned : Bool) (handles : List (List Char × List Char))
    (fuel : Nat) : ElementSafe (directives versioned handles fuel) := by
  induction fuel generalizing versioned handles with
  | zero => exact .throw .malformed
  | succ fuel ih =>
    unfold directives
    grind

@[grind ←] theorem safe_root? (fuel : Nat) : ElementSafe (root? fuel) := by
  unfold root?
  refine .bind safe_peek fun t => ?_
  split
  · grind
  · split
    · refine .bind (safe_directives _ _ _) fun _ => .bind (safe_modify fun _ => rfl) fun _ => ?_
      grind
    · grind

@[grind ←] theorem safe_finish (fuel : Nat) : ElementSafe (finish fuel) := by
  induction fuel with
  | zero => exact .throw .malformed
  | succ fuel ih =>
    unfold finish
    grind

end Conform.Yaml.Elements
