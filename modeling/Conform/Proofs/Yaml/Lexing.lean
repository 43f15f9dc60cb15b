import Conform.Proofs.Guarded
import Conform.Yaml.Layout

/-!
# What stops the tokens of a text

Tokens stop because the text is malformed, at an escape by number that names no character, or at a version
number of too many digits.
-/
namespace Conform.Yaml

/-- What a text can be refused for before its elements are known. -/
inductive LexFault : Fault → Prop
  | malformed : LexFault .malformed
  | noCharacter {code : Nat} (h : 0x10ffff < code) : LexFault (.scalar (.noCharacter code))
  | version {count : Nat} (h : Numeral.digitLimit < count) :
      LexFault (.scalar (.numeral (.tooManyDigits count)))

attribute [grind] LexFault

abbrev LexSafe {σ α : Type} (x : StateT σ (Except Fault) α) : Prop := FailsOnly LexFault x

variable {α : Type}

namespace Lexer

@[grind ←] theorem safe_malformed : LexSafe (malformed : Lexer α) := .throw .malformed

@[grind ←] theorem safe_require (p : Cursor → Bool) : LexSafe (require p) := by
  unfold require
  grind

@[grind ←] theorem safe_test (p : Cursor → Bool) : LexSafe (test p) := by
  unfold test
  grind

@[grind ←] theorem safe_span (p : Char → Bool) : LexSafe (span p) := .modifyGet _

@[grind ←] theorem safe_span1 (p : Char → Bool) : LexSafe (span1 p) := by
  unfold span1
  grind

@[grind ←] theorem safe_skip (n : Nat) : LexSafe (skip n) := .modify _

@[grind ←] theorem safe_expect (x : Char) : LexSafe (expect x) := by
  unfold expect
  grind

@[grind ←] theorem safe_skipSpaces : LexSafe skipSpaces := .modify _

@[grind ←] theorem safe_skipLineRest : LexSafe skipLineRest := by
  unfold skipLineRest
  grind

end Lexer

namespace Token

/-! ## Words -/

@[grind ←] theorem safe_lexName : LexSafe lexName := by
  unfold lexName
  grind

@[grind ←] theorem safe_lexEscapes (fuel : Nat) : LexSafe (lexEscapes fuel) := by
  induction fuel with
  | zero => exact .pure _
  | succ fuel ih =>
    unfold lexEscapes
    grind

@[grind ←] theorem safe_lexUriPieces (fuel : Nat) : LexSafe (lexUriPieces fuel) := by
  induction fuel with
  | zero => exact .pure _
  | succ fuel ih =>
    unfold lexUriPieces
    grind

@[grind ←] theorem safe_lexUri : LexSafe lexUri := by
  unfold lexUri
  grind

@[grind ←] theorem safe_lexHandle : LexSafe lexHandle := by
  unfold lexHandle
  grind

@[grind ←] theorem safe_lexTag : LexSafe lexTag := by
  unfold lexTag
  grind

/-- A version number may have too many digits. -/
@[grind ←] theorem safe_lexNumber : LexSafe lexNumber := by
  unfold lexNumber
  grind

@[grind ←] theorem safe_lexVersion : LexSafe lexVersion := by
  unfold lexVersion
  grind

@[grind ←] theorem safe_lexMeaning : LexSafe lexMeaning := by
  unfold lexMeaning
  grind

@[grind ←] theorem safe_lexDirective : LexSafe lexDirective := by
  unfold lexDirective
  grind

/-! ## Quoted scalars -/

/-- An escape may name no character. -/
@[grind ←] theorem safe_lexCode (width : Nat) : LexSafe (lexCode width) := by
  unfold lexCode
  grind

@[grind ←] theorem safe_lexFoldedBreaks (fuel : Nat) : LexSafe (lexFoldedBreaks fuel) := by
  induction fuel with
  | zero => exact .pure _
  | succ fuel ih =>
    unfold lexFoldedBreaks
    grind

@[grind ←] theorem safe_lexQuotedGap : LexSafe lexQuotedGap := by
  unfold lexQuotedGap
  grind

@[grind ←] theorem safe_lexEscape : LexSafe lexEscape := by
  unfold lexEscape
  refine .bind (Lexer.safe_skip 1) fun _ => .bind .get fun c => ?_
  split
  · exact Lexer.safe_malformed
  · split
    · exact .bind (Lexer.safe_skip 1) fun _ => .pure _
    · exact .bind (Lexer.safe_skip 1) fun _ => .bind (safe_lexCode _) fun _ => .pure _
    · split
      · exact .bind (FailsOnly.set _) fun _ => safe_lexFoldedBreaks _
      · exact Lexer.safe_malformed

@[grind ←] theorem safe_lexQuotedWord (double : Bool) (fuel : Nat) :
    LexSafe (lexQuotedWord double fuel) := by
  induction fuel with
  | zero => exact .pure _
  | succ fuel ih =>
    unfold lexQuotedWord
    refine .bind (Lexer.safe_span _) fun run => .bind .get fun c => ?_
    split
    · split <;> grind
    · split
      · grind
      · split <;> grind
    · split <;> grind
    · grind

@[grind ←] theorem safe_lexQuotedRest (double : Bool) (mark : Char) (fuel : Nat) :
    LexSafe (lexQuotedRest double mark fuel) := by
  induction fuel with
  | zero => exact Lexer.safe_malformed
  | succ fuel ih =>
    unfold lexQuotedRest
    grind

@[grind ←] theorem safe_lexQuoted (double : Bool) : LexSafe (lexQuoted double) := by
  unfold lexQuoted
  grind

/-! ## Plain scalars -/

@[grind ←] theorem safe_lexPlainBreaks (fuel : Nat) : LexSafe (lexPlainBreaks fuel) := by
  induction fuel with
  | zero => exact .pure _
  | succ fuel ih =>
    unfold lexPlainBreaks
    grind

@[grind ←] theorem safe_lexPlainGap : LexSafe lexPlainGap := by
  unfold lexPlainGap
  refine .bind (Lexer.safe_span _) fun spaces => .bind .get fun c => ?_
  grind

@[grind ←] theorem safe_lexPlainFrom (inFlow : Bool) (indent : Int) (broken : Bool) (gap : List Char)
    (fuel : Nat) : LexSafe (lexPlainFrom inFlow indent broken gap fuel) := by
  induction fuel generalizing broken gap with
  | zero => exact .pure _
  | succ fuel ih =>
    unfold lexPlainFrom
    grind

@[grind ←] theorem safe_lexPlain (inFlow : Bool) (indent : Int) : LexSafe (lexPlain inFlow indent) := by
  unfold lexPlain
  grind

/-! ## Block scalars -/

@[grind ←] theorem safe_lexChomping : LexSafe lexChomping := by
  unfold lexChomping
  grind

@[grind ←] theorem safe_lexIncrement : LexSafe lexIncrement := by
  unfold lexIncrement
  grind

@[grind ←] theorem safe_lexBlockHeader : LexSafe lexBlockHeader := by
  unfold lexBlockHeader
  refine .bind (Lexer.safe_skip 1) fun _ => .bind safe_lexChomping fun first => ?_
  refine .bind safe_lexIncrement fun increment => ?_
  grind

@[grind ←] theorem safe_lexLeadingBreaks (deepest fuel : Nat) :
    LexSafe (lexLeadingBreaks deepest fuel) := by
  induction fuel generalizing deepest with
  | zero => exact .pure _
  | succ fuel ih =>
    unfold lexLeadingBreaks
    grind

@[grind ←] theorem safe_indentTo (indent : Nat) : LexSafe (indentTo indent) := by
  unfold indentTo
  grind

@[grind ←] theorem safe_lexIndentedBreaks (indent fuel : Nat) :
    LexSafe (lexIndentedBreaks indent fuel) := by
  induction fuel with
  | zero => exact .pure _
  | succ fuel ih =>
    unfold lexIndentedBreaks
    grind

@[grind ←] theorem safe_lexBlockLines (folded : Bool) (chomping : Chomping) (indent fuel : Nat) :
    LexSafe (lexBlockLines folded chomping indent fuel) := by
  induction fuel with
  | zero => exact .pure _
  | succ fuel ih =>
    unfold lexBlockLines
    refine .bind (Lexer.safe_test _) fun _ => .bind (Lexer.safe_span _) fun _ => .bind .get fun _ => ?_
    refine .bind (FailsOnly.set _) fun _ => .bind .get fun _ => ?_
    grind

@[grind ←] theorem safe_lexBlock (folded : Bool) (parent : Int) : LexSafe (lexBlock folded parent) := by
  unfold lexBlock
  refine .bind safe_lexBlockHeader fun header => .bind .get fun c => ?_
  split <;> grind

end Token

/-! ## Layout -/

namespace Layouter

@[grind ←] theorem safe_lex {read : Lexer α} (h : LexSafe read) : LexSafe (lex read) := by
  intro s _
  have hread := h s.cursor trivial
  have hlex : (lex read).run s =
      (read.run s.cursor).map fun r => (r.1, { s with cursor := r.2 }) := by
    show Except.bind (read.run s.cursor) _ = _
    cases read.run s.cursor <;> rfl
  rw [hlex]
  cases hr : read.run s.cursor with
  | ok r => exact ⟨trivial, trivial⟩
  | error e =>
    rw [hr] at hread
    exact hread

@[grind ←] theorem safe_add (t : Token) : LexSafe (add t) := .modify _

@[grind ←] theorem safe_allowKey (b : Bool) : LexSafe (allowKey b) := .modify _

@[grind ←] theorem safe_dropKey : LexSafe dropKey := by
  unfold dropKey
  grind

@[grind ←] theorem safe_expectKey : LexSafe expectKey := by
  unfold expectKey
  grind

@[grind ←] theorem safe_addWord {read : Lexer Token} (h : LexSafe read) : LexSafe (addWord read) := by
  unfold addWord
  grind

@[grind ←] theorem safe_addBoundary {read : Lexer Token} (h : LexSafe read) :
    LexSafe (addBoundary read) := by
  unfold addBoundary
  grind

@[grind ←] theorem safe_skipAs (n : Nat) (t : Token) : LexSafe (skipAs n t) := by
  unfold skipAs
  grind

@[grind ←] theorem safe_openFlow (t : Token) : LexSafe (openFlow t) := by
  unfold openFlow
  grind

@[grind ←] theorem safe_closeFlow (t : Token) : LexSafe (closeFlow t) := by
  unfold closeFlow
  refine .bind safe_dropKey fun _ => .bind .get fun s => ?_
  split
  · grind
  · refine .bind (FailsOnly.set _) fun _ => ?_
    grind

@[grind ←] theorem safe_addFlowEntry : LexSafe addFlowEntry := by
  unfold addFlowEntry
  grind

@[grind ←] theorem safe_beginEntry (collection : Token) : LexSafe (beginEntry collection) := by
  unfold beginEntry
  grind

@[grind ←] theorem safe_addBlockEntry : LexSafe addBlockEntry := by
  unfold addBlockEntry
  grind

@[grind ←] theorem safe_addKey : LexSafe addKey := by
  unfold addKey
  grind

@[grind ←] theorem safe_addValue : LexSafe addValue := by
  unfold addValue
  refine .bind .get fun s => ?_
  split
  · refine .bind (FailsOnly.set _) fun _ => ?_
    grind
  · refine .bind (safe_beginEntry _) fun _ => ?_
    grind

@[grind ←] theorem safe_addBlockScalar (folded : Bool) : LexSafe (addBlockScalar folded) := by
  unfold addBlockScalar
  grind

@[grind ←] theorem safe_addPlain : LexSafe addPlain := by
  unfold addPlain
  grind

@[grind ←] theorem safe_addTokenAt (x : Char) : LexSafe (addTokenAt x) := by
  unfold addTokenAt
  refine .bind .get fun s => ?_
  dsimp only
  -- One branch for each way in which a token begins.
  repeat' refine Guarded.ite ?_ ?_
  all_goals grind

end Layouter

namespace Tokens

end Tokens

end Conform.Yaml
