import Mathlib.Data.List.DropRight
import Conform.Document.Quoted
import Conform.Files.Directory
import Conform.Proofs.Loading.Kept

/-!
# What a load answers in a session

In a session files are written and removed, documents are loaded in the format of their paths, and the
loader is cleared. What a load answers is a matter of the history alone: the first load of its path
that has succeeded since the loader was last cleared decides, and if there is none, the files as they
are. A load that fails leaves no trace.
-/
namespace Conform.Loader

/-- A step of a session. Paths are given as texts; texts that spell the same path are the same to a
loader. -/
inductive Act
  | write (text : String) (e : Entry)
  | remove (text : String)
  | clear
  | load (text : String)
deriving DecidableEq, Repr

/-- A working directory and a loader that is used in it. -/
structure Session where
  dir : Directory
  loader : Loader

namespace Session

/-- A loader that keeps documents and has kept none yet. -/
def start (dir : Directory) : Session := ⟨dir, .start true⟩

def load (s : Session) (text : String) : Outcome :=
  Loader.load s.dir.files s.loader (.ofText text) none

def act (s : Session) : Act → Session
  | .write text e => { s with dir := s.dir.write (.ofText text) e }
  | .remove text => { s with dir := s.dir.remove (.ofText text) }
  | .clear => { s with loader := s.loader.clear }
  | .load text => { s with loader := (s.load text).loader }

/-- What an act answers; only a load has an answer. -/
def answer? (s : Session) : Act → Option (Except LoadError Document)
  | .load text => some (s.load text).result
  | _ => none

def after (s : Session) (acts : List Act) : Session := acts.foldl act s

/-- Acts with their answers, the first one first. -/
abbrev History := List (Act × Option (Except LoadError Document))

/-- The history of some acts. -/
def history (s : Session) : List Act → History
  | [] => []
  | a :: acts => (a, s.answer? a) :: (s.act a).history acts

/-- The document that a past act has loaded from a path. -/
def loaded? (p : Path) : Act × Option (Except LoadError Document) → Option Document
  | (.load text, some x) => if Path.ofText text = p then x.toOption else none
  | _ => none

/-- The document that was first loaded from a path since the loader was last cleared. -/
def first? (p : Path) (h : History) : Option Document :=
  (h.rtakeWhile fun e => e.1 ≠ .clear).findSome? (loaded? p)

variable {s : Session} {p : Path}

theorem after_concat (s : Session) (acts : List Act) (a : Act) :
    s.after (acts ++ [a]) = (s.after acts).act a := by
  simp [after]

theorem history_concat (s : Session) (acts : List Act) (a : Act) :
    s.history (acts ++ [a]) = s.history acts ++ [(a, (s.after acts).answer? a)] := by
  induction acts generalizing s with
  | nil => rfl
  | cons b acts ih => exact congrArg _ (ih (s.act b))

theorem first?_concat_clear (h : History) (x : Option (Except LoadError Document)) :
    first? p (h ++ [(.clear, x)]) = none := by
  rw [first?, List.rtakeWhile_concat_neg _ _ _ (by simp)]
  rfl

theorem first?_concat {a : Act} (ha : a ≠ .clear) (h : History)
    (x : Option (Except LoadError Document)) :
    first? p (h ++ [(a, x)]) = (first? p h).or (loaded? p (a, x)) := by
  rw [first?, List.rtakeWhile_concat_pos _ _ _ (by simpa using ha), List.findSome?_append]
  simp [first?]

theorem keeps_act (s : Session) (a : Act) : (s.act a).loader.keeps = s.loader.keeps := by
  cases a with
  | load text => exact keeps_load s.dir.files s.loader (.ofText text) none
  | _ => rfl

theorem keeps_after (s : Session) (acts : List Act) :
    (s.after acts).loader.keeps = s.loader.keeps := by
  induction acts generalizing s with
  | nil => rfl
  | cons a acts ih => exact (ih (s.act a)).trans (keeps_act s a)

/-- An act that does not clear the loader adds to what is kept only what it loads, and only where
nothing is kept. -/
theorem kept?_act (hkeeps : s.loader.keeps = true) {a : Act} (ha : a ≠ .clear) :
    (s.act a).loader.kept? p = (s.loader.kept? p).or (loaded? p (a, s.answer? a)) := by
  cases a with
  | write text e => exact Option.or_none.symm
  | remove text => exact Option.or_none.symm
  | clear => exact absurd rfl ha
  | load text =>
    have hkept := kept?_load (q := p) s.dir.files hkeeps (.ofText text) none
    refine hkept.trans ?_
    change _ = (s.loader.kept? p).or
      (if Path.ofText text = p then (s.load text).result.toOption else none)
    cases hsome : s.loader.kept? p with
    | some d => rw [Option.some_or, Option.some_or]
    | none =>
      by_cases hp : Path.ofText text = p
      · subst hp
        rw [load, (load_of_not_kept s.dir.files none hsome).1]
      · rw [if_neg hp, if_neg hp]

/-- A loader that has kept nothing at first keeps what the history tells. -/
theorem kept?_after (hkeeps : s.loader.keeps = true) (hnone : s.loader.kept? p = none)
    (acts : List Act) : (s.after acts).loader.kept? p = first? p (s.history acts) := by
  induction acts using List.reverseRecOn with
  | nil => exact hnone
  | append_singleton acts a ih =>
    rw [after_concat, history_concat]
    by_cases ha : a = .clear
    · subst ha
      rw [first?_concat_clear]
      exact kept?_clear _ p
    · rw [first?_concat ha, ← ih, kept?_act ((keeps_after s acts).trans hkeeps) ha]

end Session
end Conform.Loader
