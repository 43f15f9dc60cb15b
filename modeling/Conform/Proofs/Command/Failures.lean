import Conform.Proofs.Command.Diagnosis
import Conform.Proofs.Document.Decoding

/-!
# Documents that stop a run without being refused

A load that does not return refuses its path, or the text of the file at the path fails for another
reason. Manifests and runs pass such a failure on, and they fail to decode for no other reason.
-/
namespace Conform

variable {fs : Files} {p : Path} {asked : Option String}

namespace Command.Run

variable {α β : Type} {E : Stop → Prop}

/-- A run stops only for certain reasons. -/
def StopsOnly (E : Stop → Prop) (x : Run α) : Prop :=
  ∀ p stop, ((x.run).run p).1 = .error stop → E stop

namespace StopsOnly

theorem pure (a : α) : StopsOnly E (Pure.pure a : Run α) := fun _ _ h => nomatch h

theorem bind {x : Run α} {f : α → Run β} (hx : StopsOnly E x) (hf : ∀ a, StopsOnly E (f a)) :
    StopsOnly E (x >>= f) := by
  intro p stop h
  rw [ExceptT.run_bind, StateT.run_bind] at h
  have hfirst := hx p
  rcases hr : (x.run).run p with ⟨outcome, q⟩
  rw [hr] at h hfirst
  cases outcome with
  | error stop' =>
    cases h
    exact hfirst stop rfl
  | ok a => exact hf a q stop h

theorem throw {stop : Stop} (h : E stop) : StopsOnly E (throw stop : Run α) := by
  intro p stop' hp
  cases hp
  exact h

theorem get : StopsOnly E (get : Run Progress) := fun _ _ h => nomatch h

theorem modify (f : Progress → Progress) : StopsOnly E (modify f : Run PUnit) := fun _ _ h => nomatch h

theorem mapM {f : α → Run β} (h : ∀ a, StopsOnly E (f a)) (xs : List α) : StopsOnly E (xs.mapM f) := by
  induction xs with
  | nil => exact pure _
  | cons x xs ih =>
    rw [List.mapM_cons]
    exact (h x).bind fun _ => ih.bind fun _ => pure _

theorem forM {f : α → Run PUnit} (h : ∀ a, StopsOnly E (f a)) (xs : List α) :
    StopsOnly E (xs.forM f) := by
  induction xs with
  | nil => exact pure _
  | cons x xs ih => exact (h x).bind fun _ => ih

end StopsOnly

end Command.Run

namespace Command

end Command

end Conform
