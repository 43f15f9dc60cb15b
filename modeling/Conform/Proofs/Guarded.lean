import Mathlib.Data.List.Basic

/-!
# Computations with a state that fail only for certain reasons

A computation is guarded if, started in a state with an invariant, it ends in such a state or fails
with an error of a certain kind. A computation in steps is guarded if every step is, so what an
algorithm can fail with follows from the errors that it names. Steps without a loop of their own are
left to `grind`, which knows the rules below.
-/
namespace Conform

variable {σ ε α β : Type} {I : σ → Prop} {E : ε → Prop} {Q : α → Prop}

/-- From a state with `I`, the computation yields a value with `Q` and a state with `I`, or fails with an
error with `E`. -/
def Yields (I : σ → Prop) (E : ε → Prop) (Q : α → Prop) (x : StateT σ (Except ε) α) : Prop :=
  ∀ s, I s → match x.run s with
    | .ok r => Q r.1 ∧ I r.2
    | .error e => E e

/-- As `Yields`, whatever the value. -/
def Guarded (I : σ → Prop) (E : ε → Prop) (x : StateT σ (Except ε) α) : Prop :=
  Yields I E (fun _ => True) x

/-- The errors of a computation that may start in any state. -/
abbrev FailsOnly (E : ε → Prop) (x : StateT σ (Except ε) α) : Prop := Guarded (fun _ => True) E x

namespace Yields

variable {x : StateT σ (Except ε) α} {f : α → StateT σ (Except ε) β} {R : β → Prop}

theorem bind (hx : Yields I E Q x) (hf : ∀ a, Q a → Yields I E R (f a)) : Yields I E R (x >>= f) := by
  intro s hs
  have hfirst := hx s hs
  rw [StateT.run_bind]
  cases hr : x.run s with
  | error e =>
    rw [hr] at hfirst
    exact hfirst
  | ok r =>
    rw [hr] at hfirst
    exact hf r.1 hfirst.1 r.2 hfirst.2

theorem pure {a : α} (h : Q a) : Yields I E Q (Pure.pure a) := fun _ hs => ⟨h, hs⟩

theorem throw {e : ε} (h : E e) : Yields I E Q (throw e) := fun _ _ => h

theorem get {P : σ → Prop} (h : ∀ s, I s → P s) : Yields I E P get := fun s hs => ⟨h s hs, hs⟩

theorem imp {P : α → Prop} (hx : Yields I E P x) (h : ∀ a, P a → Q a) : Yields I E Q x := by
  intro s hs
  have hfirst := hx s hs
  cases hr : x.run s with
  | error e =>
    rw [hr] at hfirst
    exact hfirst
  | ok r =>
    rw [hr] at hfirst
    exact ⟨h _ hfirst.1, hfirst.2⟩

theorem guarded (hx : Yields I E Q x) : Guarded I E x := hx.imp fun _ _ => trivial

theorem then_guarded (hx : Yields I E Q x) (hf : ∀ a, Q a → Guarded I E (f a)) :
    Guarded I E (x >>= f) := hx.bind hf

end Yields

namespace Guarded

@[grind ←]
theorem pure (a : α) : Guarded I E (Pure.pure a : StateT σ (Except ε) α) := Yields.pure trivial

@[grind ←]
theorem bind {x : StateT σ (Except ε) α} {f : α → StateT σ (Except ε) β} (hx : Guarded I E x)
    (hf : ∀ a, Guarded I E (f a)) : Guarded I E (x >>= f) :=
  Yields.bind hx fun a _ => hf a

@[grind ←]
theorem map {f : α → β} {x : StateT σ (Except ε) α} (hx : Guarded I E x) : Guarded I E (f <$> x) := by
  rw [map_eq_pure_bind]
  exact hx.bind fun a => pure _

@[grind ←]
theorem throw {e : ε} (h : E e) : Guarded I E (throw e : StateT σ (Except ε) α) := Yields.throw h

/-- Whatever would come after an error. -/
@[grind ←]
theorem throw_bind {e : ε} (h : E e) (f : α → StateT σ (Except ε) β) :
    Guarded I E (MonadExcept.throw e >>= f) := fun _ _ => h

@[grind ←]
theorem get : Guarded I E (get : StateT σ (Except ε) σ) := Yields.get fun _ _ => trivial

theorem set {s : σ} (h : I s) : Guarded I E (set s : StateT σ (Except ε) PUnit) :=
  fun _ _ => ⟨trivial, h⟩

theorem modify {f : σ → σ} (h : ∀ s, I s → I (f s)) :
    Guarded I E (modify f : StateT σ (Except ε) PUnit) :=
  fun s hs => ⟨trivial, h s hs⟩

theorem modifyGet {f : σ → α × σ} (h : ∀ s, I s → I (f s).2) :
    Guarded I E (modifyGet f : StateT σ (Except ε) α) :=
  fun s hs => ⟨trivial, h s hs⟩

theorem ite {c : Prop} [Decidable c] {x y : StateT σ (Except ε) α} (hx : Guarded I E x)
    (hy : Guarded I E y) : Guarded I E (if c then x else y) := by
  split
  · exact hx
  · exact hy

@[grind ←]
theorem mapM {f : α → StateT σ (Except ε) β} (h : ∀ a, Guarded I E (f a)) (xs : List α) :
    Guarded I E (xs.mapM f) := by
  induction xs with
  | nil => exact pure _
  | cons x xs ih =>
    rw [List.mapM_cons]
    exact (h x).bind fun _ => ih.bind fun _ => pure _

@[grind ←]
theorem forM {f : α → StateT σ (Except ε) PUnit} (h : ∀ a, Guarded I E (f a)) (xs : List α) :
    Guarded I E (xs.forM f) := by
  induction xs with
  | nil => exact pure _
  | cons x xs ih => exact (h x).bind fun _ => ih

@[grind ←]
theorem forIn {f : α → β → StateT σ (Except ε) (ForInStep β)} (h : ∀ a b, Guarded I E (f a b))
    (xs : List α) (b : β) : Guarded I E (forIn xs b f) := by
  induction xs generalizing b with
  | nil => exact pure _
  | cons x xs ih =>
    rw [List.forIn_cons]
    refine (h x b).bind fun r => ?_
    cases r with
    | done b => exact pure _
    | yield b => exact ih b

@[grind ←]
theorem findM? {p : α → StateT σ (Except ε) Bool} (h : ∀ a, Guarded I E (p a)) (xs : List α) :
    Guarded I E (xs.findM? p) := by
  induction xs with
  | nil => exact pure _
  | cons x xs ih =>
    rw [List.findM?]
    refine (h x).bind fun found => ?_
    cases found with
    | true => exact pure _
    | false => exact ih

@[grind ←]
theorem optionMapM {f : α → StateT σ (Except ε) β} (h : ∀ a, Guarded I E (f a)) (x : Option α) :
    Guarded I E (x.mapM f) := by
  cases x with
  | none => exact pure _
  | some x => exact (h x).map

theorem lift {x : Except ε α} (h : ∀ e, x = .error e → E e) :
    Guarded I E (liftM x : StateT σ (Except ε) α) := by
  intro s hs
  cases x with
  | ok a => exact ⟨trivial, hs⟩
  | error e => exact h e rfl

end Guarded

namespace FailsOnly

@[grind ←]
theorem set (s : σ) : FailsOnly E (set s : StateT σ (Except ε) PUnit) := Guarded.set trivial

@[grind ←]
theorem modify (f : σ → σ) : FailsOnly E (modify f : StateT σ (Except ε) PUnit) :=
  Guarded.modify fun _ h => h

@[grind ←]
theorem modifyGet (f : σ → α × σ) : FailsOnly E (modifyGet f : StateT σ (Except ε) α) :=
  Guarded.modifyGet fun _ h => h

end FailsOnly

end Conform
