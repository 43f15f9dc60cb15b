import Mathlib.Data.List.Basic
import Conform.Pointer

/-!
# Blocks on a pointer

A block remembers one number, the length of the pointer on entry, and leaving it cuts the pointer to that
length. Whatever is done inside, and however it ends, the block that is left is the one that was entered.
What the pointer was on entry is found again if its segments were never given up in between: inside the
block the pointer always stayed longer than it was before.
-/
namespace Conform.Pointer

/-- What ends the acts of a block before their last: an operation that fails, or anything else that is
raised between the operations. -/
inductive Interruption
  | operation (e : Error)
  | other
deriving DecidableEq, Repr

/-- What is done with a pointer, act by act. -/
inductive Script
  | done
  | raise
  | push (segment : String) (rest : Script)
  | pop (rest : Script)
  | replaceTop (segment : String) (rest : Script)
  /-- A block with acts of its own. What interrupts them interrupts the acts after the block too. -/
  | descend (segment : String) (body rest : Script)
  /-- Acts whose interruption is noticed, so that it goes no further. -/
  | attempt (body rest : Script)

/-- What becomes of acts. -/
structure Outcome where
  ended : Except Interruption Unit
  blocks : Blocks
  /-- The pointers after each act on the way, entries and exits of blocks included. -/
  seen : List Pointer
deriving DecidableEq, Repr

namespace Outcome

/-- One act is done. -/
def step (b : Blocks) : Outcome := ⟨.ok (), b, [b.pointer]⟩

/-- An act fails, and changes nothing. -/
def interrupted (i : Interruption) (b : Blocks) : Outcome := ⟨.error i, b, []⟩

/-- An operation that may fail is applied to the pointer. -/
def operation (b : Blocks) (result : Except Error Pointer) : Outcome :=
  match result with
  | .ok p => step { b with pointer := p }
  | .error e => interrupted (.operation e) b

/-- Further acts follow, unless the former were interrupted. -/
def andThen (o : Outcome) (next : Blocks → Outcome) : Outcome :=
  match o.ended with
  | .ok () => { next o.blocks with seen := o.seen ++ (next o.blocks).seen }
  | .error _ => o

/-- The innermost block is left, whether its acts were interrupted or not. -/
def leaving (o : Outcome) : Outcome :=
  match o.blocks.leave with
  | .ok b => ⟨o.ended, b, o.seen ++ [b.pointer]⟩
  | .error e => ⟨.error (.operation e), o.blocks, o.seen⟩

end Outcome

namespace Script

def run : Script → Blocks → Outcome
  | done, b => ⟨.ok (), b, []⟩
  | raise, b => .interrupted .other b
  | push segment rest, b =>
    (Outcome.step { b with pointer := b.pointer.push segment }).andThen fun b => rest.run b
  | pop rest, b =>
    (Outcome.operation b (b.pointer.pop.map Prod.snd)).andThen fun b => rest.run b
  | replaceTop segment rest, b =>
    (Outcome.operation b (b.pointer.replaceTop segment)).andThen fun b => rest.run b
  | descend segment body rest, b =>
    ((Outcome.step (b.enter segment)).andThen fun b => body.run b).leaving.andThen fun b => rest.run b
  | attempt body rest, b => { body.run b with ended := .ok () }.andThen fun b => rest.run b

end Script

/-! ## Blocks that are open -/

namespace Outcome

variable {o : Outcome} {next : Blocks → Outcome} {starts : List Nat}

theorem starts_operation (b : Blocks) (result : Except Error Pointer) :
    (operation b result).blocks.starts = b.starts := by
  cases result <;> rfl

theorem starts_andThen (ho : o.blocks.starts = starts)
    (hnext : ∀ b, (next b).blocks.starts = b.starts) : (o.andThen next).blocks.starts = starts := by
  unfold andThen
  split
  · exact (hnext o.blocks).trans ho
  · exact ho

theorem andThen_done (o : Outcome) : (o.andThen fun b => Script.done.run b) = o := by
  obtain ⟨ended, b, seen⟩ := o
  cases ended with
  | error i => rfl
  | ok u => exact congrArg (Outcome.mk _ b) (List.append_nil seen)

/-- The block that is left is the innermost one. -/
theorem leaving_of_starts {n : Nat} (h : o.blocks.starts = n :: starts) :
    o.leaving = ⟨o.ended, ⟨o.blocks.pointer.cut n, starts⟩, o.seen ++ [o.blocks.pointer.cut n]⟩ := by
  unfold leaving Blocks.leave
  rw [h]

end Outcome

namespace Script

/-- Blocks are properly nested: after any acts, the blocks that were open before are open again, and no
others. -/
theorem starts_run (c : Script) (b : Blocks) : (c.run b).blocks.starts = b.starts := by
  induction c generalizing b with
  | done => rfl
  | raise => rfl
  | push segment rest ih => exact Outcome.starts_andThen rfl ih
  | pop rest ih => exact Outcome.starts_andThen (Outcome.starts_operation b _) ih
  | replaceTop segment rest ih => exact Outcome.starts_andThen (Outcome.starts_operation b _) ih
  | descend segment body rest ihbody ih =>
    refine Outcome.starts_andThen ?_ ih
    rw [Outcome.leaving_of_starts (Outcome.starts_andThen rfl ihbody)]
  | attempt body rest ihbody ih => exact Outcome.starts_andThen (ihbody b) ih

theorem starts_body (segment : String) (body : Script) (b : Blocks) :
    ((Outcome.step (b.enter segment)).andThen fun b => body.run b).blocks.starts =
      b.pointer.length :: b.starts :=
  Outcome.starts_andThen rfl body.starts_run

end Script

/-! ## Segments that are not given up -/

/-- As long as the pointer stays longer than `p`, it begins with the segments of `p`. -/
def Keeps (p : Pointer) (o : Outcome) : Prop :=
  (∀ q ∈ o.seen, p.length < q.length) → p.segments <+: o.blocks.pointer.segments

section Keeps

variable {p q r : Pointer} {b : Blocks} {o : Outcome} {next : Blocks → Outcome}

theorem prefix_push (h : p.segments <+: q.segments) (segment : String) :
    p.segments <+: (q.push segment).segments :=
  h.trans (List.prefix_append _ _)

theorem prefix_of_pop (h : p.segments <+: q.segments) (hpop : q.pop.map Prod.snd = .ok r)
    (hlength : p.length < r.length) : p.segments <+: r.segments := by
  unfold pop at hpop
  split at hpop
  · cases hpop
    have hinit : q.segments.dropLast <+: q.segments := List.dropLast_prefix _
    exact List.prefix_of_prefix_length_le h hinit (Nat.le_of_lt hlength)
  · cases hpop

theorem prefix_of_replaceTop {segment : String} (h : p.segments <+: q.segments)
    (hreplace : q.replaceTop segment = .ok r) (hlength : p.length < r.length) :
    p.segments <+: r.segments := by
  unfold replaceTop at hreplace
  split at hreplace
  · cases hreplace
  · cases hreplace
    have hinit : q.segments.dropLast <+: q.segments := List.dropLast_prefix _
    -- The new segment lies beyond those of `p`, so `p` is found in what stays.
    have hshort : p.segments.length ≤ q.segments.dropLast.length := by
      have hlength' : p.segments.length < (q.segments.dropLast ++ [segment]).length := hlength
      rw [List.length_append, List.length_singleton] at hlength'
      exact Nat.le_of_lt_succ hlength'
    exact (List.prefix_of_prefix_length_le h hinit hshort).trans (List.prefix_append _ _)

theorem prefix_cut {n : Nat} (h : p.segments <+: q.segments) (hlength : p.length < (q.cut n).length) :
    p.segments <+: (q.cut n).segments := by
  have hcut : (q.cut n).segments <+: q.segments := List.take_prefix n _
  exact List.prefix_of_prefix_length_le h hcut (Nat.le_of_lt hlength)

theorem keeps_operation {result : Except Error Pointer} (hb : p.segments <+: b.pointer.segments)
    (h : ∀ r, result = .ok r → p.length < r.length → p.segments <+: r.segments) :
    Keeps p (.operation b result) := by
  intro hseen
  cases result with
  | error e => exact hb
  | ok r => exact h r rfl (hseen r List.mem_cons_self)

theorem keeps_andThen (ho : Keeps p o)
    (hnext : ∀ b, p.segments <+: b.pointer.segments → Keeps p (next b)) :
    Keeps p (o.andThen next) := by
  unfold Outcome.andThen
  split
  · intro hseen
    obtain ⟨hformer, hlater⟩ := List.forall_mem_append.mp hseen
    exact hnext o.blocks (ho hformer) hlater
  · exact ho

theorem keeps_leaving {n : Nat} {starts : List Nat} (h : o.blocks.starts = n :: starts)
    (ho : Keeps p o) : Keeps p o.leaving := by
  rw [Outcome.leaving_of_starts h]
  intro hseen
  obtain ⟨hformer, hlast⟩ := List.forall_mem_append.mp hseen
  exact prefix_cut (ho hformer) (hlast _ List.mem_cons_self)

/-- No act gives up a segment of `p` without making the pointer as short as `p`. -/
theorem keeps_run (c : Script) (hb : p.segments <+: b.pointer.segments) : Keeps p (c.run b) := by
  induction c generalizing b with
  | done => exact fun _ => hb
  | raise => exact fun _ => hb
  | push segment rest ih => exact keeps_andThen (fun _ => prefix_push hb segment) fun _ => ih
  | pop rest ih =>
    exact keeps_andThen (keeps_operation hb fun _ hpop => prefix_of_pop hb hpop) fun _ => ih
  | replaceTop segment rest ih =>
    exact keeps_andThen (keeps_operation hb fun _ h => prefix_of_replaceTop hb h) fun _ => ih
  | descend segment body rest ihbody ih =>
    -- Leaving an inner block cuts the pointer, and what is seen then is still longer than `p`.
    have hentered : Keeps p (.step (b.enter segment)) := fun _ => prefix_push hb segment
    have hbody := keeps_andThen hentered fun _ => ihbody
    exact keeps_andThen (keeps_leaving (Script.starts_body segment body b) hbody) fun _ => ih
  | attempt body rest ihbody ih => exact keeps_andThen (ihbody hb) fun _ => ih

end Keeps

theorem cut_length_of_prefixed {p q : Pointer} (h : p.segments <+: q.segments) : q.cut p.length = p := by
  obtain ⟨more, hmore⟩ := h
  rw [cut, ← hmore, length, List.take_left]

namespace Script

theorem run_descend (b : Blocks) (segment : String) (body : Script) :
    (descend segment body done).run b =
      ⟨(body.run (b.enter segment)).ended,
        ⟨(body.run (b.enter segment)).blocks.pointer.cut b.pointer.length, b.starts⟩,
        (b.enter segment).pointer :: (body.run (b.enter segment)).seen ++
          [(body.run (b.enter segment)).blocks.pointer.cut b.pointer.length]⟩ := by
  rw [run, Outcome.andThen_done, Outcome.leaving_of_starts (starts_body segment body b)]
  rfl

/-- **A block restores its pointer.** Whatever is done inside a block, and however it ends, on leaving it
the segments are the first ones, as many as there were on entry or all if there are fewer, the blocks that
are open are those before, and an interruption goes on. If the pointer stayed longer inside than it was on
entry, the block leaves everything as it was. -/
theorem descend_restores (b : Blocks) (segment : String) (body : Script) :
    let inner := body.run (b.enter segment)
    let outer := (descend segment body done).run b
    outer.ended = inner.ended ∧
    outer.blocks.pointer.segments = inner.blocks.pointer.segments.take b.pointer.segments.length ∧
    outer.blocks.starts = b.starts ∧
    ((∀ p ∈ inner.seen, b.pointer.segments.length < p.segments.length) → outer.blocks = b) := by
  intro inner outer
  have houter : outer = _ := run_descend b segment body
  rw [houter]
  refine ⟨rfl, rfl, rfl, fun hseen => ?_⟩
  have hkept : b.pointer.segments <+: inner.blocks.pointer.segments :=
    keeps_run body (prefix_push (List.prefix_refl _) segment) hseen
  exact congrArg (Blocks.mk · b.starts) (cut_length_of_prefixed hkept)

/-- An inner block renames a segment of the outer one and is interrupted, which is noticed; another one
gives up more than its own segment, and its interruption ends both. -/
def restless : Script :=
  push "c" <| replaceTop "d" <|
    attempt (descend "e" (pop <| replaceTop "f" <| push "g" raise) done) <|
    descend "h" (pop <| pop <| push "i" raise) done

theorem descend_restores_restless :
    (∀ p ∈ (restless.run (Blocks.enter "b" ⟨⟨["a"]⟩, [0]⟩)).seen, 1 < p.segments.length) ∧
    ((descend "b" restless done).run ⟨⟨["a"]⟩, [0]⟩).ended = .error .other ∧
    ((descend "b" restless done).run ⟨⟨["a"]⟩, [0]⟩).blocks = ⟨⟨["a"]⟩, [0]⟩ := by
  have hseen : ∀ p ∈ (restless.run (Blocks.enter "b" ⟨⟨["a"]⟩, [0]⟩)).seen, 1 < p.segments.length := by
    decide
  obtain ⟨hended, -, -, hrestores⟩ := descend_restores ⟨⟨["a"]⟩, [0]⟩ "b" restless
  exact ⟨hseen, hended.trans (by decide), hrestores hseen⟩

/-- Where the segments of before are given up, a block leaves what there is. -/
example :
    ((descend "b" (pop <| pop <| push "c" <| push "d" done) done).run ⟨⟨["a"]⟩, []⟩).blocks =
      ⟨⟨["c"]⟩, []⟩ ∧
    ((descend "b" (pop <| pop <| pop done) done).run ⟨⟨["a"]⟩, []⟩).blocks = ⟨root, []⟩ := by decide

end Script
end Conform.Pointer
