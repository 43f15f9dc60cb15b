import Mathlib.Data.List.Forall2
import Conform.Document.View

/-!
# Documents related layer by layer

Two documents are related layer by layer if some relation holds of them and of whatever lies at
corresponding places below. This covers trees as well as documents that lead back to themselves.

One way for layers to correspond is that the entries of a mapping come in another order, and that
entries are left out whose keys do not count. As no key is there twice, a key that counts is then
looked up with the same success.
-/
namespace Conform

variable {M N : Type}

section Layerwise

variable [Node M] [Node N] {F : (M → N → Prop) → View M → View N → Prop} {doc : M} {doc' : N}

/-- The layers of two documents correspond, as `F` says, all the way down. -/
def Layerwise (F : (M → N → Prop) → View M → View N → Prop) (doc : M) (doc' : N) : Prop :=
  ∃ R : M → N → Prop, R doc doc' ∧ ∀ s t, R s t → F R (Node.view s) (Node.view t)

namespace Layerwise

variable (hF : ∀ {R R' : M → N → Prop} {v w}, (∀ s t, R s t → R' s t) → F R v w → F R' v w)
include hF

theorem layer (h : Layerwise F doc doc') : F (Layerwise F) (Node.view doc) (Node.view doc') := by
  obtain ⟨R, hdoc, hR⟩ := h
  exact hF (fun s t hst => ⟨R, hst, hR⟩) (hR doc doc' hdoc)

theorem of_layer (h : F (Layerwise F) (Node.view doc) (Node.view doc')) : Layerwise F doc doc' := by
  refine ⟨fun s t => Layerwise F s t ∨ (s = doc ∧ t = doc'), .inr ⟨rfl, rfl⟩, ?_⟩
  rintro s t (hst | ⟨rfl, rfl⟩)
  · exact hF (fun _ _ => .inl) (layer hF hst)
  · exact hF (fun _ _ => .inl) h

end Layerwise

end Layerwise

section Sparse

variable {counts : Key → Prop}

/-- A layer, and the same layer without some of the entries whose keys do not count and with the others
in any order. A mapping has no key twice. -/
inductive SparseLayer (counts : Key → Prop) (R : M → N → Prop) : View M → View N → Prop
  | null : SparseLayer counts R .null .null
  | scalar (s : Scalar) : SparseLayer counts R (.scalar s) (.scalar s)
  | sequence (form : Form) {xs : List M} {ys : List N} (each : List.Forall₂ R xs ys) :
      SparseLayer counts R (.sequence form xs) (.sequence form ys)
  | mapping {es kept dropped : Entries M} {fs : Entries N} (distinct : es.Distinct)
      (order : es.Perm (kept ++ dropped)) (skipped : ∀ e ∈ dropped, ¬ counts e.1)
      (each : List.Forall₂ (fun e f => f.1 = e.1 ∧ R e.2 f.2) kept fs) :
      SparseLayer counts R (.mapping es) (.mapping fs)

theorem SparseLayer.mono {R R' : M → N → Prop} {v : View M} {w : View N}
    (hR : ∀ s t, R s t → R' s t) (h : SparseLayer counts R v w) : SparseLayer counts R' v w := by
  cases h with
  | null => exact .null
  | scalar s => exact .scalar s
  | sequence form each => exact .sequence form (each.imp hR)
  | mapping distinct order skipped each =>
    exact .mapping distinct order skipped (each.imp fun _ _ hef => ⟨hef.1, hR _ _ hef.2⟩)

theorem Entries.rel_get?_of_forall₂ {R : M → N → Prop} {es : Entries M} {fs : Entries N}
    (h : List.Forall₂ (fun e f => f.1 = e.1 ∧ R e.2 f.2) es fs) (key : Key) :
    Option.Rel R (es.get? key) (fs.get? key) := by
  induction h with
  | nil => exact .none
  | @cons e f es fs hef _ ih =>
    obtain ⟨hkey, hvalue⟩ := hef
    unfold Entries.get? at ih ⊢
    by_cases hsame : e.1.same key = true
    · rw [List.find?_cons_of_pos (by simpa using hsame),
        List.find?_cons_of_pos (by simpa [hkey] using hsame)]
      exact .some hvalue
    · rw [List.find?_cons_of_neg (by simpa using hsame),
        List.find?_cons_of_neg (by simpa [hkey] using hsame)]
      exact ih

/-- A key that counts, in every form that it may have, finds related values or none. -/
theorem Entries.rel_get?_of_sparse {R : M → N → Prop} {es kept dropped : Entries M} {fs : Entries N}
    (distinct : es.Distinct) (order : es.Perm (kept ++ dropped))
    (skipped : ∀ e ∈ dropped, ¬ counts e.1)
    (each : List.Forall₂ (fun e f => f.1 = e.1 ∧ R e.2 f.2) kept fs) {key : Key}
    (hkey : ∀ l : Key, l.same key = true → counts l) : Option.Rel R (es.get? key) (fs.get? key) := by
  have hdropped : ∀ e ∈ dropped, e.1.same key = false := by
    intro e he
    exact Bool.eq_false_iff.mpr fun hsame => skipped e he (hkey e.1 hsame)
  rw [Entries.get?_perm distinct order, Entries.get?_append_of_not_same kept hdropped]
  exact Entries.rel_get?_of_forall₂ each key

variable [Node M] [Node N]

/-- The document without some of the entries whose keys do not count, at any depth, and with the
entries of its mappings in any order. -/
def Sparse (counts : Key → Prop) : M → N → Prop := Layerwise (SparseLayer counts)

theorem Sparse.layer {doc : M} {doc' : N} (h : Sparse counts doc doc') :
    SparseLayer counts (Sparse counts) (Node.view doc) (Node.view doc') :=
  Layerwise.layer SparseLayer.mono h

theorem Sparse.of_layer {doc : M} {doc' : N}
    (h : SparseLayer counts (Sparse counts) (Node.view doc) (Node.view doc')) :
    Sparse counts doc doc' := Layerwise.of_layer SparseLayer.mono h

end Sparse

section Skeleton

variable {nulls : Prop}

/-- Two layers with the same skeleton: one holds what the other holds, scalars may differ and so may
the forms of sequences. If `nulls`, a null and a scalar may take each other's place. -/
inductive SkeletonLayer (nulls : Prop) (R : M → N → Prop) : View M → View N → Prop
  | null : SkeletonLayer nulls R .null .null
  | scalar (s s' : Scalar) : SkeletonLayer nulls R (.scalar s) (.scalar s')
  | filled (h : nulls) (s : Scalar) : SkeletonLayer nulls R .null (.scalar s)
  | emptied (h : nulls) (s : Scalar) : SkeletonLayer nulls R (.scalar s) .null
  | sequence (form form' : Form) {xs : List M} {ys : List N} (each : List.Forall₂ R xs ys) :
      SkeletonLayer nulls R (.sequence form xs) (.sequence form' ys)
  | mapping {es : Entries M} {fs : Entries N}
      (each : List.Forall₂ (fun e f => f.1 = e.1 ∧ R e.2 f.2) es fs) :
      SkeletonLayer nulls R (.mapping es) (.mapping fs)

theorem SkeletonLayer.mono {R R' : M → N → Prop} {v : View M} {w : View N}
    (hR : ∀ s t, R s t → R' s t) (h : SkeletonLayer nulls R v w) : SkeletonLayer nulls R' v w := by
  cases h with
  | null => exact .null
  | scalar s s' => exact .scalar s s'
  | filled h s => exact .filled h s
  | emptied h s => exact .emptied h s
  | sequence form form' each => exact .sequence form form' (each.imp hR)
  | mapping each => exact .mapping (each.imp fun _ _ hef => ⟨hef.1, hR _ _ hef.2⟩)

theorem keys_eq_of_forall₂ {R : M → N → Prop} {es : Entries M} {fs : Entries N}
    (each : List.Forall₂ (fun e f => f.1 = e.1 ∧ R e.2 f.2) es fs) :
    fs.map Prod.fst = es.map Prod.fst := by
  induction each with
  | nil => rfl
  | cons hef _ ih => rw [List.map_cons, List.map_cons, hef.1, ih]

variable [Node M] [Node N]

/-- The document with other scalars and other forms of sequences, at any depth. -/
def SameSkeleton (nulls : Prop) : M → N → Prop := Layerwise (SkeletonLayer nulls)

theorem SameSkeleton.layer {doc : M} {doc' : N} (h : SameSkeleton nulls doc doc') :
    SkeletonLayer nulls (SameSkeleton nulls) (Node.view doc) (Node.view doc') :=
  Layerwise.layer SkeletonLayer.mono h

theorem SameSkeleton.of_layer {doc : M} {doc' : N}
    (h : SkeletonLayer nulls (SameSkeleton nulls) (Node.view doc) (Node.view doc')) :
    SameSkeleton nulls doc doc' := Layerwise.of_layer SkeletonLayer.mono h

end Skeleton

end Conform
