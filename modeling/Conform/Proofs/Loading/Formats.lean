import Conform.Proofs.Loading.Kept

/-!
# One document for a path, whatever the format

A document is kept for its path alone. While the files stay as they are, the first load of a path that
succeeds settles what every later load of the path answers, and a format that a later load asks for has
no effect. A loader that keeps documents and one that keeps none therefore agree wherever a path is
asked for in one format only, and may differ elsewhere.
-/
namespace Conform.Loader

/-- A request for a document: the text of a path and perhaps the name of a format. -/
structure Request where
  text : String
  format : Option String
deriving DecidableEq, Repr

namespace Request

def path (r : Request) : Path := .ofText r.text

/-- The answer of a loader to a request. -/
def answer (r : Request) (fs : Files) (l : Loader) : Except LoadError Document :=
  (load fs l r.path r.format).result

/-- The name of the format in which a request has its document read. -/
def formatName (r : Request) : String := Loader.formatName r.path r.format

end Request

/-- The loader after some requests. -/
def after (fs : Files) (l : Loader) (requests : List Request) : Loader :=
  requests.foldl (fun l r => (load fs l r.path r.format).loader) l

/-- The first of some requests for a path that succeeds on its own. -/
def settler? (fs : Files) (p : Path) (requests : List Request) : Option Request :=
  requests.find? fun r => r.path = p && (fresh fs r.path r.format).toOption.isSome

variable {fs : Files} {l : Loader} {p : Path}

theorem of_settler? {requests : List Request} {r : Request} (h : settler? fs p requests = some r) :
    r.path = p ∧ ∃ d, fresh fs p r.format = .ok d := by
  unfold settler? at h
  have hfound := List.find?_some h
  simp only [Bool.and_eq_true, decide_eq_true_eq] at hfound
  obtain ⟨rfl, hsome⟩ := hfound
  cases hfresh : fresh fs r.path r.format with
  | error e =>
    rw [hfresh] at hsome
    cases hsome
  | ok d => exact ⟨rfl, d, rfl⟩

theorem keeps_after (fs : Files) (l : Loader) (requests : List Request) :
    (after fs l requests).keeps = l.keeps := by
  induction requests generalizing l with
  | nil => rfl
  | cons r requests ih => exact (ih _).trans (keeps_load fs l r.path r.format)

/-- After some requests a document is kept for a path if one was kept before or a request settles
one. -/
theorem kept?_after (hkeeps : l.keeps = true) (requests : List Request) :
    (after fs l requests).kept? p =
      (l.kept? p).or
        ((settler? fs p requests).bind fun r => (fresh fs r.path r.format).toOption) := by
  induction requests generalizing l with
  | nil => exact (Option.or_none).symm
  | cons r requests ih =>
    have hnext := ih ((keeps_load fs l r.path r.format).trans hkeeps)
    rw [kept?_load fs hkeeps, Option.or_assoc] at hnext
    refine hnext.trans (congrArg _ ?_)
    unfold settler?
    by_cases hp : r.path = p
    · subst hp
      cases hfresh : (fresh fs r.path r.format).toOption with
      | none => rw [List.find?_cons_of_neg (by simp [hfresh]), if_pos rfl, Option.none_or]
      | some d =>
        rw [List.find?_cons_of_pos (by simp [hfresh]), if_pos rfl, Option.some_or,
          Option.bind_some, hfresh]
    · rw [List.find?_cons_of_neg (by simp [hp]), if_neg hp, Option.none_or]

theorem kept?_of_keeps_eq_false (h : l.keeps = false) (p : Path) : l.kept? p = none := by
  rw [kept?, h]
  rfl

/-- A document is read in the format of a name, however the name was found. -/
theorem fresh_congr {asked asked' : Option String} (h : formatName p asked = formatName p asked') :
    fresh fs p asked = fresh fs p asked' := by
  cases hentry : fs.entry? p with
  | none => rw [fresh_of_missing hentry, fresh_of_missing hentry]
  | some entry =>
    cases entry with
    | directory => rw [fresh_of_directory hentry, fresh_of_directory hentry]
    | file bytes =>
      rw [fresh_of_file (.start false) hentry, fresh_of_file (.start false) hentry, read, read, h]

/-- Only a file has a document. -/
theorem exists_file_of_fresh {asked : Option String} {d : Document}
    (h : fresh fs p asked = .ok d) : ∃ bytes, fs.entry? p = some (.file bytes) := by
  cases hentry : fs.entry? p with
  | none =>
    rw [fresh_of_missing hentry] at h
    cases h
  | some entry =>
    cases entry with
    | directory =>
      rw [fresh_of_directory hentry] at h
      cases h
    | file bytes => exact ⟨bytes, rfl⟩

/-- **The first success settles a path.** While the files stay as they are, a loader that keeps
nothing answers every request as if it were the first. A loader that keeps documents answers it in the
format of the first earlier request for the same path that succeeds on its own, and if there is none,
as if it were the first. So the two agree on every request whose format is that of the request which
settled its path. -/
theorem first_success_settles (fs : Files) (former : List Request) (r : Request) :
    r.answer fs (after fs (.start false) former) = fresh fs r.path r.format ∧
      r.answer fs (after fs (.start true) former) =
        fresh fs r.path ((settler? fs r.path former).getD r).format ∧
      ((∀ s ∈ settler? fs r.path former, s.formatName = r.formatName) →
        r.answer fs (after fs (.start true) former) =
          r.answer fs (after fs (.start false) former)) := by
  have hplain : r.answer fs (after fs (.start false) former) = fresh fs r.path r.format := by
    have hnone := kept?_of_keeps_eq_false (keeps_after fs (.start false) former) r.path
    exact (load_of_not_kept fs r.format hnone).1
  have hkept : (after fs (.start true) former).kept? r.path =
      (settler? fs r.path former).bind fun s => (fresh fs s.path s.format).toOption := by
    rw [kept?_after rfl, kept?_start, Option.none_or]
  have hkeeping : r.answer fs (after fs (.start true) former) =
      fresh fs r.path ((settler? fs r.path former).getD r).format := by
    cases hs : settler? fs r.path former with
    | none =>
      rw [hs] at hkept
      exact (load_of_not_kept fs r.format hkept).1
    | some s =>
      obtain ⟨hpath, d, hd⟩ := of_settler? hs
      rw [hs, Option.bind_some, hpath, hd] at hkept
      obtain ⟨bytes, hentry⟩ := exists_file_of_fresh hd
      rw [Option.getD_some, hd]
      exact (load_of_kept r.format hentry hkept).1
  refine ⟨hplain, hkeeping, fun hformat => ?_⟩
  rw [hkeeping, hplain]
  cases hs : settler? fs r.path former with
  | none => rfl
  | some s =>
    have hname := hformat s hs
    rw [Request.formatName, Request.formatName, (of_settler? hs).1] at hname
    exact fresh_congr hname

/-- One file, which is YAML text and no JSON text. -/
def shelf : Files := .ofList [(.ofText "a.yaml", .file "x: 1".toUTF8.toList)]

theorem first_success_settles_shelf :
    settler? shelf (.ofText "./a.yaml") [⟨"b", none⟩, ⟨"a.yaml", some "json"⟩, ⟨"a.yaml", none⟩] =
        some ⟨"a.yaml", none⟩ ∧
      Request.answer ⟨"./a.yaml", some "yaml"⟩ shelf
          (after shelf (.start true) [⟨"b", none⟩, ⟨"a.yaml", some "json"⟩, ⟨"a.yaml", none⟩]) =
        Request.answer ⟨"./a.yaml", some "yaml"⟩ shelf
          (after shelf (.start false) [⟨"b", none⟩, ⟨"a.yaml", some "json"⟩, ⟨"a.yaml", none⟩]) := by
  have hsettler : settler? shelf (.ofText "./a.yaml")
      [⟨"b", none⟩, ⟨"a.yaml", some "json"⟩, ⟨"a.yaml", none⟩] = some ⟨"a.yaml", none⟩ := by
    decide +kernel
  refine ⟨hsettler, (first_success_settles shelf _ ⟨"./a.yaml", some "yaml"⟩).2.2 fun s hs => ?_⟩
  obtain rfl : (⟨"a.yaml", none⟩ : Request) = s := Option.some.inj (hsettler.symm.trans hs)
  decide +kernel

/-- A kept document is answered also to a request in whose format the file cannot be read. -/
theorem kept_ignores_format :
    ¬ ∀ (fs : Files) (former : List Request) (r : Request),
      r.answer fs (after fs (.start true) former) =
        r.answer fs (after fs (.start false) former) := by
  intro h
  have hsame := congrArg (fun x => x.toOption.isSome)
    (h shelf [⟨"a.yaml", none⟩] ⟨"a.yaml", some "json"⟩)
  have hkeeping : (Request.answer ⟨"a.yaml", some "json"⟩ shelf
      (after shelf (.start true) [⟨"a.yaml", none⟩])).toOption.isSome = true := by decide +kernel
  have hplain : (Request.answer ⟨"a.yaml", some "json"⟩ shelf
      (after shelf (.start false) [⟨"a.yaml", none⟩])).toOption.isSome = false := by decide +kernel
  exact Bool.noConfusion (hkeeping.symm.trans (hsame.trans hplain))

end Conform.Loader
