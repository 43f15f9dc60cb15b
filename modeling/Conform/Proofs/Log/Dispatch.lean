import Mathlib.Data.List.Basic
import Conform.Log

/-!
# Records through loggers and handlers

A record is given to a logger. If it is enabled there, it goes to the handlers of the logger and of all
loggers above it, up to the root, and each handler that takes it writes it to a stream. The root is
configured with two handlers, one for each stream. With these, what is written is what the division of
records says: no record is lost between the two handlers, and none is written twice.
-/
namespace Conform.Log

/-! ## Loggers and handlers -/

/-- Writes records of a level or above to a stream, unless one of its filters stops them. -/
structure Handler where
  stream : Stream
  level : Int
  filters : List (Record → Bool)

def Handler.takes (h : Handler) (r : Record) : Bool :=
  decide (h.level ≤ r.level) && h.filters.all fun passes => passes r

/-- Passes records strictly below a level. -/
def below (level : Int) (r : Record) : Bool := r.level < level

structure Logger where
  /-- Zero, if the logger has no level of its own. -/
  level : Int
  handlers : List Handler

namespace Logger

def clear (l : Logger) : Logger := { l with handlers := [] }

def setLevel (level : Int) (l : Logger) : Logger := { l with level }

def addHandler (h : Handler) (l : Logger) : Logger := { l with handlers := l.handlers ++ [h] }

/-- The configuration of the root: records of the level for errors or above go to the error stream, and
those below it to the output stream. -/
def configure (least errors : Int) (root : Logger) : Logger :=
  let errors := max errors debugLevel
  root.clear.setLevel least
    |>.addHandler ⟨.output, debugLevel, [below errors]⟩
    |>.addHandler ⟨.error, errors, []⟩

/-- Configurations one after the other. -/
def configureAll (calls : List (Int × Int)) (root : Logger) : Logger :=
  calls.foldl (fun l call => l.configure call.1 call.2) root

/-- Has neither a level nor a handler of its own. -/
structure Bare (l : Logger) : Prop where
  level : l.level = 0
  handlers : l.handlers = []

end Logger

/-- The level of the first logger that has one, on the way up to the root. -/
def effectiveLevel : List Logger → Int
  | [] => 0
  | l :: above => if l.level = 0 then effectiveLevel above else l.level

/-- Whether a record is enabled at the first logger of a way up to the root. Levels that are not positive
are disabled everywhere. -/
def enables (way : List Logger) (r : Record) : Bool := 0 < r.level && effectiveLevel way ≤ r.level

/-- The streams that a record is written to, once for every time that it is written. -/
def deliveries (way : List Logger) (r : Record) : List Stream :=
  if enables way r then
    ((way.flatMap Logger.handlers).filter fun h => h.takes r).map Handler.stream
  else []

/-- What the streams hold. -/
abbrev Streams := Stream → List Record

def Streams.write (r : Record) (w : Streams) (s : Stream) : Streams :=
  fun t => if t = s then w t ++ [r] else w t

/-- Logs a record at the first logger of a way. -/
def logAt (way : List Logger) (r : Record) (w : Streams) : Streams :=
  (deliveries way r).foldl (Streams.write r) w

/-- Logs records one after the other, each at a logger of its own. -/
def logAll (entries : List (List Logger × Record)) (w : Streams) : Streams :=
  entries.foldl (fun w e => logAt e.1 e.2 w) w

variable {least errors : Int} {root : Logger} {way : List Logger} {r : Record} {s : Stream}

/-! ## One record -/

theorem handlers_configure : (root.configure least errors).handlers =
    [⟨.output, debugLevel, [below (max errors debugLevel)]⟩, ⟨.error, max errors debugLevel, []⟩] := rfl

/-- Only the last configuration counts. -/
theorem configureAll_concat (calls : List (Int × Int)) (root : Logger) :
    root.configureAll (calls ++ [(least, errors)]) = root.configure least errors := by
  rw [Logger.configureAll, List.foldl_append]
  rfl

theorem effectiveLevel_append (h : ∀ l ∈ way, l.Bare) (above : List Logger) :
    effectiveLevel (way ++ above) = effectiveLevel above := by
  induction way with
  | nil => rfl
  | cons l way ih =>
    obtain ⟨hl, hway⟩ := List.forall_mem_cons.mp h
    rw [List.cons_append, effectiveLevel, if_pos hl.level, ih hway]

theorem effectiveLevel_singleton (l : Logger) : effectiveLevel [l] = l.level := by
  unfold effectiveLevel
  split
  · rename_i h
    exact h.symm
  · rfl

theorem handlers_append (h : ∀ l ∈ way, l.Bare) (above : List Logger) :
    (way ++ above).flatMap Logger.handlers = above.flatMap Logger.handlers := by
  rw [List.flatMap_append, List.flatMap_eq_nil_iff.mpr fun l hl => (h l hl).handlers, List.nil_append]

/-- The stream that the two handlers come to between them. -/
def streamOf (errors : Int) (r : Record) : Stream := if max errors 10 ≤ r.level then .error else .output

/-- Of the two handlers exactly one takes a record, unless it is below the level of debugging. -/
theorem takes_handlers (errors : Int) (r : Record) :
    ((root.configure least errors).handlers.filter fun h => h.takes r).map Handler.stream =
      if debugLevel ≤ r.level then [streamOf errors r] else [] := by
  have hdebug : debugLevel = 10 := rfl
  rw [handlers_configure, streamOf]
  by_cases hlow : debugLevel ≤ r.level
  · by_cases herror : max errors debugLevel ≤ r.level
    · have hpasses : ¬ r.level < max errors debugLevel := by omega
      simp [Handler.takes, below, hlow, herror, hpasses, ← hdebug]
    · have hpasses : r.level < max errors debugLevel := by omega
      simp [Handler.takes, below, hlow, herror, hpasses, ← hdebug]
  · have herror : ¬ max errors debugLevel ≤ r.level := by omega
    simp [Handler.takes, hlow, herror]

/-- A record is written once or not at all. -/
theorem deliveries_configured (h : ∀ l ∈ way, l.Bare) :
    deliveries (way ++ [root.configure least errors]) r =
      if max least 10 ≤ r.level then [streamOf errors r] else [] := by
  have hlevel : effectiveLevel (way ++ [root.configure least errors]) = least := by
    rw [effectiveLevel_append h, effectiveLevel_singleton]
    rfl
  have hhandlers : (way ++ [root.configure least errors]).flatMap Logger.handlers =
      (root.configure least errors).handlers := by
    rw [handlers_append h, List.flatMap_singleton]
  have hdebug : debugLevel = 10 := rfl
  rw [deliveries, hhandlers, takes_handlers, enables, hlevel]
  by_cases hkept : max least 10 ≤ r.level
  · have henabled : 0 < r.level ∧ least ≤ r.level ∧ debugLevel ≤ r.level := by omega
    simp [henabled, hkept]
  · rw [if_neg hkept]
    by_cases henabled : (decide (0 < r.level) && decide (least ≤ r.level)) = true
    · have hlow : ¬ debugLevel ≤ r.level := by
        simp at henabled
        omega
      rw [if_pos henabled, if_neg hlow]
    · rw [if_neg henabled]

/-- The division of records says the same. -/
theorem stream?_make : (Division.make least errors).stream? r =
    if max least 10 ≤ r.level then some (streamOf errors r) else none := by
  have hdebug : debugLevel = 10 := rfl
  rw [Division.stream?, Division.keeps, streamOf, ← hdebug]
  show (if !(decide (least = 0) || decide (least ≤ r.level)) || decide (r.level < debugLevel) then none
    else if max errors debugLevel ≤ r.level then some Stream.error else some .output) = _
  by_cases hkept : max least debugLevel ≤ r.level
  · have hleast : least ≤ r.level ∧ ¬ r.level < debugLevel := by omega
    simp only [hkept, hleast, if_true, decide_true, Bool.or_true, Bool.not_true, decide_false,
      Bool.or_false, Bool.false_eq_true, if_false, apply_ite some]
  · have hdropped : (!(decide (least = 0) || decide (least ≤ r.level)) ||
        decide (r.level < debugLevel)) = true := by
      simp
      omega
    rw [if_pos hdropped, if_neg hkept]

/-! ## Many records -/

variable {entries : List (List Logger × Record)}

/-- What one record adds to a stream. -/
theorem logAt_configured (h : ∀ l ∈ way, l.Bare) (w : Streams) (s : Stream) :
    logAt (way ++ [root.configure least errors]) r w s =
      w s ++ [r].filter fun r => max least 10 ≤ r.level ∧ streamOf errors r = s := by
  rw [logAt, deliveries_configured h]
  by_cases hkept : max least 10 ≤ r.level
  · rw [if_pos hkept]
    show (if s = streamOf errors r then w s ++ [r] else w s) = _
    by_cases hs : streamOf errors r = s
    · rw [if_pos hs.symm, List.filter_cons_of_pos (by simp [hkept, hs])]
      rfl
    · rw [if_neg (Ne.symm hs), List.filter_cons_of_neg (by simp [hs]), List.filter_nil, List.append_nil]
  · rw [if_neg hkept, List.filter_cons_of_neg (by simp [hkept]), List.filter_nil, List.append_nil]
    rfl

/-- What a whole run adds to a stream. -/
theorem logAll_configured (h : ∀ e ∈ entries, ∀ l ∈ e.1, l.Bare) (w : Streams) (s : Stream) :
    logAll (entries.map fun e => (e.1 ++ [root.configure least errors], e.2)) w s =
      w s ++ (entries.map Prod.snd).filter fun r => max least 10 ≤ r.level ∧ streamOf errors r = s := by
  induction entries generalizing w with
  | nil => exact (List.append_nil _).symm
  | cons e entries ih =>
    obtain ⟨he, hentries⟩ := List.forall_mem_cons.mp h
    rw [List.map_cons, logAll, List.foldl_cons]
    refine (ih hentries _).trans ?_
    dsimp only
    rw [logAt_configured he, List.append_assoc, ← List.filter_append]
    rfl

/-- **Every record of the least level and of the level of debugging is written exactly once**, however
often the root was configured before. It goes to the error stream if it is of the level for errors, and of
the level of debugging, or above, and to the output stream otherwise, so never to both. A stream gets its
records in the order in which they are logged, at whatever loggers, and in lines they are what the
division of the records by the two levels leaves in it. -/
theorem records_written_once (root : Logger) (earlier : List (Int × Int)) (least errors : Int)
    (h : ∀ e ∈ entries, ∀ l ∈ e.1, l.Bare) :
    let root := root.configureAll (earlier ++ [(least, errors)])
    let logged := logAll (entries.map fun e => (e.1 ++ [root], e.2))
    (∀ e ∈ entries, deliveries (e.1 ++ [root]) e.2 =
      if max least 10 ≤ e.2.level then [if max errors 10 ≤ e.2.level then .error else .output]
      else []) ∧
    (∀ (w : Streams) (s : Stream), logged w s = w s ++ (entries.map Prod.snd).filter fun r =>
      max least 10 ≤ r.level ∧ (s = .error ↔ max errors 10 ≤ r.level)) ∧
    ∀ (format : LineFormat) (s : Stream),
      (Division.make least errors).written format s (entries.map Prod.snd) =
        String.join ((logged (fun _ => []) s).map (Record.line format)) := by
  have hstream : ∀ r : Record, ∀ s, streamOf errors r = s ↔ (s = .error ↔ max errors 10 ≤ r.level) := by
    intro r s
    by_cases herror : max errors 10 ≤ r.level <;> cases s <;> simp [streamOf, herror]
  dsimp only
  rw [configureAll_concat]
  refine ⟨fun e he => deliveries_configured (h e he), fun w s => ?_, fun format s => ?_⟩
  · rw [logAll_configured h]
    simp only [hstream]
  · rw [logAll_configured h, List.nil_append, Division.written]
    simp only [stream?_make]
    congr 3
    funext r
    by_cases hkept : max least 10 ≤ r.level <;> simp [hkept]

/-- A root with a handler already is configured twice. The level for errors is below that of debugging,
so everything that is written goes to the error stream. -/
theorem records_written_once_clamped :
    let root := Logger.configureAll [(20, 30), (0, -5)] ⟨40, [⟨.output, 0, []⟩]⟩
    let logged := logAll [([⟨0, []⟩, ⟨0, []⟩, root], ⟨"a.b", 9, "low"⟩),
      ([⟨0, []⟩, root], ⟨"a", 10, "least"⟩), ([root], ⟨"root", 45, "high"⟩)] fun _ => []
    logged .output = [] ∧ logged .error = [⟨"a", 10, "least"⟩, ⟨"root", 45, "high"⟩] := by
  have hbare : (⟨0, []⟩ : Logger).Bare := ⟨rfl, rfl⟩
  have hentries : ∀ e ∈ ([([⟨0, []⟩, ⟨0, []⟩], ⟨"a.b", 9, "low"⟩), ([⟨0, []⟩], ⟨"a", 10, "least"⟩),
      ([], ⟨"root", 45, "high"⟩)] : List (List Logger × Record)), ∀ l ∈ e.1, l.Bare := by
    simp [hbare]
  have h := records_written_once ⟨40, [⟨.output, 0, []⟩]⟩ [(20, 30)] 0 (-5) hentries
  exact ⟨(h.2.1 (fun _ => []) .output).trans (by decide), (h.2.1 (fun _ => []) .error).trans (by decide)⟩

end Conform.Log
