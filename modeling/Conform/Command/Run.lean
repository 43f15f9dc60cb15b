import Conform.Command.Help
import Conform.Diagnosis
import Conform.Manifest

/-!
Runs of the command. A run loads and verifies its checks one after the other, logs on the way, and
writes the results when every check is completed. A check that is refused ends the run with an error
in the log.
-/
namespace Conform.Command

/-- What ends a run without an answer. -/
inductive Failure
  | environment (e : Numeral.Error)
  | depth (e : Matcher.DepthError)
  /-- A scalar of a document denotes nothing, or a document is nested too deep. -/
  | decode (e : DecodeError)
  | dump (e : DumpError)
  /-- A part of a manifest, or a key of a document, would have to be written and cannot be. -/
  | unwritable
deriving DecidableEq, Repr

inductive Stop
  /-- A document, a manifest or a shape is refused. -/
  | refusal (message : String)
  | failure (e : Failure)
deriving DecidableEq, Repr

/-- A refusal has to say why. -/
def Stop.ofMessage (message : Option String) : Stop :=
  (message.map .refusal).getD (.failure .unwritable)

/-- What a run has so far. -/
structure Progress where
  loader : Loader
  records : List Log.Record

abbrev Run := ExceptT Stop (StateM Progress)

namespace Run

def loaderName : String := "shape_verifier.parsers.document_parser"
def matcherName : String := "shape_verifier.matcher.engine"
def commandName : String := "shape_verifier.cli.run_verify"

def log (logger : String) (level : Int) (message : String) : Run Unit :=
  modify fun s => { s with records := s.records ++ [⟨logger, level, message⟩] }

def debug (logger message : String) : Run Unit := log logger Log.debugLevel message

/-- Why a load stops a run. -/
def stopOfLoad (e : LoadError) : Stop :=
  match e with
  | .undecodable _ d => if d.isRefusal then .refusal e.message else .failure (.decode d)
  | _ => .refusal e.message

def stopOfManifest (e : ManifestError) : Stop :=
  match e with
  | .unloadable l => if l.isRefusal then .ofMessage e.message? else stopOfLoad l
  | .invalid .. => .ofMessage e.message?

/-- Why a verification stops a run. -/
def stopOfVerify (e : VerifyError) : Stop :=
  if e.isRefusal then .refusal e.message else .failure .unwritable

/-- Takes over the loader after a load and logs its remark. -/
def take (l : Loader) (remark : Option String) : Run Unit := do
  modify fun s => { s with loader := l }
  if let some m := remark then debug loaderName m

def load (fs : Files) (p : Path) : Run Document := do
  let o := Loader.load fs (← get).loader p none
  take o.loader o.remark
  match o.result with
  | .ok d => return d
  | .error e => throw (stopOfLoad e)

def loadManifest (fs : Files) (p : Path) : Run (List Check) := do
  let o := Manifest.load fs (← get).loader p
  take o.loader o.remark
  match o.result with
  | .ok cs => return cs
  | .error e => throw (stopOfManifest e)

/-- Verifies a subject against a shape, both loaded. -/
def verify (s : Settings) (shape subject : Document) : Run Report := do
  match s.matcher with
  | .error e => throw (.failure (.depth e))
  | .ok m =>
    let (r, remarks) := m.verifyWithRemarks shape subject
    remarks.forM (debug matcherName)
    match r with
    | .ok r => return r
    | .error e => throw (stopOfVerify e)

/-- Logs what there is to say about a report. -/
def diagnose (r : Report) (shape subject : Document) : Run Unit := do
  let (ls, dumped) := Diagnosis.lines r shape.dump subject.dump
  ls.forM fun l => log commandName l.level l.message
  match dumped with
  | .ok () => return
  | .error e => throw (.failure (.dump e))

/-- Loads and verifies what a check names. The check may be strict where the settings are not, and the
other way round. -/
def check (fs : Files) (s : Settings) (c : Check) : Run Result := do
  let shape ← load fs c.shape
  let subject ← load fs c.subject
  debug commandName ("Verifying " ++ c.subject.text ++ " against " ++ c.shape.text)
  let r ← verify { s with strict := c.strict.getD s.strict } shape subject
  diagnose r shape subject
  return ⟨c.name, r, some c.shape, some c.subject⟩

/-- The checks of a task. A pair is a check that is called by its subject. -/
def checks (fs : Files) : Task → Run (List Check)
  | .manifest p => loadManifest fs p
  | .pair shape subject => return [⟨subject, .ofText shape, .ofText subject, none⟩]

def results (fs : Files) (s : Settings) (t : Task) : Run (List Result) := do
  (← checks fs t).mapM (check fs s)

end Run

/-- How a run ends. -/
inductive Ending
  | exit (code : Nat)
  | failure (e : Failure)
deriving DecidableEq, Repr

structure Output where
  ending : Ending
  output : String
  errors : String
deriving DecidableEq, Repr

/-- The settings of a run: those of the environment, changed by the arguments that are given. -/
def Arguments.settings (a : Arguments) (s : Settings) : Settings :=
  { s with
    maxDepth := a.maxDepth.getD s.maxDepth
    strict := a.strict || s.strict
    logLevel := a.logLevel.getD s.logLevel }

/-- What a run leaves in the two streams and how it ends, given its log and its outcome. -/
def conclude (s : Settings) (format : OutputFormat) (outcome : Except Stop (List Result))
    (log : List Log.Record) : Output :=
  let written := fun stream rs => s.division.written .standard stream rs
  let close := fun rs ending text => (⟨ending, written .output rs ++ text, written .error rs⟩ : Output)
  match outcome with
  | .ok results =>
    close log (.exit (if results.all fun r => r.report.isOk then 0 else 1))
      (Rendering.render results format)
  | .error (.refusal message) =>
    close (log ++ [⟨Run.commandName, Log.errorLevel, message⟩]) (.exit 1) ""
  | .error (.failure e) => close log (.failure e) ""

/-- Runs what the arguments ask for. -/
def execute (fs : Files) (s : Settings) (a : Arguments) : Output :=
  let s := a.settings s
  let (outcome, progress) := ((Run.results fs s a.task).run).run ⟨.start s.caches, []⟩
  conclude s a.format outcome progress.records

/-- The command: an environment, files and an argument list to what it writes and how it ends. -/
def run (env : Settings.Environment) (fs : Files) (texts : List String) : Output :=
  match Settings.ofEnvironment env with
  | .error e => ⟨.failure (.environment e), "", ""⟩
  | .ok s =>
    match Arguments.ofTexts texts with
    | .error .help => ⟨.exit 0, help s, ""⟩
    | .error (.usage e) => ⟨.exit 2, "", e.report⟩
    | .ok a => execute fs s a

/-- The paths that a run looks at, as far as they are known from the files. -/
def paths (fs : Files) (texts : List String) : List Path :=
  match Arguments.ofTexts texts with
  | .error _ => []
  | .ok a =>
    match a.task with
    | .pair shape subject => [.ofText shape, .ofText subject]
    | .manifest p =>
      match (Manifest.load fs (.start false) p).result with
      | .ok cs => p :: cs.flatMap fun c => [c.shape, c.subject]
      | .error _ => [p]

end Conform.Command
