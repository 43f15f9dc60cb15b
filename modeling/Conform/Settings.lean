import Conform.Log
import Conform.Matching.Verify
import Conform.Numeral.Integer
import Conform.Text.Case

/-!
Settings of verification runs. They come from an environment of named texts, and single ones may be
overridden.
-/
namespace Conform

structure Settings where
  maxDepth : Int
  strict : Bool
  /-- The name of the least level of log records. -/
  logLevel : String
  /-- The name of the level from which log records count as errors. -/
  printLevel : String
  /-- Whether loaded documents are kept. -/
  caches : Bool
deriving DecidableEq, Repr

namespace Settings

def standard : Settings := ⟨Matcher.defaultDepth, false, "INFO", "ERROR", false⟩

/-- The names of the environment, each with its text. -/
abbrev Environment := List (String × String)

def isYes (text : String) : Bool :=
  ["1", "true", "yes", "on"].contains (String.ofList (Text.toLower (Text.trim text.toList)))

def flag (env : Environment) (name : String) (default : Bool) : Bool :=
  ((env.lookup name).map isYes).getD default

/-- Reads settings from the texts of an environment; what it does not name is as in `standard`. -/
def ofEnvironment (env : Environment) : Except Numeral.Error Settings := do
  let maxDepth ←
    match env.lookup "SHAPE_VERIFIER_MAX_DEPTH" with
    | some text => Numeral.readInteger 10 text.toList
    | none => .ok standard.maxDepth
  return {
    maxDepth
    strict := flag env "SHAPE_VERIFIER_STRICT_SHAPES" standard.strict
    logLevel := (env.lookup "SHAPE_VERIFIER_LOG_LEVEL").getD standard.logLevel
    printLevel := (env.lookup "SHAPE_VERIFIER_PRINT_LEVEL").getD standard.printLevel
    caches := flag env "SHAPE_VERIFIER_CACHE_ENABLED" standard.caches }

/-- A new value for one setting. -/
inductive Change
  | maxDepth (n : Int)
  | strict (b : Bool)
  | logLevel (name : String)
  | printLevel (name : String)
  | caches (b : Bool)
  /-- A setting that there is not. -/
  | unknown (name : String)
deriving DecidableEq, Repr

/-- The name that is no setting's. -/
structure UnknownSetting where
  name : String
deriving DecidableEq, Repr

def UnknownSetting.message (e : UnknownSetting) : String :=
  s!"VerifierConfig.__init__() got an unexpected keyword argument '{e.name}'"

def change (s : Settings) : Change → Except UnknownSetting Settings
  | .maxDepth n => .ok { s with maxDepth := n }
  | .strict b => .ok { s with strict := b }
  | .logLevel name => .ok { s with logLevel := name }
  | .printLevel name => .ok { s with printLevel := name }
  | .caches b => .ok { s with caches := b }
  | .unknown name => .error ⟨name⟩

def changeAll (s : Settings) (cs : List Change) : Except UnknownSetting Settings :=
  cs.foldlM change s

/-- The division of log records that the settings ask for. -/
def division (s : Settings) : Log.Division :=
  .make (Log.levelOr Log.infoLevel s.logLevel) (Log.levelOr Log.errorLevel s.printLevel)

/-- The matcher that the settings ask for. -/
def matcher (s : Settings) : Except Matcher.DepthError Matcher :=
  Matcher.make s.maxDepth s.strict

end Settings
end Conform
