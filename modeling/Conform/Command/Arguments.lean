import Conform.Numeral.Integer
import Conform.Result

/-!
Arguments of the command. Options start with a hyphen and may be shortened as long as they stay apart;
their argument is the next word or follows an equals sign. The other words are operands: the shape and
the subject. They are taken together at the first operand, and operands further on are left over. Two
hyphens end the options.
-/
namespace Conform.Command

/-- The options. -/
inductive Flag
  | help
  | manifest
  | format
  | strict
  | maxDepth
  | logLevel
deriving DecidableEq, Repr

namespace Flag

def all : List Flag := [.help, .manifest, .format, .strict, .maxDepth, .logLevel]

def longName : Flag → String
  | .help => "--help"
  | .manifest => "--manifest"
  | .format => "--format"
  | .strict => "--strict"
  | .maxDepth => "--max-depth"
  | .logLevel => "--log-level"

/-- The names of an option in messages. -/
def names : Flag → String
  | .help => "-h/--help"
  | f => f.longName

def takesArgument : Flag → Bool
  | .help => false
  | .strict => false
  | _ => true

end Flag

inductive UsageError
  | ambiguous (word : String) (candidates : List Flag)
  | lacksArgument (f : Flag)
  | spareArgument (f : Flag) (argument : String)
  | notInteger (f : Flag) (argument : String)
  | notFormat (f : Flag) (argument : String)
  | leftOver (words : List String)
  | operandsBesideManifest
  | nothingToVerify
  | depthNotPositive
deriving DecidableEq, Repr

def UsageError.message : UsageError → String
  | .ambiguous word candidates =>
    s!"ambiguous option: {word} could match " ++ ", ".intercalate (candidates.map Flag.longName)
  | .lacksArgument f => s!"argument {f.names}: expected one argument"
  | .spareArgument f argument =>
    s!"argument {f.names}: ignored explicit argument " ++ Text.quoted argument
  | .notInteger f argument => s!"argument {f.names}: invalid int value: " ++ Text.quoted argument
  | .notFormat f argument =>
    s!"argument {f.names}: invalid choice: " ++ Text.quoted argument ++ " (choose from "
      ++ ", ".intercalate (OutputFormat.all.map fun o => Text.quoted o.name) ++ ")"
  | .leftOver words => "unrecognized arguments: " ++ " ".intercalate words
  | .operandsBesideManifest => "SHAPE/SUBJECT cannot be combined with --manifest"
  | .nothingToVerify => "SHAPE and SUBJECT are required unless --manifest is given"
  | .depthNotPositive => "--max-depth must be positive"

/-- What a word is. -/
inductive Word
  | operand (text : String)
  | separator
  | option (f : Flag) (argument : Option String)
  /-- The short name of help, with the characters after it. -/
  | shortHelp (more : String)
  /-- A word that looks like an option and is none. -/
  | stranger (text : String)
deriving DecidableEq, Repr

namespace Word

/-- Whether a word after its hyphen is a negative number: digits, perhaps with a point among or before
them. A line feed at the end does not matter. -/
def isNumber (cs : List Char) : Bool :=
  let cs := if cs.getLast? = some '\n' then cs.dropLast else cs
  let isDigit := fun c => (Text.decimalDigit? c).isSome
  match cs.dropWhile isDigit with
  | [] => !cs.isEmpty
  | '.' :: r => !r.isEmpty && r.all isDigit
  | _ => false

/-- The part before the first equals sign, and the part after it if there is one. -/
def splitAtEquals (cs : List Char) : List Char × Option String :=
  match cs.span (· ≠ '=') with
  | (name, _ :: argument) => (name, some (String.ofList argument))
  | (name, []) => (name, none)

/-- A word that starts with a hyphen and names no option. -/
def unnamed (text : String) : Word :=
  if isNumber text.toList.tail || text.toList.contains ' ' then .operand text else .stranger text

/-- A word that starts with two hyphens. -/
def long (text : String) : Except UsageError Word :=
  let (name, argument) := splitAtEquals text.toList
  let exact := Flag.all.filter fun f => f.longName = text
  let named := Flag.all.filter fun f => f.longName.toList = name
  let begun := Flag.all.filter fun f => name.isPrefixOf f.longName.toList
  match exact, named, begun with
  | f :: _, _, _ => .ok (.option f none)
  | [], f :: _, _ => .ok (.option f argument)
  | [], [], [f] => .ok (.option f argument)
  | [], [], [] => .ok (unnamed text)
  | [], [], candidates => .error (.ambiguous text candidates)

def ofText (text : String) : Except UsageError Word :=
  match text.toList with
  | '-' :: '-' :: _ => long text
  | ['-', 'h'] => .ok (.option .help none)
  | '-' :: 'h' :: '=' :: r => .ok (.shortHelp (String.ofList r))
  | '-' :: 'h' :: r => .ok (.shortHelp (String.ofList r))
  | '-' :: _ :: _ => .ok (unnamed text)
  | _ => .ok (.operand text)

/-- The words of an argument list; behind two hyphens all are operands. -/
def ofTexts : List String → Except UsageError (List Word)
  | [] => .ok []
  | t :: ts =>
    if t = "--" then .ok (.separator :: ts.map .operand)
    else do
      let w ← ofText t
      return w :: (← ofTexts ts)

def text : Word → String
  | .operand t => t
  | .separator => "--"
  | _ => ""

end Word

/-- The arguments as given. -/
structure Given where
  shape : Option String
  subject : Option String
  manifest : Option String
  format : OutputFormat
  strict : Bool
  maxDepth : Option Int
  logLevel : Option String
deriving DecidableEq, Repr

/-- Why no verification starts. -/
inductive Halt
  | help
  | usage (e : UsageError)
deriving DecidableEq, Repr

namespace Given

def none : Given := ⟨.none, .none, .none, .human, false, .none, .none⟩

/-- The argument of an option; two hyphens are no argument, even behind an equals sign. -/
def argument (text : String) : String := if text = "--" then "" else text

/-- The arguments with an option added. -/
def set (g : Given) (f : Flag) (text : String) : Except Halt Given :=
  match f with
  | .help => .error .help
  | .strict => .ok { g with strict := true }
  | .manifest => .ok { g with manifest := argument text }
  | .logLevel => .ok { g with logLevel := argument text }
  | .format =>
    match OutputFormat.ofName? text with
    | some o => .ok { g with format := o }
    | .none => .error (.usage (.notFormat f text))
  | .maxDepth =>
    match Numeral.readInteger 10 text.toList with
    | .ok n => .ok { g with maxDepth := n }
    | .error _ => .error (.usage (.notInteger f text))

/-- The words that one operand takes up, the separators around it included. -/
def operandWords (ws : List Word) : List Word :=
  let before := ws.takeWhile (· = .separator)
  let operand := ((ws.drop before.length).take 1).filter fun w => w matches .operand _
  let after := (ws.drop (before.length + operand.length)).takeWhile (· = .separator)
  before ++ operand ++ after

/-- The text of an operand; the first two hyphens among its words are no part of it. -/
def operandText (ws : List Word) : Option String := ((ws.map Word.text).erase "--").head?

/-- Both operands, from where the first one stands. -/
def setOperands (g : Given) (ws : List Word) : Given × List Word :=
  let first := operandWords ws
  let second := operandWords (ws.drop first.length)
  ({ g with shape := operandText first, subject := operandText second },
    ws.drop (first.length + second.length))

/-- Takes words one after the other. `taken` tells whether the operands were taken, and `spare` holds
the words left over. -/
def take (g : Given) (taken : Bool) (spare : List String) : Nat → List Word → Except Halt Given
  | 0, _ => .ok g
  | _, [] => if spare.isEmpty then .ok g else .error (.usage (.leftOver spare))
  | fuel + 1, w :: ws =>
    match w with
    | .stranger text => g.take taken (spare ++ [text]) fuel ws
    | .shortHelp more =>
      let rest := more.toList.dropWhile (· = 'h')
      if more.isEmpty || !rest.isEmpty then
        .error (.usage (.spareArgument .help (String.ofList rest)))
      else .error .help
    | .option f (some text) =>
      if f.takesArgument then do (← g.set f text).take taken spare fuel ws
      else .error (.usage (.spareArgument f text))
    | .option f .none =>
      if f.takesArgument then
        match ws with
        | .operand text :: ws => do (← g.set f text).take taken spare fuel ws
        | _ => .error (.usage (.lacksArgument f))
      else do (← g.set f "").take taken spare fuel ws
    | w =>
      if taken then g.take taken (spare ++ [w.text]) fuel ws
      else
        let (g, ws) := g.setOperands (w :: ws)
        g.take true spare fuel ws

def ofTexts (texts : List String) : Except Halt Given := do
  let ws ← (Word.ofTexts texts).mapError .usage
  none.take false [] (ws.length + 1) ws

end Given

/-- What is to be verified. -/
inductive Task
  | manifest (p : Path)
  | pair (shape subject : String)
deriving DecidableEq, Repr

/-- Arguments that make sense together. -/
structure Arguments where
  task : Task
  format : OutputFormat
  strict : Bool
  maxDepth : Option Int
  logLevel : Option String
deriving DecidableEq, Repr

/-- The text, unless it is empty. -/
def present (text : Option String) : Option String := text.filter (· ≠ "")

def Given.task (g : Given) : Except UsageError Task :=
  match present g.manifest, present g.shape, present g.subject with
  | some m, .none, .none => .ok (.manifest (.ofText m))
  | some _, _, _ => .error .operandsBesideManifest
  | .none, some shape, some subject => .ok (.pair shape subject)
  | .none, _, _ => .error .nothingToVerify

/-- Reads the argument list of the command. -/
def Arguments.ofTexts (texts : List String) : Except Halt Arguments := do
  let g ← Given.ofTexts texts
  let task ← g.task.mapError .usage
  if g.maxDepth.any (· < 1) then throw (.usage .depthNotPositive)
  return ⟨task, g.format, g.strict, g.maxDepth, g.logLevel⟩

end Conform.Command
