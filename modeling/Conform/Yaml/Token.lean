/-!
Tokens: the words of a YAML text. The block tokens do not stand in the text; they say where the
indentation opens and closes a collection.
-/
namespace Conform.Yaml

/-- The two parts of a tag as written: a handle that the directives explain, or none for a tag that
is written in full. -/
structure WrittenTag where
  handle : Option (List Char)
  suffix : List Char
deriving DecidableEq, Repr

inductive Token
  | versionDirective (major : Nat)
  | tagDirective (handle meaning : List Char)
  /-- A directive of another name has no effect. -/
  | otherDirective
  | documentStart
  | documentEnd
  | blockSequenceStart
  | blockMappingStart
  | blockEnd
  | flowSequenceStart
  | flowSequenceEnd
  | flowMappingStart
  | flowMappingEnd
  | blockEntry
  | flowEntry
  | key
  | value
  | alias (name : List Char)
  | anchor (name : List Char)
  | tag (t : WrittenTag)
  | scalar (text : List Char) (plain : Bool)
  | streamEnd
deriving DecidableEq, Repr

end Conform.Yaml
