import Keyring.Yaml.Mark
/-!
# Tokens

The smallest parts of a YAML text that its grammar knows, each with the marks of its start and end.
-/

namespace Keyring.Yaml

/-- A directive line. -/
inductive Directive where
  | version (major minor : Nat)
  | tag (handle uri : String)
  | other
  deriving DecidableEq, Repr

/-- The kinds of token. -/
inductive TokenKind where
  | streamEnd
  | directive (d : Directive)
  | documentStart
  | documentEnd
  | blockSequenceStart
  | blockMappingStart
  | blockEnd
  | flowSequenceStart
  | flowSequenceEnd
  | flowMappingStart
  | flowMappingEnd
  | flowEntry
  | blockEntry
  | key
  | value
  | aliasTo (name : String)
  | anchor (name : String)
  /-- A tag in short form has a handle, a verbatim one has none. -/
  | tag (handle? : Option String) (suffix : String)
  | scalar (text : List Char) (plain : Bool)
  deriving DecidableEq, Repr

structure Token where
  kind : TokenKind
  start : Mark
  finish : Mark
  deriving DecidableEq, Repr

/-- What a message calls a token. -/
def TokenKind.label : TokenKind → String
  | streamEnd => "<stream end>"
  | directive _ => "<directive>"
  | documentStart => "<document start>"
  | documentEnd => "<document end>"
  | blockSequenceStart => "<block sequence start>"
  | blockMappingStart => "<block mapping start>"
  | blockEnd => "<block end>"
  | flowSequenceStart => "["
  | flowSequenceEnd => "]"
  | flowMappingStart => "\x7b"
  | flowMappingEnd => "\x7d"
  | flowEntry => ","
  | blockEntry => "-"
  | key => "?"
  | value => ":"
  | aliasTo _ => "<alias>"
  | anchor _ => "<anchor>"
  | tag _ _ => "<tag>"
  | scalar _ _ => "<scalar>"

end Keyring.Yaml
