import Keyring.Yaml.Pattern
/-!
# Tags

A tag names the kind of a node. A plain scalar without a tag gets one from its text: each implicit
tag has a pattern and a set of characters that its texts start with, and the first in the list
whose pattern matches is taken. Metadata files leave the tag of whole numbers out, so that keys
made of digits stay texts.
-/

namespace Keyring.Yaml

/-- The tag of a kind of the YAML repository. -/
def coreTag (kind : String) : String := "tag:yaml.org,2002:" ++ kind

def nullTag : String := coreTag "null"
def boolTag : String := coreTag "bool"
def intTag : String := coreTag "int"
def floatTag : String := coreTag "float"
def binaryTag : String := coreTag "binary"
def timestampTag : String := coreTag "timestamp"
def omapTag : String := coreTag "omap"
def pairsTag : String := coreTag "pairs"
def setTag : String := coreTag "set"
def strTag : String := coreTag "str"
def seqTag : String := coreTag "seq"
def mapTag : String := coreTag "map"
def mergeTag : String := coreTag "merge"
def valueTag : String := coreTag "value"

/-- A tag that plain scalars get from their text. -/
structure ImplicitTag where
  tag : String
  /-- The characters a text may start with. -/
  firsts : String
  /-- The empty text may match. -/
  allowsEmpty : Bool := false
  pattern : Pattern

open Pattern

/-- The words for true and false, in small letters, with a capital or all in capitals. -/
def boolPattern : Pattern :=
  any (["yes", "Yes", "YES", "no", "No", "NO", "true", "True", "TRUE", "false", "False", "FALSE",
    "on", "On", "ON", "off", "Off", "OFF"].map text)

def digit : Pattern := oneOf "0123456789"

def digitOrBar : Pattern := oneOf "0123456789_"

def sign : Pattern := optional (oneOf "-+")

/-- The parts after the first of a number in base sixty. -/
def sexagesimals : Pattern :=
  Pattern.some (all [char ':', optional (oneOf "012345"), digit])

/-- An exponent, whose sign is required. -/
def exponent : Pattern :=
  optional (all [oneOf "eE", oneOf "-+", Pattern.some digit])

def floatPattern : Pattern :=
  any [
    all [sign, digit, many digitOrBar, char '.', many digitOrBar, exponent],
    all [char '.', digit, many digitOrBar, exponent],
    all [sign, digit, many digitOrBar, sexagesimals, char '.', many digitOrBar],
    all [sign, char '.', any (["inf", "Inf", "INF"].map text)],
    all [char '.', any (["nan", "NaN", "NAN"].map text)]]

def intPattern : Pattern :=
  any [
    all [sign, text "0b", Pattern.some (oneOf "01_")],
    all [sign, char '0', Pattern.some (oneOf "01234567_")],
    all [sign, alt (char '0') (all [oneOf "123456789", many digitOrBar])],
    all [sign, text "0x", Pattern.some (oneOf "0123456789abcdefABCDEF_")],
    all [sign, oneOf "123456789", many digitOrBar, sexagesimals]]

def nullPattern : Pattern :=
  any ([char '~', text "null", text "Null", text "NULL", nothing])

/-- One or two digits. -/
def shortNumber : Pattern := seq digit (optional digit)

def timestampPattern : Pattern :=
  any [
    all [times 4 digit, char '-', times 2 digit, char '-', times 2 digit],
    all [times 4 digit, char '-', shortNumber, char '-', shortNumber,
      alt (oneOf "Tt") (Pattern.some (oneOf " \t")),
      shortNumber, char ':', times 2 digit, char ':', times 2 digit,
      optional (seq (char '.') (many digit)),
      optional (seq (many (oneOf " \t"))
        (alt (char 'Z') (all [oneOf "-+", shortNumber, optional (seq (char ':') (times 2 digit))])))]]

/-- The implicit tags of YAML 1.1, in the order in which they are tried. -/
def coreTags : List ImplicitTag := [
  { tag := boolTag, firsts := "yYnNtTfFoO", pattern := boolPattern },
  { tag := floatTag, firsts := "-+0123456789.", pattern := floatPattern },
  { tag := intTag, firsts := "-+0123456789", pattern := intPattern },
  { tag := mergeTag, firsts := "<", pattern := text "<<" },
  { tag := nullTag, firsts := "~nN", allowsEmpty := true, pattern := nullPattern },
  { tag := timestampTag, firsts := "0123456789", pattern := timestampPattern },
  { tag := valueTag, firsts := "=", pattern := char '=' },
  { tag := coreTag "yaml", firsts := "!&*", pattern := oneOf "!&*" }]

/-- The implicit tags of metadata files. -/
def metadataTags : List ImplicitTag :=
  coreTags.filter fun t => t.tag != intTag

namespace ImplicitTag

/-- Whether the first character of a text allows the tag. -/
def mayStart (t : ImplicitTag) : List Char → Bool
  | [] => t.allowsEmpty
  | c :: _ => t.firsts.toList.contains c

/-- Whether the pattern matches a text, or a text less one line feed at its end. -/
def matchesLine (t : ImplicitTag) (cs : List Char) : Bool :=
  t.pattern.accepts cs || (cs.getLast? == Option.some '\n' && t.pattern.accepts cs.dropLast)

/-- Whether a text gets the tag, no other being tried before. -/
def claims (t : ImplicitTag) (cs : List Char) : Bool :=
  t.mayStart cs && t.matchesLine cs

end ImplicitTag

/-- The tag that a plain scalar gets from its text. -/
def resolve (tags : List ImplicitTag) (cs : List Char) : String :=
  ((tags.find? (·.claims cs)).map (·.tag)).getD strTag

end Keyring.Yaml
