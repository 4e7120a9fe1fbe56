import SchemaProjection.Text.CaseMapping
import SchemaProjection.Text.CharClass.Blank
import SchemaProjection.Text.CharClass.Letters

/-!
# Words of a name, and the four ways to join them

A name such as `getHTTPServer_v2` is cut into **words** (`Words.split`): at separators, which
belong to no word, and in front of an upper-case letter that starts a new word
(`Words.startsWord`). Here the words are `get`, `HTTP`, `Server` and `v2`.

A `Casing` joins the words again. Whole words go to lower case with the final form of sigma
(`Words.lower`), capitalised ones letter by letter (`Words.capitalize`).
-/

namespace SchemaProjection

namespace Words

/-- Characters between words: underscore, hyphen, dot and white space. -/
def isSeparator (c : Char) : Bool :=
  c = '_' || c = '-' || c = '.' || CharClass.blank.contains c

def isUpper (c : Char) : Bool := CharClass.uppercase.contains c

def isLower (c : Char) : Bool := CharClass.lowercase.contains c

/-- Whether `d` begins a new word when it follows `c` in the text and `next` comes after it:
an upper-case letter does, after a lower-case one or an ASCII digit, and as the last capital of
an acronym that a lower-case letter continues. -/
def startsWord (c d : Char) (next : Option Char) : Bool :=
  isUpper d && (isLower c || c.isDigit || (isUpper c && next.any isLower))

/-- The words of a text, given the characters of the word in progress, last one first. -/
def splitFrom : List Char → List Char → List (List Char)
  | [], [] => []
  | word, [] => [word.reverse]
  | [], d :: rest => if isSeparator d then splitFrom [] rest else splitFrom [d] rest
  | c :: word, d :: rest =>
    if isSeparator d then (c :: word).reverse :: splitFrom [] rest
    else if startsWord c d rest.head? then (c :: word).reverse :: splitFrom [d] rest
    else splitFrom (d :: c :: word) rest

/-- The words of a text. -/
def split (text : List Char) : List (List Char) := splitFrom [] text

/-! ### Case of a word -/

/-- Whether the first character that is not ignored is a cased one. -/
def meetsCased (text : List Char) : Bool :=
  (text.find? fun c => !CharClass.caseIgnorable.contains c).any CharClass.cased.contains

/-- The rest of a word in lower case, given what stands before it, last character first. A
capital sigma takes its final form after a cased letter and not before one. -/
def lowerFrom : List Char → List Char → List Char
  | _, [] => []
  | before, 'Σ' :: rest =>
    (if meetsCased before && !meetsCased rest then 'ς' else 'σ') :: lowerFrom ('Σ' :: before) rest
  | before, c :: rest => CaseMapping.lower c ++ lowerFrom (c :: before) rest

/-- A word in lower case. -/
def lower (word : List Char) : List Char := lowerFrom [] word

/-- A word with its first character in upper case and the others in lower case. -/
def capitalize : List Char → List Char
  | [] => []
  | c :: rest => CaseMapping.upper c ++ rest.flatMap CaseMapping.lower

end Words

/-- A way to write the words of a name. -/
inductive Casing
  | camel
  | pascal
  | snake
  | kebab
deriving DecidableEq

namespace Casing

/-- Words joined with a separator between them. -/
def joinWith (separator : Char) (words : List (List Char)) : List Char :=
  [separator].intercalate words

/-- The words of a name, written in a casing. -/
def join : Casing → List (List Char) → List Char
  | .camel, [] => []
  | .camel, first :: rest => Words.lower first ++ rest.flatMap Words.capitalize
  | .pascal, words => words.flatMap Words.capitalize
  | .snake, words => joinWith '_' (words.map Words.lower)
  | .kebab, words => joinWith '-' (words.map Words.lower)

/-- A name rewritten in a casing. -/
def apply (casing : Casing) (name : String) : String :=
  String.ofList (casing.join (Words.split name.toList))

end Casing

end SchemaProjection
