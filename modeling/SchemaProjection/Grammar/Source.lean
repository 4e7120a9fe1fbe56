/-!
# Sources

A source is the text of a projection file together with its name. Lines end at a line feed; a
carriage return just before it belongs to the line end and not to the line. Where each line begins
and ends is kept in a table of bytes (`Source.lineTable`), out of which a line is cut
(`Source.line`). A text has one line more than it has line feeds, so even the empty text has a
line.

`Source.message` shows a place in a source: its line with a caret below the column, and what is
to be said about it. Lines and columns count from one.
-/

namespace SchemaProjection

/-- A projection file. -/
structure Source where
  file : String
  text : String
deriving DecidableEq, Inhabited

namespace Source

/-- The largest size of a source in bytes. -/
def maxSize : Nat := 4294967293

/-- A source is larger than `maxSize`. -/
structure TooLarge where
  file : String
deriving DecidableEq

def TooLarge.message (e : TooLarge) : String :=
  s!"{e.file} exceeds maximum allowed projection file size {maxSize}"

/-- A source with the given text, which has to keep to the maximal size. -/
def ofText (file text : String) : Except TooLarge Source :=
  if maxSize < text.utf8ByteSize then .error ⟨file⟩ else .ok ⟨file, text⟩

/-- The lines of a text, each by the bytes where it begins and ends. Of the text that was read
before, `previous` is the last character and `place` the byte where that stands; the line in
progress begins at `start`. Behind a final line feed there is an empty line, which is said to stand
in front of it. -/
def tableFrom (previous : Char) (place start offset : Nat) : List Char → List (Nat × Nat)
  | [] =>
    if start < offset then [(start, offset)]
    else if offset = 0 then [(0, 0)]
    else [(offset - 1, offset - 1)]
  | c :: rest =>
    if c = '\n' then
      (start, if previous = '\r' then place else offset) ::
        tableFrom c offset (offset + 1) (offset + 1) rest
    else tableFrom c offset start (offset + c.utf8Size) rest

/-- The line table of a source. -/
def lineTable (source : Source) : List (Nat × Nat) := tableFrom ' ' 0 0 0 source.text.toList

/-- The text between two bytes. -/
def between (source : Source) (start stop : Nat) : String :=
  String.Pos.Raw.extract source.text ⟨start⟩ ⟨stop⟩

/-- A line, counted from zero; beyond the last one there is only empty text. -/
def line (source : Source) (index : Nat) : String :=
  match source.lineTable[index]? with
  | some (start, stop) => source.between start stop
  | none => ""

/-- A text filled with blanks on the right. -/
def padRight (width : Nat) (text : String) : String :=
  text ++ String.ofList (List.replicate (width - text.length) ' ')

/-- A line of the source with a caret below a column, and what is to be said about it. `kind` is the
word in front of the text. -/
def excerpt (source : Source) (line col : Nat) (kind text : String) : String :=
  let number := toString line
  let width := number.length + 1
  let margin := padRight width ""
  let caret := padRight (col - 1) "" ++ "^"
  let numbered := s!"{padRight width number}| {source.line (line - 1)}"
  s!"\n--> {source.file}:{line}:{col}\n{margin}|\n{numbered}\n{margin}| {caret}\n{kind}: {text}"

/-- What is to be said about a place, which has to be on a line of the source. -/
def message (source : Source) (line col : Nat) (kind text : String) : String :=
  if source.lineTable.length < line then s!"{source.file}: invalid line {line} specified"
  else source.excerpt line col kind text

end Source

/-! ### Spans -/

/-- A stretch of a source: the line and column where it is reported, and the bytes it covers,
from `start` up to but not including `stop`. -/
structure Span where
  file : String
  line : Nat
  col : Nat
  start : Nat
  stop : Nat
deriving DecidableEq, Inhabited

/-- The place of a span as messages give it. -/
def Span.place (span : Span) : String := s!"{span.file}:{span.line}:{span.col}"

/-- A name in a source. -/
structure Word where
  text : String
  span : Span
deriving DecidableEq, Inhabited

end SchemaProjection
