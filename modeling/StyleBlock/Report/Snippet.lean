import StyleBlock.Error
import StyleBlock.Text.Width

/-!
Showing an error together with the line it is blamed on and a caret under the place. Tabs are shown
as blanks up to the next column that is a multiple of four. A place that is the end of a line is
shown as a stretch that reaches into the next line.
-/

namespace StyleBlock.Report

/-- A line of a source: the offset of its first byte, and its characters without the line feed. -/
structure SourceLine where
  start : Nat
  chars : List Char

def bytes (chars : List Char) : Nat := (chars.map Char.utf8Size).foldr (· + ·) 0

/-- The lines that consecutive pieces make. -/
def linesFrom (start : Nat) : List (List Char) → List SourceLine
  | [] => []
  | piece :: rest => ⟨start, piece⟩ :: linesFrom (start + bytes piece + 1) rest

/-- The lines of a source; only a line feed ends a line. -/
def sourceLines (source : String) : List SourceLine :=
  linesFrom 0 (Text.splitChars '\n' source.toList)

/-- The lines up to the one that an offset lies in, with their number. -/
def linesUpTo (offset : Nat) (lines : List SourceLine) : List SourceLine :=
  lines.takeWhile fun line => line.start ≤ offset

/-- How many characters end within so many bytes. -/
def charsWithin (limit : Nat) : List Char → Nat
  | [] => 0
  | c :: rest =>
    if c.utf8Size ≤ limit then charsWithin (limit - c.utf8Size) rest + 1 else 0

/-- A character as it is shown: where it starts in its line, and the columns it takes. -/
structure Cell where
  offset : Nat
  char : Char
  width : Nat

/-- How far tabs lead. -/
def tabWidth : Nat := 4

/-- The cells of a line from an offset and a column on. -/
def cellsFrom (offset column : Nat) : List Char → List Cell
  | [] => []
  | c :: rest =>
    let width := if c = '\t' then tabWidth - column % tabWidth else Text.columns c
    ⟨offset, c, width⟩ :: cellsFrom (offset + c.utf8Size) (column + width) rest

/-- The part of a line that is shown. -/
def shownChars (line : SourceLine) : List Char :=
  (line.chars.reverse.dropWhile fun c => c = '\r' || c = '\x00' || c = '\n').reverse

def cells (line : SourceLine) : List Cell := cellsFrom 0 0 (shownChars line)

def blanks (count : Nat) : String := String.ofList (List.replicate count ' ')

def repeated (c : Char) (count : Nat) : String := String.ofList (List.replicate count c)

/-- The text of a line, with tabs as blanks. -/
def shownText (line : SourceLine) : String :=
  String.join ((cells line).map fun cell =>
    if cell.char = '\t' then blanks cell.width else cell.char.toString)

/-- The start of a line of a report, without or with a line number. -/
def gutter (padding : Nat) (number : Option Nat) : String :=
  let shown := (number.map toString).getD ""
  blanks (padding - shown.length) ++ shown ++ " │"

/-- The carets under a line for the bytes from `start` to `stop`; one more column stands for the
end of the line. -/
def carets (line : SourceLine) (start stop : Nat) : String :=
  let atEnd : Cell := ⟨bytes (shownChars line), '\x00', 1⟩
  String.join ((cells line ++ [atEnd]).map fun cell =>
    let covered := max start cell.offset < min stop (cell.offset + cell.char.utf8Size)
    if covered then repeated '^' cell.width
    else if cell.offset < stop then blanks cell.width
    else "")

/-- A stroke as wide as the cells of a line in front of an offset. -/
def stroke (line : SourceLine) (offset : Nat) : String :=
  let before := (cells line).takeWhile fun cell => cell.offset < offset
  repeated '─' ((before.map Cell.width).foldr (· + ·) 0)

/-- The lines of a report for a place inside one line. -/
def insideLine (padding number : Nat) (line : SourceLine) (start stop : Nat) : List String :=
  [gutter padding none, gutter padding (some number) ++ " " ++ shownText line,
    gutter padding none ++ " " ++ carets line start stop]

/-- The lines of a report for a stretch from one line into the next. -/
def acrossLines (padding number : Nat) (line next : SourceLine) (start stop : Nat) :
    List String :=
  let indent := bytes ((shownChars line).takeWhile Text.isBlank)
  let opening :=
    if start ≤ indent then [gutter padding (some number) ++ " ╭ " ++ shownText line]
    else
      [gutter padding (some number) ++ "   " ++ shownText line,
        gutter padding none ++ " ╭" ++ stroke line (start + 1) ++ "^"]
  [gutter padding none ++ "  "] ++ opening ++
    [gutter padding (some (number + 1)) ++ " │ " ++ shownText next,
      gutter padding none ++ " ╰" ++ stroke next stop ++ "^"]

/-- The lines that show a place of a source. -/
def place (name source : String) (label : Label) : List String :=
  let lines := sourceLines source
  let before := linesUpTo label.start lines
  match before.getLast? with
  | none => []
  | some line =>
    let number := before.length
    let column := charsWithin (label.start - line.start) line.chars + 1
    let lastNumber := (linesUpTo label.stop lines).length
    let padding := (toString lastNumber).length
    let header := blanks padding ++ " ┌─ " ++ s!"{name}:{number}:{column}"
    match if number < lastNumber then lines[number]? else none with
    | none => header :: insideLine padding number line (label.start - line.start)
        (label.stop - line.start)
    | some next => header :: acrossLines padding number line next (label.start - line.start)
        (label.stop - next.start)

/-- A diagnostic with the places it points at in a source. -/
def snippet (diagnostic : Diagnostic) (name source : String) : String :=
  let places := diagnostic.labels.flatMap (place name source)
  String.join ((("error: " ++ diagnostic.message) :: (places ++ [""])).map fun line =>
    line ++ "\n")

end StyleBlock.Report
