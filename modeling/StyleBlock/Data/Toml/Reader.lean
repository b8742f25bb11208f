import StyleBlock.Data.Toml.Quoted
import StyleBlock.Data.Toml.Scalar
import StyleBlock.Data.Toml.Table

/-!
Reading a TOML document into a tree of values. Every step takes at least one character, so the
length of the text limits their number.
-/

namespace StyleBlock.Data.Toml

def skipSpaces (chars : List Char) : List Char :=
  chars.dropWhile fun c => c = ' ' || c = '\t'

/-- The characters after a comment, if there is one. -/
def skipComment : List Char → List Char
  | '#' :: rest => rest.dropWhile fun c => !isControl c
  | chars => chars

/-- The characters of the next line, where nothing but a comment may come before it. -/
def endLine? (chars : List Char) : Option (List Char) :=
  match skipComment (skipSpaces chars) with
  | [] => some []
  | rest => afterNewLine? rest

/-- The characters after blanks, line ends and comments. -/
def skipLines : Nat → List Char → List Char
  | 0, chars => chars
  | limit + 1, chars =>
    let rest := skipComment (skipSpaces chars)
    match afterNewLine? rest with
    | some rest => skipLines limit rest
    | none => rest

def isBare (c : Char) : Bool := c.isAlphanum || c = '_' || c = '-'

/-- One name of a key. -/
def name? (chars : List Char) : Option (String × List Char) :=
  match line? chars with
  | some found => some found
  | none =>
    let bare := chars.takeWhile isBare
    if bare.isEmpty then none else some (String.ofList bare, chars.dropWhile isBare)

/-- One more than the lists and tables that may be nested within each other on one line, and than
the names that a key may have. -/
def depthLimit : Nat := 80

/-- Names with dots between them. -/
def names? : Nat → List Char → Option (List String × List Char)
  | 0, _ => none
  | limit + 1, chars => do
    let (name, rest) ← name? (skipSpaces chars)
    match skipSpaces rest with
    | '.' :: rest => do
      let (names, rest) ← names? limit rest
      return (name :: names, rest)
    | rest => return ([name], rest)

/-- The names of a key. -/
def key? (chars : List Char) : Option (List String × List Char) :=
  (names? (chars.length + 1) chars).filter fun (names, _) => names.length < depthLimit

mutual

/-- A value of any kind, with `depth` lists and tables around it. -/
def value? (depth : Nat) : Nat → List Char → Option (Json × List Char)
  | 0, _ => none
  | limit + 1, chars =>
    match text? chars with
    | some (text, rest) => some (.string text, rest)
    | none =>
      match chars with
      | '[' :: rest =>
        if depth + 1 < depthLimit then
          (items? (depth + 1) limit rest).map fun (items, rest) => (.array items, rest)
        else none
      | '\x7b' :: rest =>
        if depth + 1 < depthLimit then
          match skipSpaces rest with
          | '\x7d' :: rest => some (.object [], rest)
          | rest => do
            let (entries, rest) ← fields? (depth + 1) limit [] rest
            return (.object (jsonFields entries), rest)
        else none
      | '\x22' :: _ => none
      | '\x27' :: _ => none
      | _ => scanPlain chars

/-- The items of a list up to its end; a comma may follow the last one. -/
def items? (depth : Nat) : Nat → List Char → Option (List Json × List Char)
  | 0, _ => none
  | limit + 1, chars =>
    match skipLines chars.length chars with
    | ']' :: rest => some ([], rest)
    | chars => do
      let (item, rest) ← value? depth limit chars
      match skipLines rest.length rest with
      | ',' :: rest => do
        let (items, rest) ← items? depth limit rest
        return (item :: items, rest)
      | ']' :: rest => return ([item], rest)
      | _ => none

/-- The entries of a table on one line up to its end. -/
def fields? (depth : Nat) : Nat → Entries → List Char → Option (Entries × List Char)
  | 0, _, _ => none
  | limit + 1, entries, chars => do
    let (names, rest) ← key? chars
    let '=' :: rest := skipSpaces rest | none
    let (value, rest) ← value? depth limit (skipSpaces rest)
    let entries ← setKey value names entries
    match skipSpaces rest with
    | ',' :: rest => fields? depth limit entries rest
    | '\x7d' :: rest => return (entries, rest)
    | _ => none

end

/-- What was read of a document: its entries, and the table that keys go to. -/
structure Document where
  entries : Entries
  current : List String

/-- A header, without its opening bracket. -/
def header? (document : Document) (chars : List Char) : Option (Document × List Char) :=
  match chars with
  | '[' :: rest => do
    let (path, rest) ← key? rest
    let ']' :: ']' :: rest := rest | none
    return (⟨← addTable path document.entries, path⟩, rest)
  | rest => do
    let (path, rest) ← key? rest
    let ']' :: rest := rest | none
    return (⟨← openTable path document.entries, path⟩, rest)

/-- A key with its value. -/
def entry? (document : Document) (chars : List Char) : Option (Document × List Char) := do
  let (names, rest) ← key? chars
  let '=' :: rest := rest | none
  let (value, rest) ← value? 0 (rest.length + 1) (skipSpaces rest)
  return ({ document with
    entries := ← within (setKey value names) document.current document.entries }, rest)

/-- Reads the rest of a document. -/
def document? : Nat → Document → List Char → Option Document
  | 0, _, _ => none
  | limit + 1, document, chars =>
    match skipLines chars.length chars with
    | [] => some document
    | '[' :: rest => do
      let (document, rest) ← header? document rest
      document? limit document (← endLine? rest)
    | rest => do
      let (document, rest) ← entry? document rest
      document? limit document (← endLine? rest)

/-- The tree of values that a TOML document denotes; a byte order mark may stand in front. -/
def parse? (text : String) : Option Json := do
  let chars := match text.toList with
    | '\ufeff' :: rest => rest
    | chars => chars
  let document ← document? (chars.length + 1) ⟨[], []⟩ chars
  return .object (jsonFields document.entries)

end StyleBlock.Data.Toml
