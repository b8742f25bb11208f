import StyleBlock.Css.Lexer

/-!
Strings of TOML: basic strings with escapes between double quotes, literal strings without between
single quotes, and both over many lines between three quotes.
-/

namespace StyleBlock.Data.Toml

/-- The characters that no string and no comment may hold as themselves. -/
def isControl (c : Char) : Bool :=
  (c.toNat < 0x20 && c ≠ '\t') || c.toNat = 0x7f

/-- The characters after the end of a line. -/
def afterNewLine? : List Char → Option (List Char)
  | '\n' :: rest => some rest
  | '\r' :: '\n' :: rest => some rest
  | _ => none

/-- The character that hexadecimal digits stand for. -/
def scalar? (digits : List Char) : Option Char := do
  let values ← digits.mapM Css.hexValue?
  let code := values.foldl (fun code digit => code * 16 + digit) 0
  if h : code.isValidChar then some (Char.ofNatAux code h) else none

/-- What follows a backslash. -/
def escape? : List Char → Option (Char × List Char)
  | 'b' :: rest => some ('\x08', rest)
  | 't' :: rest => some ('\t', rest)
  | 'n' :: rest => some ('\n', rest)
  | 'f' :: rest => some ('\x0c', rest)
  | 'r' :: rest => some ('\r', rest)
  | '\x22' :: rest => some ('\x22', rest)
  | '\\' :: rest => some ('\\', rest)
  | 'u' :: a :: b :: c :: d :: rest => (scalar? [a, b, c, d]).map fun char => (char, rest)
  | 'U' :: a :: b :: c :: d :: e :: f :: g :: h :: rest =>
    (scalar? [a, b, c, d, e, f, g, h]).map fun char => (char, rest)
  | _ => none

/-- The value with a character in front. -/
def consTo (c : Char) (scan : List Char × List Char) : List Char × List Char :=
  (c :: scan.1, scan.2)

/-- The inside of a basic string and the characters after its end, with a limit on the
characters. -/
def basic? : Nat → List Char → Option (List Char × List Char)
  | 0, _ => none
  | _, [] => none
  | limit + 1, c :: rest =>
    if c = '\x22' then some ([], rest)
    else if c = '\\' then do
      let (char, rest) ← escape? rest
      return consTo char (← basic? limit rest)
    else if isControl c then none
    else (basic? limit rest).map (consTo c)

/-- The inside of a literal string. -/
def literal? : List Char → Option (List Char × List Char)
  | [] => none
  | c :: rest =>
    if c = '\x27' then some ([], rest)
    else if isControl c then none
    else (literal? rest).map (consTo c)

/-- The quotes that stand before the three quotes of an end, at most two. -/
def closing? (quote : Char) : List Char → Option (List Char × List Char)
  | a :: b :: c :: rest =>
    if a = quote && b = quote && c = quote then
      match rest with
      | d :: e :: more =>
        if d = quote && e = quote then some ([quote, quote], more)
        else if d = quote then some ([quote], e :: more)
        else some ([], rest)
      | [d] => if d = quote then some ([quote], []) else some ([], [d])
      | [] => some ([], [])
    else none
  | _ => none

/-- The characters without the blanks and line ends in front. -/
def dropBlankLines : List Char → List Char
  | ' ' :: rest => dropBlankLines rest
  | '\t' :: rest => dropBlankLines rest
  | '\n' :: rest => dropBlankLines rest
  | '\r' :: '\n' :: rest => dropBlankLines rest
  | chars => chars

/-- The characters after a backslash at the end of a line: blanks and line ends are left out. -/
def afterContinuation? (chars : List Char) : Option (List Char) :=
  (afterNewLine? (chars.dropWhile fun c => c = ' ' || c = '\t')).map dropBlankLines

/-- The inside of a string over many lines; only between double quotes does a backslash
escape. -/
def lines? (quote : Char) : Nat → List Char → Option (List Char × List Char)
  | 0, _ => none
  | _, [] => none
  | limit + 1, c :: rest =>
    match closing? quote (c :: rest) with
    | some found => some found
    | none =>
      if c = '\\' && quote = '\x22' then
        match afterContinuation? rest with
        | some rest => lines? quote limit rest
        | none => do
          let (char, rest) ← escape? rest
          return consTo char (← lines? quote limit rest)
      else
        match afterNewLine? (c :: rest) with
        | some rest => (lines? quote limit rest).map (consTo '\n')
        | none => if isControl c then none else (lines? quote limit rest).map (consTo c)

/-- The characters without a line end in front. -/
def dropNewLine (chars : List Char) : List Char :=
  (afterNewLine? chars).getD chars

/-- A string of one line. -/
def line? : List Char → Option (String × List Char)
  | '\x22' :: rest =>
    (basic? (rest.length + 1) rest).map fun (chars, rest) => (String.ofList chars, rest)
  | '\x27' :: rest => (literal? rest).map fun (chars, rest) => (String.ofList chars, rest)
  | _ => none

/-- A string of any kind. -/
def text? : List Char → Option (String × List Char)
  | '\x22' :: '\x22' :: '\x22' :: rest =>
    (lines? '\x22' (rest.length + 1) (dropNewLine rest)).map fun (chars, rest) =>
      (String.ofList chars, rest)
  | '\x27' :: '\x27' :: '\x27' :: rest =>
    (lines? '\x27' (rest.length + 1) (dropNewLine rest)).map fun (chars, rest) =>
      (String.ofList chars, rest)
  | chars => line? chars

end StyleBlock.Data.Toml
