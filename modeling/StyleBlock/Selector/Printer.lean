import StyleBlock.Css.Escape
import StyleBlock.Selector.Basic
import StyleBlock.Text.Letter

/-!
Selectors as text. Names are escaped, and a value is quoted unless it looks like an identifier.
-/

namespace StyleBlock

/-- The symbol of a combinator. -/
def Combinator.symbol : Combinator → String
  | descendant => ""
  | child => ">"
  | nextSibling => "+"
  | subsequentSibling => "~"

/-- A combinator between two compounds. -/
def Combinator.write : Combinator → List Char
  | descendant => [' ']
  | child => [' ', '>', ' ']
  | nextSibling => [' ', '+', ' ']
  | subsequentSibling => [' ', '~', ' ']

def AttributeOperator.write : AttributeOperator → List Char
  | equals => ['=']
  | includes => ['~', '=']
  | dashMatch => ['|', '=']
  | startsWith => ['^', '=']
  | endsWith => ['$', '=']
  | contains => ['*', '=']

/-- Whether a value may stand without quotes: letters, numbers, hyphens and underscores, with
neither a number in front nor a hyphen alone. -/
def isPlainValue : List Char → Bool
  | [] => false
  | ['-'] => false
  | '-' :: c :: rest => starts c && rest.all continues
  | c :: rest => starts c && rest.all continues
where
  starts (c : Char) : Bool := Text.isLetter c || c = '_' || c = '-'
  continues (c : Char) : Bool := Text.isLetterOrNumber c || c = '-' || c = '_'

namespace AttributeSelector

/-- The namespace in front of the name, with its bar. -/
def writeScope : Option String → List Char
  | none => []
  | some scope => (if scope = "*" then ['*'] else Css.writeIdent scope.toList) ++ ['|']

def writeValue (value : List Char) : List Char :=
  if isPlainValue value then Css.writeIdent value else Css.writeString value

def writeTest : Option AttributeTest → List Char
  | none => []
  | some test =>
    test.operator.write ++ writeValue test.value.toList ++
      match test.flag with
      | none => []
      | some flag => ' ' :: flag.toList

def write (attr : AttributeSelector) : List Char :=
  ['['] ++ writeScope attr.scope ++ Css.writeIdent attr.name.toList ++ writeTest attr.test ++
    [']']

end AttributeSelector

def SimpleSelector.write : SimpleSelector → List Char
  | type name => Css.writeIdent name.toList
  | universal => ['*']
  | className name => '.' :: Css.writeIdent name.toList
  | id name => '#' :: Css.writeIdent name.toList
  | attr selector => selector.write
  | pseudoClass name argument =>
    ':' :: Css.writeIdent name.toList ++
      match argument with
      | none => []
      | some argument => '(' :: (argument.toList ++ [')'])

def PseudoElement.write (pseudo : PseudoElement) : List Char :=
  (if pseudo.legacy then [':'] else [':', ':']) ++ Css.writeIdent pseudo.name.toList

def Compound.write (compound : Compound) : List Char :=
  compound.nodes.flatMap SimpleSelector.write ++
    match compound.pseudoElement with
    | none => []
    | some pseudo => pseudo.write

def Selector.write (selector : Selector) : List Char :=
  selector.head.write ++
    selector.tail.flatMap fun (combinator, compound) => combinator.write ++ compound.write

/-- Selectors with a comma and a space between them. -/
def writeSelectors : List Selector → List Char
  | [] => []
  | [selector] => selector.write
  | selector :: rest => selector.write ++ [',', ' '] ++ writeSelectors rest

def SimpleSelector.text (node : SimpleSelector) : String := String.ofList node.write

def Compound.text (compound : Compound) : String := String.ofList compound.write

def Selector.text (selector : Selector) : String := String.ofList selector.write

/-- A selector list as it stands in front of a rule. -/
def selectorList (selectors : List Selector) : String :=
  String.ofList (writeSelectors selectors)

end StyleBlock
