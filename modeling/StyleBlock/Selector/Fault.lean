import StyleBlock.Css.Token
import StyleBlock.Selector.Printer
import StyleBlock.Text.Position

/-!
What can be wrong with a selector list, and where.
-/

namespace StyleBlock

inductive SelectorFault where
  | unexpectedEnd
  | unexpected (token : Css.Token)
  | expectedSelector
  | expectedIdentifier
  | expectedPseudo
  | strayCombinator (combinator : Combinator)
  | afterPseudoElement
  | secondPseudoElement
  | expectedBar
  | expectedAttributeName
  | expectedOperator
  | expectedValue
  | afterAttributeValue
deriving DecidableEq, Repr

def SelectorFault.message : SelectorFault → String
  | unexpectedEnd => "Unexpected end of selector"
  | unexpected token => "Unexpected " ++ token.shown ++ " in selector"
  | expectedSelector => "Expected a selector"
  | expectedIdentifier => "Expected an identifier"
  | expectedPseudo => "Expected a pseudo-class or pseudo-element name"
  | strayCombinator combinator => "Unexpected combinator `" ++ combinator.symbol ++ "`"
  | afterPseudoElement => "A pseudo-element must be the last part of a compound selector"
  | secondPseudoElement => "A compound selector can only have one pseudo-element"
  | expectedBar => "Expected `|` after `*`"
  | expectedAttributeName => "Expected an attribute name"
  | expectedOperator => "Expected an attribute operator"
  | expectedValue => "Expected an attribute value"
  | afterAttributeValue => "Unexpected token in attribute selector"

/-- A fault and the place right after the last token read before it was noticed. -/
structure SelectorError where
  fault : SelectorFault
  place : Text.Position
deriving DecidableEq

end StyleBlock
