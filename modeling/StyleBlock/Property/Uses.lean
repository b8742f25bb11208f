import StyleBlock.Property.Shorthand

/-!
The properties that the rules of one block object declare, each under the pseudo-element it is
declared for.
-/

namespace StyleBlock

/-- A property and the pseudo-element it is declared for, if any. -/
structure PropertyUse where
  pseudo : Option String
  property : String
deriving DecidableEq, Repr

/-- Uses without a pseudo-element come first; those of one pseudo-element stay together. -/
def PropertyUse.less (left right : PropertyUse) : Bool :=
  Text.lessText? left.pseudo right.pseudo ||
    (left.pseudo = right.pseudo && Text.lessText left.property right.property)

/-- A set of property uses, in order. -/
structure PropertyUses where
  uses : List PropertyUse
deriving DecidableEq, Repr

namespace PropertyUses

def empty : PropertyUses := ⟨[]⟩

def isEmpty (container : PropertyUses) : Bool := container.uses.isEmpty

/-- Adds a property under a pseudo-element. -/
def add (container : PropertyUses) (property : String) (pseudo : Option String) : PropertyUses :=
  ⟨Text.insertOrdered PropertyUse.less ⟨pseudo, property⟩ container.uses⟩

/-- The properties declared under a pseudo-element. -/
def under (container : PropertyUses) (pseudo : Option String) : List String :=
  (container.uses.filter fun use => use.pseudo = pseudo).map PropertyUse.property

def contains (container : PropertyUses) (property : String) (pseudo : Option String) : Bool :=
  container.uses.contains ⟨pseudo, property⟩

/-- The pseudo-elements that have properties, in order. -/
def pseudos (container : PropertyUses) : List (Option String) :=
  (container.uses.map PropertyUse.pseudo).eraseDups

/-- The properties that conflict with one of another container under the same pseudo-element. -/
def conflicts (mine theirs : PropertyUses) (pseudo : Option String) : List String :=
  (mine.under pseudo).filter fun property => (theirs.under pseudo).any (propertiesConflict property)

end PropertyUses

end StyleBlock
