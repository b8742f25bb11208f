import StyleBlock.Selector.Fault
import StyleBlock.Sheet.Parser

/-!
Everything that can be wrong with a block, by topic, and the wording of each.
-/

namespace StyleBlock

/-- A text between backquotes. -/
def ticked (text : String) : String := "`" ++ text ++ "`"

/-- A text between double quotes, as it is. -/
def doubleQuoted (text : String) : String := "\"" ++ text ++ "\""

/-- What a selector of a block must not be. Objects are named by their source. -/
inductive LegalityFault where
  | pseudoElementInContext (selector : Selector)
  | idNode (id : String) (selector : Selector)
  | universalNode (selector : Selector)
  | typeNode (name : String) (selector : Selector)
  | classOnRoot (selector : Selector)
  | twoClasses (first second : String) (selector : Selector)
  | malformedState (selector : Selector)
  | twoStates (first second : String) (selector : Selector)
  | noObject (compound : Compound) (selector : Selector)
  | notOneObject (compound : Compound) (selector : Selector)
  | unknownClass (name block : String)
  | unknownState (state : StateName) (block : String)
  | unknownObject (compound : Compound) (block : String)
  | classAboveRoot (above below : String) (selector : Selector)
  | mixedSiblings (first second : String) (selector : Selector)
  | rootAfterClass (root other : String) (selector : Selector)
  | twoRootObjects (first second : String) (selector : Selector)
deriving DecidableEq, Repr

def LegalityFault.message : LegalityFault → String
  | pseudoElementInContext selector =>
    "Pseudo-elements are only allowed on the key selector: " ++ ticked selector.text
  | idNode id selector =>
    "Id selectors are not allowed in blocks: " ++ ticked ("#" ++ id) ++ " in " ++
      ticked selector.text
  | universalNode selector =>
    "Universal selectors are not allowed in blocks: " ++ ticked selector.text
  | typeNode name selector =>
    "Tag name selectors are not allowed in blocks: " ++ ticked name ++ " in " ++
      ticked selector.text
  | classOnRoot selector =>
    "Cannot put block classes on the block's root element: " ++ ticked selector.text
  | twoClasses first second selector =>
    "Cannot combine classes " ++ ticked ("." ++ first) ++ " and " ++ ticked ("." ++ second) ++
      " on the same element in " ++ ticked selector.text
  | malformedState selector =>
    "States must be written as `[state|name]` or `[state|group=name]`: " ++ ticked selector.text
  | twoStates first second selector =>
    "Cannot combine states " ++ ticked first ++ " and " ++ ticked second ++
      " on the same element in " ++ ticked selector.text
  | noObject compound selector =>
    "Missing block object in selector component " ++ ticked compound.text ++ " of " ++
      ticked selector.text
  | notOneObject compound selector =>
    ticked compound.text ++ " must name one block object in " ++ ticked selector.text
  | unknownClass name block =>
    "No class named " ++ doubleQuoted name ++ " found in block " ++ doubleQuoted block
  | unknownState state block =>
    "No state " ++ ticked (SimpleSelector.ofState state).text ++ " found in block " ++
      doubleQuoted block
  | unknownObject compound block =>
    "Cannot find " ++ ticked compound.text ++ " in block " ++ doubleQuoted block
  | classAboveRoot above below selector =>
    "Illegal use of a class-level object (" ++ above ++
      ") as an ancestor of a root-level object (" ++ below ++ ") in " ++ ticked selector.text
  | mixedSiblings first second selector =>
    "Illegal use of a class-level object and a root-level object as siblings: " ++ first ++
      " and " ++ second ++ " in " ++ ticked selector.text
  | rootAfterClass root other selector =>
    "Illegal use of a root-level object (" ++ root ++ ") after a class-level object (" ++
      other ++ ") in " ++ ticked selector.text
  | twoRootObjects first second selector =>
    "Distinct root-level objects " ++ first ++ " and " ++ second ++ " cannot be combined in " ++
      ticked selector.text

/-- How a block leans on another one. -/
inductive Reliance where
  | extends
  | implements
deriving DecidableEq, Repr

def Reliance.verb : Reliance → String
  | .extends => "extend"
  | .implements => "implement"

/-- What can be wrong with the statements that configure a block. -/
inductive HeaderFault where
  | outsideRoot (property selector : String)
  | malformedReference (params : String)
  | twoReferences (name : String)
  | extendedTwice
  | noReference (name : String)
  | unfinished (reliance : Reliance) (name : String)
  | illegalName (name : String)
  | renamed (name : String)
  | missingObjects (sources : List String) (file : String)
deriving DecidableEq, Repr

def HeaderFault.message : HeaderFault → String
  | outsideRoot property selector =>
    ticked property ++ " can only be declared in a `.root` rule, not in " ++ ticked selector
  | malformedReference params =>
    "Malformed block reference: " ++ ticked ("@block-reference " ++ params)
  | twoReferences name => "Cannot have two block references named " ++ ticked name
  | extendedTwice => "A block can only be extended once"
  | noReference name => "No block named " ++ doubleQuoted name ++ " found"
  | unfinished reliance name =>
    "Cannot " ++ reliance.verb ++ " block " ++ doubleQuoted name ++
      " because it references this block"
  | illegalName name => "Illegal block name. '" ++ name ++ "' is not a legal CSS identifier"
  | renamed name => "Cannot set the name of block " ++ ticked name ++ " more than once"
  | missingObjects sources file =>
    "Missing implementations for " ++ ", ".intercalate sources ++ " from " ++ file

/-- What can keep a block from being compiled. -/
inductive CompileFault where
  | unloaded (slot : Nat)
  | malformedDebug (params : String)
  | unknownChannel (name : String)
  | unknownDebugBlock (name : String)
  | cannotMerge (other current : Selector)
  | unknownReference (reference property : String)
  | noConflict (property reference : String)
  | noConcreteValue (property : String)
  | mixedValues (property : String)
deriving DecidableEq, Repr

def CompileFault.message : CompileFault → String
  | unloaded slot => s!"Block BlockId({slot}) has not finished loading"
  | malformedDebug params =>
    "Malformed block debug: " ++ ticked ("@block-debug " ++ params) ++
      "; expected `@block-debug <name> to comment|stderr|stdout`"
  | unknownChannel name => "Unknown block debug channel " ++ ticked name
  | unknownDebugBlock name => "No block named " ++ doubleQuoted name ++ " to debug"
  | cannotMerge other current =>
    "Cannot merge selectors with more than one combinator: " ++ ticked other.text ++ " and " ++
      ticked current.text
  | unknownReference reference property =>
    "Cannot find " ++ ticked reference ++ " to resolve " ++ ticked property ++ " against"
  | noConflict property reference =>
    "Cannot resolve conflict for " ++ ticked property ++ " with " ++ ticked reference ++
      ": no conflicting values found"
  | noConcreteValue property =>
    "Cannot resolve " ++ ticked property ++ " without a concrete value in the same rule"
  | mixedValues property =>
    "Cannot mix resolutions with values of " ++ ticked property ++
      "; resolve before or after all of them"

/-- What can go wrong while files are read and prepared. -/
inductive LoadFault where
  | noSuchFile (name : String)
  | unreadable (path reason : String)
  | noPreprocessor (dialect path : String)
  | cancelled
deriving DecidableEq, Repr

def LoadFault.message : LoadFault → String
  | noSuchFile name => "no such file: " ++ name
  | unreadable path reason => "cannot read '" ++ path ++ "': " ++ reason
  | noPreprocessor dialect path =>
    "No preprocessor provided for " ++ dialect ++ " files: " ++ path
  | cancelled => "Preprocessing was cancelled because another block failed to compile"

inductive Fault where
  | sheet (fault : SheetFault)
  /-- A fault in the selector list of a rule. -/
  | selector (fault : SelectorFault) (list : String)
  | legality (fault : LegalityFault)
  | header (fault : HeaderFault)
  | compile (fault : CompileFault)
  | load (fault : LoadFault)
  | unknownMode (name : String)
  /-- A fault that only its wording is known of, such as one a preprocessor reports. -/
  | worded (message : String)
deriving DecidableEq, Repr

def Fault.message : Fault → String
  | sheet fault => fault.message
  | selector fault list => fault.message ++ " in " ++ ticked list
  | legality fault => fault.message
  | header fault => fault.message
  | compile fault => fault.message
  | load fault => fault.message
  | unknownMode name => "Unknown output mode: " ++ name
  | worded message => message

end StyleBlock
