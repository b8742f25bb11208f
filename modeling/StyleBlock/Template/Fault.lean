import StyleBlock.Fault
import StyleBlock.Template.Element

/-!
What can be wrong with the analysis of a template, and the wording of each fault. Styles are named
by their source.
-/

namespace StyleBlock

inductive TemplateFault where
  | notLoaded (name : String)
  | nameTaken (name : String)
  | stillOpen (element : Nat)
  | noneStarted
  | outsideElement
  | foreignBlock (block template : String)
  | rootWithClass (root owner : String)
  | twoClasses (first second block : String)
  | twoStates (first second : String)
  | stateAlone (state parent : String)
deriving DecidableEq, Repr

def TemplateFault.message : TemplateFault → String
  | notLoaded name => "Block " ++ ticked name ++ " is not loaded"
  | nameTaken name => "The name " ++ ticked name ++ " already refers to another block"
  | stillOpen element =>
    "Element " ++ toString element ++ " was not ended before a new one started"
  | noneStarted => "No element was started"
  | outsideElement => "Styles can only be added to a started element"
  | foreignBlock block template =>
    "Block " ++ ticked block ++ " has not been added to the analysis of " ++ template
  | rootWithClass root owner =>
    "Cannot put block classes on the block's root element: " ++ ticked root ++ " and " ++
      ticked owner
  | twoClasses first second block =>
    "Classes " ++ ticked first ++ " and " ++ ticked second ++ " from the same block " ++
      ticked block ++ " are not allowed on the same element at the same time"
  | twoStates first second =>
    "Cannot apply " ++ ticked first ++ " and " ++ ticked second ++
      " at the same time; they belong to one exclusive state group"
  | stateAlone state parent =>
    "Cannot use state " ++ ticked state ++ " without its parent " ++ ticked parent ++
      " also applied"

/-- A fault in a template, with the span of the element it is about. -/
structure TemplateError where
  fault : TemplateFault
  template : String
  span : Option Template.Span
deriving DecidableEq, Repr

namespace TemplateError

def message (error : TemplateError) : String := error.fault.message

/-- The message with the place where the element starts. -/
def text (error : TemplateError) : String :=
  match error.span with
  | none => error.message
  | some span =>
    error.message ++ s!" ({error.template}:{span.start.line}:{span.start.column})"

end TemplateError

end StyleBlock
