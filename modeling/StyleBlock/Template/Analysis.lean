import StyleBlock.Template.Validity

/-!
The record of the block objects that a template uses, element by element. An element is opened,
given its styles, and closed, which checks it.
-/

namespace StyleBlock

open Template (Correlation Element Span)

structure TemplateAnalysis where
  graph : Graph
  template : Template
  /-- The blocks of the template by their local names, in order. -/
  blocks : List (String × BlockId)
  elements : List Element
  /-- The element that is open. -/
  current : Option Element

namespace TemplateAnalysis

def start (graph : Graph) (template : Template) : TemplateAnalysis :=
  ⟨graph, template, [], [], none⟩

def error (analysis : TemplateAnalysis) (fault : TemplateFault) (span : Option Span) :
    TemplateError :=
  ⟨fault, analysis.template.identifier, span⟩

/-- The block of a local name. -/
def block? (analysis : TemplateAnalysis) (name : String) : Option BlockId :=
  (analysis.blocks.find? fun (localName, _) => localName == name).map Prod.snd

/-- The first local name of a block. -/
def blockName? (analysis : TemplateAnalysis) (id : BlockId) : Option String :=
  (analysis.blocks.find? fun (_, block) => block = id).map Prod.fst

/-- Gives a complete block a local name. -/
def addBlock (analysis : TemplateAnalysis) (name : String) (id : BlockId) :
    TemplateAnalysis × Except TemplateError Unit :=
  if !analysis.graph.isComplete id then
    (analysis, .error (analysis.error (.notLoaded name) none))
  else if (analysis.block? name).any fun block => block ≠ id then
    (analysis, .error (analysis.error (.nameTaken name) none))
  else ({ analysis with blocks := Text.setOrdered name id analysis.blocks }, .ok ())

/-- Opens an element. -/
def startElement (analysis : TemplateAnalysis) (span : Span) :
    TemplateAnalysis × Except TemplateError Nat :=
  match analysis.current with
  | some element => (analysis, .error (analysis.error (.stillOpen element.id) (some span)))
  | none =>
    let id := analysis.elements.length
    ({ analysis with current := some ⟨id, span, [], []⟩ }, .ok id)

/-- A style of a block that was added. -/
def checkStyle (analysis : TemplateAnalysis) (style : BlockObject) :
    Except TemplateError ObjectId :=
  if (analysis.blockName? style.id.block).isSome then .ok style.id
  else
    .error (analysis.error (.foreignBlock style.block.name analysis.template.identifier)
      (analysis.current.map Element.span))

/-- Changes the open element. -/
def changeElement (analysis : TemplateAnalysis) (change : Element → Element) :
    TemplateAnalysis × Except TemplateError Unit :=
  match analysis.current with
  | none => (analysis, .error (analysis.error .outsideElement none))
  | some element => ({ analysis with current := some (change element) }, .ok ())

/-- Adds a style that the open element always has. -/
def addStatic (analysis : TemplateAnalysis) (style : BlockObject) :
    TemplateAnalysis × Except TemplateError Unit :=
  match analysis.checkStyle style with
  | .error error => (analysis, .error error)
  | .ok id => analysis.changeElement fun element => element.addStatic id

/-- Adds styles of which the open element has at most one at a time, or exactly one. -/
def addExclusive (analysis : TemplateAnalysis) (alwaysOne : Bool) (styles : List BlockObject) :
    TemplateAnalysis × Except TemplateError Unit :=
  match styles.mapM analysis.checkStyle with
  | .error error => (analysis, .error error)
  | .ok ids => analysis.changeElement fun element => element.addCorrelation ⟨ids, !alwaysOne⟩

/-- Adds a style that the open element has sometimes. -/
def addDynamic (analysis : TemplateAnalysis) (style : BlockObject) :
    TemplateAnalysis × Except TemplateError Unit :=
  analysis.addExclusive false [style]

/-- Closes the open element and records it, unless its styles may not go together. -/
def endElement (analysis : TemplateAnalysis) : TemplateAnalysis × Except TemplateError Unit :=
  match analysis.current with
  | none => (analysis, .error (analysis.error .noneStarted none))
  | some element =>
    let closed := { analysis with current := none }
    match element.fault? analysis.graph with
    | some fault => (closed, .error (analysis.error fault (some element.span)))
    | none => ({ closed with elements := analysis.elements ++ [element] }, .ok ())

/-- The local name of a style: that of its block, and its source. -/
def styleName (analysis : TemplateAnalysis) (style : ObjectId) : String :=
  let ownName := ((analysis.graph.block? style.block).map Block.name).getD ""
  (analysis.blockName? style.block).getD ownName ++ Template.sourceOf analysis.graph style

/-- The local names of all styles of recorded elements, in order. -/
def stylesFound (analysis : TemplateAnalysis) : List String :=
  Text.orderedTexts ((analysis.elements.flatMap Element.allStyles).map analysis.styleName)

end TemplateAnalysis

end StyleBlock
