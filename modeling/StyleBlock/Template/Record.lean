import StyleBlock.Data.JsonReader
import StyleBlock.Template.Analysis

/-!
The written form of an analysis. Styles are places in the list of all styles found, and in a group
the place −1 stands for none of its styles.
-/

namespace StyleBlock

open Data (Json)
open Template (Element Point Span)

structure ElementRecord where
  statics : List Int
  correlations : List (List Int)
  span : Span
deriving DecidableEq, Repr

structure AnalysisRecord where
  template : Template
  /-- The identifiers of blocks by their local names, in order. -/
  blocks : List (String × String)
  stylesFound : List String
  /-- The elements by their ids, in the order of their texts. -/
  elements : List (String × ElementRecord)
deriving DecidableEq, Repr

namespace TemplateAnalysis

/-- The place of a style among all styles found. -/
def placeOf (analysis : TemplateAnalysis) (style : ObjectId) : Int :=
  match analysis.stylesFound.findIdx? fun name => name = analysis.styleName style with
  | some place => (place : Int)
  | none => -1

def ascending (places : List Int) : List Int :=
  places.mergeSort fun left right => left ≤ right

def recordOf (analysis : TemplateAnalysis) (element : Element) : ElementRecord where
  statics := ascending (element.statics.map analysis.placeOf)
  correlations := element.correlations.map fun correlation =>
    ascending (correlation.styles.map analysis.placeOf ++
      if correlation.optional then [-1] else [])
  span := element.span

/-- The written form of an analysis. -/
def record (analysis : TemplateAnalysis) : AnalysisRecord where
  template := analysis.template
  blocks := analysis.blocks.map fun (name, id) =>
    (name, ((analysis.graph.block? id).map Block.identifier).getD "")
  stylesFound := analysis.stylesFound
  elements := analysis.elements.foldl (fun records element =>
    Text.setOrdered (toString element.id) (analysis.recordOf element) records) []

end TemplateAnalysis

namespace AnalysisRecord

/-! Writing -/

def pointJson (point : Point) : Json :=
  .object [("line", .integer point.line), ("column", .integer point.column)]

def spanJson (span : Span) : Json :=
  .object (("start", pointJson span.start) ::
    match span.stop with
    | some stop => [("end", pointJson stop)]
    | none => [])

def elementJson (element : ElementRecord) : Json :=
  .object [("static", .array (element.statics.map .integer)),
    ("correlations", .array (element.correlations.map fun places =>
      .array (places.map .integer))),
    ("loc", spanJson element.span)]

/-- A record as JSON; an end that is unknown is left out. -/
def toJson (record : AnalysisRecord) : Json :=
  .object [("template", .object [("type", .string record.template.kind),
      ("identifier", .string record.template.identifier)]),
    ("blocks", .object (record.blocks.map fun (name, id) => (name, .string id))),
    ("stylesFound", .array (record.stylesFound.map .string)),
    ("elements", .object (record.elements.map fun (id, element) => (id, elementJson element)))]

/-! Reading -/

/-- The named fields of a value: those of an object, where none of them may come twice and others
do not matter, or the items of a list, which may stop early. -/
def fields? (names : List String) : Json → Option (List (Option Json))
  | .object fields =>
    let known := (fields.map Prod.fst).filter fun name => names.contains name
    if known.eraseDups = known then
      some (names.map fun name => (Json.object fields).field? name)
    else none
  | .array items =>
    if names.length < items.length then none
    else some (items.map some ++ List.replicate (names.length - items.length) none)
  | _ => none

def text? : Json → Option String
  | .string text => some text
  | _ => none

def list? (item? : Json → Option α) : Json → Option (List α)
  | .array items => items.mapM item?
  | _ => none

/-- A table in the order of its keys; the last value of a key counts. -/
def table? (value? : Json → Option α) : Json → Option (List (String × α))
  | .object fields =>
    fields.foldlM (fun table (key, value) =>
      (value? value).map fun value => Text.setOrdered key value table) []
  | _ => none

/-- An integer of 64 bits. -/
def place? : Json → Option Int
  | .integer value => if -Int.pow 2 63 ≤ value && value < Int.pow 2 63 then some value else none
  | _ => none

/-- A natural number of 32 bits. -/
def count? : Json → Option Nat
  | .integer value => if 0 ≤ value && value < Int.pow 2 32 then some value.toNat else none
  | _ => none

def point? (json : Json) : Option Point :=
  match fields? ["line", "column"] json with
  | some [some line, some column] => return ⟨← count? line, ← count? column⟩
  | _ => none

def span? (json : Json) : Option Span :=
  match fields? ["start", "end"] json with
  | some [some start, none] => return ⟨← point? start, none⟩
  | some [some start, some .null] => return ⟨← point? start, none⟩
  | some [some start, some stop] => return ⟨← point? start, some (← point? stop)⟩
  | _ => none

def element? (json : Json) : Option ElementRecord :=
  match fields? ["static", "correlations", "loc"] json with
  | some [some statics, some correlations, some span] =>
    return ⟨← list? place? statics, ← list? (list? place?) correlations, ← span? span⟩
  | _ => none

def template? (json : Json) : Option Template :=
  match fields? ["type", "identifier"] json with
  | some [some kind, some identifier] => return ⟨← text? kind, ← text? identifier⟩
  | _ => none

/-- Reads a record from JSON. -/
def ofJson? (json : Json) : Option AnalysisRecord :=
  match fields? ["template", "blocks", "stylesFound", "elements"] json with
  | some [some template, some blocks, some stylesFound, some elements] =>
    return ⟨← template? template, ← table? text? blocks, ← list? text? stylesFound,
      ← table? element? elements⟩
  | _ => none

end AnalysisRecord

end StyleBlock
