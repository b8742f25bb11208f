import Mathlib
import StyleBlock.Selector.Basic

/-!
Documents as ordered trees, and which of their elements a selector selects. An element is known by
its address. What a compound asks of one element is left open here; combinators only look at how
the addresses of two elements lie to each other.
-/

namespace StyleBlock

/-- An element with its children in order. The label is what is known about the element itself. -/
inductive Document (Label : Type) where
  | element (label : Label) (children : List (Document Label))

/-- The way to an element, as the numbers of children, the innermost first. -/
abbrev Address : Type := List Nat

namespace Document

variable {Label Other : Type}

def label : Document Label → Label
  | element label _ => label

def children : Document Label → List (Document Label)
  | element _ children => children

/-- The element at an address, with everything below it. -/
def at? (document : Document Label) : Address → Option (Document Label)
  | [] => some document
  | index :: parent => (document.at? parent).bind fun above => above.children[index]?

def label? (document : Document Label) (address : Address) : Option Label :=
  (document.at? address).map label

mutual

/-- The document with every label changed. -/
def map (change : Label → Other) : Document Label → Document Other
  | element label children => element (change label) (mapAll change children)

def mapAll (change : Label → Other) : List (Document Label) → List (Document Other)
  | [] => []
  | first :: rest => first.map change :: mapAll change rest

end

theorem mapAll_eq (change : Label → Other) (documents : List (Document Label)) :
    mapAll change documents = documents.map (map change) := by
  induction documents with
  | nil => rfl
  | cons first rest ih => simp [mapAll, ih]

theorem children_map (change : Label → Other) (document : Document Label) :
    (document.map change).children = document.children.map (map change) := by
  cases document
  simp [map, children, mapAll_eq]

theorem at?_map (change : Label → Other) (document : Document Label) (address : Address) :
    (document.map change).at? address = (document.at? address).map (map change) := by
  induction address with
  | nil => rfl
  | cons index parent ih =>
    simp only [at?, ih]
    cases document.at? parent with
    | none => rfl
    | some above => simp [children_map]

theorem label?_map (change : Label → Other) (document : Document Label) (address : Address) :
    (document.map change).label? address = (document.label? address).map change := by
  unfold label?
  rw [at?_map]
  cases document.at? address with
  | none => rfl
  | some element => cases element; rfl

end Document

/-- How an element and the one it is joined to lie to each other. -/
def Combinator.Relates (combinator : Combinator) (left right : Address) : Prop :=
  match combinator with
  | .descendant => ∃ way, way ≠ [] ∧ right = way ++ left
  | .child => ∃ index, right = index :: left
  | .nextSibling => ∃ index parent, left = index :: parent ∧ right = (index + 1) :: parent
  | .subsequentSibling =>
    ∃ first later parent, first < later ∧ left = first :: parent ∧ right = later :: parent

namespace Selector

/-- Elements that hold compounds one after the other, from one element to another. -/
def Joins (holds : Compound → Address → Prop) (first : Address) :
    List (Combinator × Compound) → Address → Prop
  | [], last => first = last
  | (combinator, compound) :: rest, last =>
    ∃ next, combinator.Relates first next ∧ holds compound next ∧ Joins holds next rest last

/-- Whether a selector selects an element, when it is known which elements hold a compound. -/
def Selects (holds : Compound → Address → Prop) (selector : Selector) (element : Address) : Prop :=
  ∃ first, holds selector.head first ∧ Joins holds first selector.tail element

variable {holds : Compound → Address → Prop}

theorem joins_append {first last : Address} {links more : List (Combinator × Compound)} :
    Joins holds first (links ++ more) last ↔
      ∃ middle, Joins holds first links middle ∧ Joins holds middle more last := by
  induction links generalizing first with
  | nil => simp [Joins]
  | cons link rest ih =>
    obtain ⟨combinator, compound⟩ := link
    simp only [List.cons_append, Joins, ih]
    constructor
    · rintro ⟨next, related, held, middle, before, after⟩
      exact ⟨middle, ⟨next, related, held, before⟩, after⟩
    · rintro ⟨middle, ⟨next, related, held, before⟩, after⟩
      exact ⟨next, related, held, middle, before, after⟩

theorem joins_single {first last : Address} {combinator : Combinator} {compound : Compound} :
    Joins holds first [(combinator, compound)] last ↔
      combinator.Relates first last ∧ holds compound last := by
  simp only [Joins]
  constructor
  · rintro ⟨next, related, held, rfl⟩
    exact ⟨related, held⟩
  · rintro ⟨related, held⟩
    exact ⟨last, related, held, rfl⟩

theorem selects_ofCompound {compound : Compound} {element : Address} :
    (ofCompound compound).Selects holds element ↔ holds compound element := by
  simp [Selects, ofCompound, Joins]

/-- One more compound on the right is about a last element, joined to one that was selected. -/
theorem selects_push {selector : Selector} {combinator : Combinator} {compound : Compound}
    {element : Address} :
    (selector.push combinator compound).Selects holds element ↔
      ∃ before, selector.Selects holds before ∧ combinator.Relates before element ∧
        holds compound element := by
  simp only [Selects, push, joins_append, joins_single]
  constructor
  · rintro ⟨first, held, middle, joined, last⟩
    exact ⟨middle, ⟨first, held, joined⟩, last⟩
  · rintro ⟨middle, ⟨first, held, joined⟩, last⟩
    exact ⟨first, held, middle, joined, last⟩

/-- Compounds that mean the same lead to chains that select the same. -/
theorem selects_mapCompounds {other : Compound → Address → Prop} {change : Compound → Compound}
    {selector : Selector} {element : Address}
    (same : ∀ pair ∈ selector.compounds, ∀ address,
      holds pair.2 address ↔ other (change pair.2) address) :
    selector.Selects holds element ↔ (selector.mapCompounds change).Selects other element := by
  obtain ⟨head, tail⟩ := selector
  have joins : ∀ first, Joins holds first tail element ↔ Joins other first
      (Selector.mapCompounds ⟨head, tail⟩ change).tail element := by
    have sameTail : ∀ link ∈ tail, ∀ address,
        holds link.2 address ↔ other (change link.2) address := by
      intro link present
      exact same (some link.1, link.2) (by simpa [compounds] using present)
    clear same
    induction tail with
    | nil => intro first; exact Iff.rfl
    | cons link rest ih =>
      intro first
      obtain ⟨combinator, compound⟩ := link
      have here := sameTail (combinator, compound) (by simp)
      have later := ih fun link present => sameTail link (by simp [present])
      simp only [mapCompounds, List.map_cons, Joins, here, later]
  have head := same (none, head) (by simp [compounds])
  simp only [Selects, head, joins]
  rfl

end Selector

/-- What an element of a styled document answers: the classes it has, and which of the other
simple selectors hold for it. -/
structure Traits where
  classes : Set String
  satisfies : SimpleSelector → Prop

namespace Traits

def Meets (traits : Traits) : SimpleSelector → Prop
  | .className name => name ∈ traits.classes
  | node => traits.satisfies node

/-- An element holds a compound when it meets all its nodes. -/
def Fits (traits : Traits) (compound : Compound) : Prop :=
  ∀ node ∈ compound.nodes, traits.Meets node

end Traits

/-- Whether the element at an address holds a compound. -/
def Document.Fits (document : Document Traits) (compound : Compound) (address : Address) : Prop :=
  ∃ traits, document.label? address = some traits ∧ traits.Fits compound

/-- Whether a selector of an output sheet selects an element. -/
def Selector.SelectsIn (selector : Selector) (document : Document Traits)
    (element : Address) : Prop :=
  selector.Selects document.Fits element

end StyleBlock
