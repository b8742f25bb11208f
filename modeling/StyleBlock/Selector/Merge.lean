import StyleBlock.Selector.Basic

/-!
Combining two selectors into selectors that select what both do. The keys are put on one element;
contexts of one combinator each are interleaved in every order that their combinators allow.
-/

namespace StyleBlock

namespace Selector

/-- A link of a chain: a compound and the combinator after it. -/
abbrev Link : Type := Compound × Combinator

/-- The chain of one link and a key. -/
def chain (link : Link) (key : Compound) : Selector :=
  ⟨link.1, [(link.2, key)]⟩

/-- The chain of two links and a key. -/
def chainOfTwo (outer inner : Link) (key : Compound) : Selector :=
  ⟨outer.1, [(outer.2, inner.1), (inner.2, key)]⟩

/-- The chains that hold where both links hold in front of the key. -/
def interleave (left right : Link) (key : Compound) : List Selector :=
  let both := left.1.merged right.1
  if left.2 = right.2 then
    if left.2.isContiguous then [chain (both, left.2) key]
    else [chainOfTwo left right key, chainOfTwo right left key, chain (both, left.2) key]
  else if left.2.isHierarchical != right.2.isHierarchical then
    let (outer, inner) := if left.2.isHierarchical then (left, right) else (right, left)
    [chainOfTwo outer inner key]
  else
    let (loose, tight) := if left.2.isContiguous then (right, left) else (left, right)
    [chainOfTwo loose tight key, chain (both, tight.2) key]

/-- The selectors for elements that both `other` and `current` select; `none` when both have a
context and one of them has more than one combinator. -/
def mergeKeys? (other current : Selector) : Option (List Selector) :=
  let key := other.key.merged current.key
  match other.context?, current.context? with
  | none, none => some [ofCompound key]
  | some (context, combinator), none => some [context.push combinator key]
  | none, some (context, combinator) => some [context.push combinator key]
  | some (left, leftCombinator), some (right, rightCombinator) =>
    if 0 < left.combinatorCount || 0 < right.combinatorCount then none
    else some (interleave (left.key, leftCombinator) (right.key, rightCombinator) key)

end Selector

end StyleBlock
