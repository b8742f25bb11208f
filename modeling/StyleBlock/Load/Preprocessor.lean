import StyleBlock.Queue.Basic

/-!
Preprocessors turn a file of some dialect into a plain sheet, or a plain sheet into another one.
-/

namespace StyleBlock

/-- A file after some preprocessing. -/
structure Processed where
  content : String
  sourceMap : Option String
  /-- More files that the content was made from. -/
  dependencies : List String
deriving DecidableEq, Repr

namespace Processed

/-- A file as it was before any preprocessing. -/
def unchanged (content : String) : Processed := ⟨content, none, []⟩

/-- What two passes make together: the later content, the latest source map, all dependencies. -/
def chain (before after : Processed) : Processed :=
  ⟨after.content, after.sourceMap.or before.sourceMap, before.dependencies ++ after.dependencies⟩

end Processed

/-- The job that a preprocessor does for a path, a content and the source map of earlier passes. -/
abbrev Preprocessor : Type := String → String → Option String → Job Processed

/-- A preprocessor in words: texts to replace, and what to answer besides the content. -/
structure Script where
  /-- Replacements, each for all occurrences of its first text, one after the other. -/
  replacements : List (String × String)
  sourceMap : Option String
  dependencies : List String
  /-- The message to fail with, if any. -/
  failure : Option String
  polls : Nat
deriving DecidableEq, Repr

namespace Script

/-- Replaces the pattern wherever it begins, with `skip` characters of a match still to pass. -/
def replaceFrom (pattern replacement : List Char) : Nat → List Char → List Char
  | _, [] => []
  | skip + 1, _ :: rest => replaceFrom pattern replacement skip rest
  | 0, c :: rest =>
    if pattern.isPrefixOf (c :: rest) then
      replacement ++ replaceFrom pattern replacement (pattern.length - 1) rest
    else c :: replaceFrom pattern replacement 0 rest

/-- The text with all occurrences of a pattern replaced. An empty pattern occurs in front of every
character and at the end. -/
def replaceAll (pattern replacement : String) (text : String) : String :=
  if pattern = "" then
    String.ofList (text.toList.flatMap (fun c => replacement.toList ++ [c]) ++ replacement.toList)
  else String.ofList (replaceFrom pattern.toList replacement.toList 0 text.toList)

/-- The preprocessor that follows a script. -/
def preprocessor (script : Script) : Preprocessor := fun _ content _ =>
  ⟨script.polls,
    match script.failure with
    | some message => .error (.misuse (.worded message) none)
    | none =>
      .ok ⟨script.replacements.foldl (fun text (pattern, replacement) =>
        replaceAll pattern replacement text) content, script.sourceMap, script.dependencies⟩⟩

end Script

end StyleBlock
