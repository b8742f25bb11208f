import StyleBlock.Files.Path

/-!
The dialects that style sheets are written in. Only plain sheets are read as they are; all others
are prepared first.
-/

namespace StyleBlock

inductive Dialect where
  | css
  | sass
  | scss
  | less
  | stylus
  | other
deriving DecidableEq, Repr

namespace Dialect

def name : Dialect → String
  | css => "css"
  | sass => "sass"
  | scss => "scss"
  | less => "less"
  | stylus => "styl"
  | other => "other"

/-- The dialect that an extension stands for, in any case. -/
def ofExtension (extension : String) : Dialect :=
  match Text.lower extension with
  | "css" => css
  | "sass" => sass
  | "scss" => scss
  | "less" => less
  | "styl" => stylus
  | _ => other

/-- The dialect of the file at a path. -/
def ofPath (path : String) : Dialect :=
  ((Files.Path.extension? path).map ofExtension).getD other

end Dialect

end StyleBlock
