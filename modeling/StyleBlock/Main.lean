import StyleBlock.Command.Run

/-!
The command line. The files below the working directory are read first; files that the run wrote
are written back.
-/

namespace StyleBlock

/-- Every file among the entries of a directory and below them, with its place. -/
partial def filesAmong (directory : List String) (entries : Array IO.FS.DirEntry) :
    IO (List (List String × Option String)) := do
  let mut files := []
  for entry in entries do
    let place := directory ++ [entry.fileName]
    if ← entry.path.isDir then
      files := files ++ (← filesAmong place (← entry.path.readDir))
    else
      let bytes ← IO.FS.readBinFile entry.path
      files := files ++ [(place, String.fromUTF8? bytes)]
  return files

end StyleBlock

/-- Runs the command line on the files below the working directory. -/
def main (arguments : List String) : IO UInt32 := do
  let directory ← IO.currentDir
  let workDir := (StyleBlock.Files.Path.components directory.toString).drop 1
  let files ← StyleBlock.filesAmong workDir (← directory.readDir)
  let outcome := StyleBlock.Command.run ⟨workDir, files⟩ arguments
  IO.print outcome.stdout
  IO.eprint outcome.stderr
  for (place, text) in outcome.tree.files do
    unless files.contains (place, text) do
      IO.FS.writeFile (StyleBlock.Files.Tree.pathOf place) (text.getD "")
  return outcome.code.toUInt32
