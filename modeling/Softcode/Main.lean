/-
**The program.**

The file tree is read from the disk, the command is carried out, and what it changed is written
back.
-/

import Softcode.Command

set_option autoImplicit false

namespace Softcode

namespace Program

/-- What stands at a directory entry and below it. -/
partial def collect (place : FileTree.Place) (e : IO.FS.DirEntry) :
    IO (List (FileTree.Place × FileTree.Entry)) := do
  let here := place ++ [e.fileName.toList]
  if ← e.path.isDir then
    let below ← (← e.path.readDir).toList.mapM (collect here)
    return (here, .dir) :: below.flatten
  else
    try
      let content ← IO.FS.readBinFile e.path
      return [(here, .file content.toList)]
    catch _ => return []

/-- The file tree of the current directory, with the project files above it. -/
def snapshot : IO FileTree := do
  let dir ← IO.currentDir
  let cwd := (Path.pieces dir.toString.toList).filter fun c => !Path.isIdle c
  let below ← (← dir.readDir).toList.mapM (collect cwd)
  let above ← (Path.ancestors dir.toString.toList).filterMapM fun p => do
    let path := Path.join p manifestName
    let place := (Path.pieces path).filter fun c => !Path.isIdle c
    try
      let content ← IO.FS.readBinFile (String.ofList path)
      return some (place, FileTree.Entry.file content.toList)
    catch _ => return none
  return ⟨cwd, below.flatten ++ above⟩

/-- What a command added to the file tree, in the order in which it did. -/
def added (before after : FileTree) : List (FileTree.Place × FileTree.Entry) :=
  (after.entries.take (after.entries.length - before.entries.length)).reverse

/-- An entry written to the disk. -/
def store (e : FileTree.Place × FileTree.Entry) : IO Unit := do
  let path := String.ofList (FileTree.render e.1)
  match e.2 with
  | .dir => IO.FS.createDirAll path
  | .file content => IO.FS.writeBinFile path ⟨content.toArray⟩

end Program

end Softcode

open Softcode in
/-- Carries out the command that the arguments are. -/
def main (args : List String) : IO UInt32 := do
  let tree ← Program.snapshot
  let setting ← IO.getEnv "MFORM_MAX_SOURCE_BYTES"
  let maxBytes := maxSourceBytes (setting.map String.toList)
  let outcome := Command.runArguments (args.map String.toList) tree maxBytes
  (Program.added tree outcome.tree).forM Program.store
  (← IO.getStdout).putStr (String.ofList outcome.stdout)
  (← IO.getStderr).putStr (String.ofList outcome.stderr)
  return outcome.exit.toUInt32
