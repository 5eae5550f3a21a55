/-
The command on the files of the disk. The files and folders that the arguments
name are read into a tree of files; all else is done on that tree.
-/
import Reaching.CommandLine

namespace Reaching

/-- Adds what a path of the disk leads to, and everything below it. -/
partial def Files.addFromDisk (fs : Files) (path : Path) : IO Files := do
  let onDisk := System.mkFilePath [path.text]
  if ← onDisk.isDir then
    let mut fs := fs.makeFolder path.target
    for entry in ← onDisk.readDir do
      fs ← fs.addFromDisk (path.below [entry.fileName])
    return fs
  else if ← onDisk.pathExists then
    return fs.write path.target (← IO.FS.readBinFile onDisk).toList
  else return fs

/-- Adds the folders that a path leads through, and what it leads to. -/
def Files.addPath (fs : Files) (path : Path) : IO Files := do
  let mut fs := fs
  for count in List.range path.names.length do
    let folder := { path with names := path.names.take count }
    if ← (System.mkFilePath [folder.text]).isDir then fs := fs.makeFolder folder.target
  fs.addFromDisk path

/-- The files of the disk that arguments name. -/
def Files.fromDisk (arguments : List String) : IO Files :=
  match CommandLine.Request.ofArguments arguments with
  | .analyze o => ([o.path] ++ o.config.toList).foldlM (·.addPath ·) Files.empty
  | _ => return Files.empty

end Reaching

open Reaching in
/-- Runs the command, and prints what it prints. -/
def main (arguments : List String) : IO UInt32 := do
  let files ← Files.fromDisk arguments
  match CommandLine.run files arguments with
  | .ok printed =>
    IO.print printed.output
    IO.eprint printed.errors.told
    return printed.status.toUInt32
  | .error failure =>
    IO.eprintln failure.message.told
    return 1
