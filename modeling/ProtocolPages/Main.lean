import ProtocolPages.Command.Run

/-!
# The command

The command itself is a function of its arguments and of a disk. Here it is given the part of the
real disk that it can ask for, and what it changed is written back.
-/

namespace ProtocolPages.Main

/-- The error code of reading a folder as a file. -/
def isFolderCode : UInt32 := 21

/-- Whether an error says that a folder was read as a file. -/
def isFolderError : IO.Error → Bool
  | .inappropriateType _ code _ => code == isFolderCode
  | _ => false

/-- Copy what stands at a path to the disk. -/
def copyIn (disk : Disk) (path : Path) : IO Disk := do
  try
    return disk.place path (← IO.FS.readBinFile path.toText)
  catch e =>
    return if isFolderError e then (disk.ensureFolders path).1 else disk

/-- The disk that a run with the given options can ask for. -/
def snapshot (options : Command.Options) : IO Disk := do
  let working := Path.ofString (← IO.currentDir).toString
  let paths := options.config.toList ++ options.trees ++ options.output.toList
  (paths.map Path.ofString).foldlM copyIn (Disk.blank working.parts)

/-- Write a change of the disk back. -/
def copyOut (location : Location) (entry : DiskEntry) : IO Unit :=
  let path := (Path.mk .slash location).toText
  match entry with
  | .folder => IO.FS.createDirAll path
  | .file bytes => IO.FS.writeBinFile path bytes

/-- Run the command on the real disk. -/
def run (args : List String) : IO UInt32 := do
  let before ← match Command.parse args with
    | .run options => snapshot options
    | _ => pure (Disk.blank [])
  let outcome := Command.run args before
  for (location, entry) in Disk.changesSince before outcome.disk do
    copyOut location entry
  IO.print outcome.stdout
  IO.eprint outcome.stderr
  match outcome.exit with
  | .ok code => return code.toUInt32
  | .error _ =>
    IO.eprintln "unexpected value in the input"
    return 1

end ProtocolPages.Main

/-- Generate documentation for the trees named by the arguments. -/
def main (args : List String) : IO UInt32 :=
  ProtocolPages.Main.run args
