import ProtocolPages.Failure
import ProtocolPages.Ordered
import ProtocolPages.Text.Encoding

/-!
# Disks

A disk is a tree of folders and files, with one folder as the working folder. It is stored as the
list of all locations that hold something; the root folder is always there. A path is walked name by
name, and each name has to be found in a folder. Names are at most 255 bytes long and paths at most
4095.
-/

namespace ProtocolPages

/-- What a location holds. -/
inductive DiskEntry where
  /-- A folder. -/
  | folder
  /-- A file with its bytes. -/
  | file (bytes : ByteArray)

/-- Files are compared by their bytes. -/
instance : DecidableEq DiskEntry
  | .folder, .folder => isTrue rfl
  | .folder, .file _ => isFalse nofun
  | .file _, .folder => isFalse nofun
  | .file a, .file b =>
    match ByteArray.instDecidableEq a b with
    | isTrue h => isTrue (congrArg DiskEntry.file h)
    | isFalse h => isFalse fun heq => h (DiskEntry.file.inj heq)

/-- The names from the root folder to a location. -/
abbrev Location := List String

/-- A disk. -/
structure Disk where
  /-- The working folder. -/
  working : Location
  /-- What the locations hold, in the order of their creation. -/
  entries : List (Location × DiskEntry)

namespace Disk

/-- The greatest number of bytes of a name. -/
def maxNameBytes : Nat := 255

/-- The number of bytes from which a path is too long. -/
def maxPathBytes : Nat := 4096

/-- What a location holds, if anything. -/
def entry? (d : Disk) (location : Location) : Option DiskEntry :=
  if location.isEmpty then some .folder else d.entries.lookup location

/-- Let a location hold something. -/
def put (d : Disk) (location : Location) (entry : DiskEntry) : Disk :=
  { d with entries := Ordered.put (· == ·) location entry d.entries }

/-- Walk names from a location. -/
def enter (d : Disk) (here : Location) : List String → Except Refusal Location
  | [] => .ok here
  | name :: rest =>
    match d.entry? here with
    | some .folder =>
      if name = ".." then d.enter here.dropLast rest
      else if maxNameBytes < Text.nameSize name then .error .tooLong
      else
        let inner := here ++ [name]
        if (d.entry? inner).isSome then d.enter inner rest else .error .missing
    | some (.file _) => .error .notFolder
    | none => .error .missing

/-- The location at which a path starts. -/
def origin (d : Disk) (path : Path) : Location :=
  match path.root with
  | .working => d.working
  | _ => []

/-- Whether a path is too long to be looked up at all. -/
def isTooLong (path : Path) : Bool :=
  maxPathBytes ≤ Text.nameSize path.toText

/-- Why a path cannot be used at all, if so: it cannot be encoded or holds the zero character. -/
def unusable? (path : Path) : Option Failure :=
  if !path.parts.all Text.isNameable then some .unencodable
  else if path.parts.any (·.toList.contains '\x00') then some .zeroInPath
  else none

/-- The location that a path leads to. -/
def locate (d : Disk) (path : Path) : Except Refusal Location :=
  if isTooLong path then .error .tooLong else d.enter (d.origin path) path.parts

/-- The folder that holds the last name of a path, together with that name. There is no name if the
path ends at a folder by itself. -/
def locateLast (d : Disk) (path : Path) : Except Refusal (Location × Option String) := do
  if isTooLong path then .error .tooLong
  else
    match path.parts.getLast? with
    | none => return (d.origin path, none)
    | some last =>
      let folder ← d.enter (d.origin path) path.parts.dropLast
      match d.entry? folder with
      | some .folder =>
        if last = ".." then return (folder.dropLast, none)
        else if maxNameBytes < Text.nameSize last then .error .tooLong
        else return (folder, some last)
      | _ => .error .notFolder

/-- Whether a path leads to a folder. -/
def isFolder (d : Disk) (path : Path) : Bool :=
  match d.locate path with
  | .ok location => d.entry? location == some .folder
  | .error _ => false

/-- Read the bytes of a file. -/
def read (d : Disk) (path : Path) : Except Refusal ByteArray := do
  match d.entry? (← d.locate path) with
  | some (.file bytes) => return bytes
  | some .folder => .error .isFolder
  | none => .error .missing

/-- Write the bytes of a file, in place of those that it held before. -/
def write (d : Disk) (path : Path) (bytes : ByteArray) : Except Refusal Disk := do
  match ← d.locateLast path with
  | (_, none) => .error .isFolder
  | (folder, some name) =>
    let location := folder ++ [name]
    if d.entry? location == some .folder then .error .isFolder
    else return d.put location (.file bytes)

/-- Make a folder. -/
def makeFolder (d : Disk) (path : Path) : Except Refusal Disk := do
  match ← d.locateLast path with
  | (_, none) => .error .exists
  | (folder, some name) =>
    let location := folder ++ [name]
    if (d.entry? location).isSome then .error .exists else return d.put location .folder

/-- Make a folder unless it is there already. -/
def ensureFolder (d : Disk) (path : Path) : Except Refusal Disk :=
  match d.makeFolder path with
  | .ok made => .ok made
  | .error refusal =>
    if refusal = .missing then .error .missing
    else if d.isFolder path then .ok d
    else .error refusal

/-- Make a folder and the folders that lead to it, unless they are there already. Folders that were
made before a refusal stay. -/
def ensureFolders (d : Disk) (path : Path) : Disk × Except StorageError Unit :=
  match d.ensureFolder path with
  | .ok made => (made, .ok ())
  | .error .missing =>
    if hparts : path.parts = [] then (d, .error ⟨.missing, path⟩)
    else
      have hless : path.parent.parts.length < path.parts.length := by
        have := List.length_pos_iff.mpr hparts
        simp only [Path.parent, List.length_dropLast]
        omega
      match d.ensureFolders path.parent with
      | (made, .error e) => (made, .error e)
      | (made, .ok ()) =>
        match made.ensureFolder path with
        | .ok made => (made, .ok ())
        | .error refusal => (made, .error ⟨refusal, path⟩)
  | .error refusal => (d, .error ⟨refusal, path⟩)
termination_by path.parts.length
decreasing_by exact hless

/-- Read a file for a run. -/
def readFile (d : Disk) (path : Path) : Except Failure ByteArray :=
  match unusable? path with
  | some failure => .error failure
  | none => (d.read path).mapError fun refusal => .storage ⟨refusal, path⟩

/-- Read a file as text. -/
def readText (d : Disk) (path : Path) : Except Failure String := do
  match String.fromUTF8? (← d.readFile path) with
  | some s => return String.ofList (Text.unifyLineEnds s.toList)
  | none => .error .notText

/-- Make the folder of a document and write the document into it. The file is opened, and thereby
emptied, before the document is encoded. -/
def writeDocument (d : Disk) (folder : Path) (name content : String) : Disk × Except Failure Path :=
  match unusable? folder with
  | some failure => (d, .error failure)
  | none =>
    match d.ensureFolders folder with
    | (made, .error e) => (made, .error (.storage e))
    | (made, .ok ()) =>
      let path := folder.join (.ofString name)
      match unusable? path with
      | some failure => (made, .error failure)
      | none =>
        match made.write path ((Text.encode? content).getD .empty) with
        | .error refusal => (made, .error (.storage ⟨refusal, path⟩))
        | .ok written =>
          (written, if (Text.encode? content).isSome then .ok path else .error .unencodable)

/-- A disk with nothing but a working folder and the folders that lead to it. -/
def blank (working : Location) : Disk :=
  ⟨working, (List.range working.length).map fun n => (working.take (n + 1), .folder)⟩

/-- Place a file on a disk, together with the folders that lead to it. -/
def place (d : Disk) (path : Path) (bytes : ByteArray) : Disk :=
  let made := (d.ensureFolders path.parent).1
  match made.write path bytes with
  | .ok written => written
  | .error _ => made

/-- What is new or different since an earlier state, in the order of creation. -/
def changesSince (before after : Disk) : List (Location × DiskEntry) :=
  after.entries.filter fun (location, entry) => before.entry? location != some entry

end Disk

end ProtocolPages
