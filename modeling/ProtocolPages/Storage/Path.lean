/-!
# Paths

A path is held in normal form: whether it starts at the root, and the names on the way. Empty names
and single dots mean nothing and are dropped; double dots are kept. A path that starts with exactly
two slashes is told apart from one that starts with one.
-/

namespace ProtocolPages

/-- Where a path starts. -/
inductive PathRoot where
  /-- At the working folder. -/
  | working
  /-- At the root, written with one slash. -/
  | slash
  /-- At the root, written with two slashes. -/
  | doubleSlash
  deriving DecidableEq, Repr

/-- A path in normal form. -/
structure Path where
  /-- Where the path starts. -/
  root : PathRoot
  /-- The names on the way. -/
  parts : List String
  deriving DecidableEq, Repr

namespace Path

/-- Where a text that is read as a path starts. -/
def rootOf (cs : List Char) : PathRoot :=
  match (cs.takeWhile (· == '/')).length with
  | 0 => .working
  | 2 => .doubleSlash
  | _ => .slash

/-- The names that a text is divided into by its slashes, without those that mean nothing. -/
def partsOf (cs : List Char) : List String :=
  (cs.splitOn '/').filterMap fun part =>
    if part = [] || part = ['.'] then none else some (String.ofList part)

/-- Read a text as a path. -/
def ofString (s : String) : Path :=
  ⟨rootOf s.toList, partsOf s.toList⟩

/-- The path of the working folder. -/
def working : Path := ⟨.working, []⟩

/-- Follow a second path from the end of the first; one that starts at the root stands alone. -/
def join (p q : Path) : Path :=
  match q.root with
  | .working => ⟨p.root, p.parts ++ q.parts⟩
  | _ => q

/-- The path without its last name. -/
def parent (p : Path) : Path :=
  ⟨p.root, p.parts.dropLast⟩

/-- The text of a path. -/
def toText (p : Path) : String :=
  let names := String.intercalate "/" p.parts
  match p.root with
  | .working => if names.isEmpty then "." else names
  | .slash => "/" ++ names
  | .doubleSlash => "//" ++ names

end Path

end ProtocolPages
