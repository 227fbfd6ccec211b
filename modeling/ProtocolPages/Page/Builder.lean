/-!
# Building Markdown

A fragment of Markdown is put together from parts. A line starts with its line feed, so that
fragments neither start nor end with an empty line of their own. Empty parts are never stored.
-/

namespace ProtocolPages

/-- A fragment under construction. -/
structure Builder where
  /-- The parts so far, in order. -/
  parts : List String
  deriving DecidableEq, Repr

namespace Builder

/-- Nothing yet. -/
def empty : Builder := ⟨[]⟩

/-- Add a text; the empty text adds no part. -/
def append (b : Builder) (s : String) : Builder :=
  if s.isEmpty then b else ⟨b.parts ++ [s]⟩

/-- Start a new line with the given text. -/
def line (b : Builder) (s : String) : Builder :=
  append ⟨b.parts ++ ["\n"]⟩ s

/-- The text of a table row. -/
def rowText (cells : List String) : String :=
  "| " ++ String.intercalate " | " cells ++ " |"

/-- Add a table row on a new line. -/
def row (b : Builder) (cells : List String) : Builder :=
  b.line (rowText cells)

/-- Add several table rows. -/
def rows (b : Builder) (cells : List (List String)) : Builder :=
  cells.foldl row b

/-- Add the head of a table: its titles and the line below them. -/
def tableHeader (b : Builder) (titles : List String) : Builder :=
  (b.row titles).row (List.replicate titles.length "---")

/-- The text built so far. -/
def build (b : Builder) : String :=
  String.join b.parts

/-- The number of parts. -/
def size (b : Builder) : Nat :=
  b.parts.length

/-- Whether there is anything yet. -/
def isEmpty (b : Builder) : Bool :=
  b.parts.isEmpty

end Builder

end ProtocolPages
