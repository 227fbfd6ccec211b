import ProtocolPages.Glossary
import ProtocolPages.TypeExpr.Generic

/-!
# Type expressions

A type in a schema is a spelling such as `uint32` or `qlist<Gathering>`. Reading it gives one of
four shapes; a spelling that fits no other shape, a malformed generic included, is just a name. A
basic spelling keeps its meaning even when it looks generic.
-/

namespace ProtocolPages

/-- The equivalent spellings of the list type. -/
inductive ListKind where
  /-- Spelled `std_list`. -/
  | stdList
  /-- Spelled `qvector`. -/
  | qVector
  /-- Spelled `qlist`. -/
  | qList
  deriving DecidableEq, Repr

namespace ListKind

/-- How a schema spells the list type. -/
def spelling : ListKind → String
  | stdList => "std_list"
  | qVector => "qvector"
  | qList => "qlist"

/-- All spellings of the list type. -/
def all : List ListKind :=
  [stdList, qVector, qList]

/-- The list type with the given spelling, if it is one. -/
def ofSpelling? (s : String) : Option ListKind :=
  all.find? (·.spelling == s)

end ListKind

/-- The shape of a type. -/
inductive TypeExpr where
  /-- A basic spelling of the glossary. -/
  | basic (name : String)
  /-- A list of elements. -/
  | list (kind : ListKind) (inner : TypeExpr)
  /-- A holder of any record derived from `inner`, which is kept as written. -/
  | holder (inner raw : String)
  /-- Any other spelling: the name of a record, a glossary entry, or something unknown. -/
  | named (name : String)
  deriving DecidableEq, Repr

namespace TypeExpr

/-- The head of the spelling of a holder. -/
def holderHead : String := "any"

/-- Read the shape of a spelling, given the spellings that count as basic. -/
def ofChars (basics : List String) (raw : List Char) : TypeExpr :=
  let name := String.ofList (Text.stripChars raw)
  if basics.contains name then basic name
  else
    match hsplit : splitGeneric (Text.stripChars raw) with
    | none => named name
    | some (head, args) =>
      match ListKind.ofSpelling? (String.ofList head), args with
      | some kind, [arg] =>
        have hless : arg.length < raw.length := by
          have hstrip := Text.length_stripChars_le raw
          have harg : arg.length + 3 ≤ _ :=
            length_add_three_le_of_mem_splitGeneric hsplit (List.mem_singleton_self arg)
          omega
        list kind (ofChars basics arg)
      | _, arg :: _ =>
        if String.ofList head = holderHead then holder (String.ofList arg) name else named name
      | _, [] => named name
termination_by raw.length
decreasing_by exact hless

/-- Read the shape of a text, given the spellings that count as basic. -/
def ofSpelling (basics : List String) (raw : String) : TypeExpr :=
  ofChars basics raw.toList

/-- Read the shape of a text with the basic spellings of the glossary. -/
def read (raw : String) : TypeExpr :=
  ofSpelling Glossary.basicSpellings raw

/-- Write a shape as a spelling. -/
def spelling : TypeExpr → String
  | basic name => name
  | named name => name
  | holder _ raw => raw
  | list kind inner => kind.spelling ++ "<" ++ inner.spelling ++ ">"

end TypeExpr

end ProtocolPages
