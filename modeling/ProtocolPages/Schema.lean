import ProtocolPages.Value

/-!
# Schemas

What a parse tree declares: records with members, and protocols with methods that take parameters.
Names, types and tags are kept as the values that stand in the tree.
-/

namespace ProtocolPages

/-- A member of a record. -/
structure Member where
  /-- The name of the member. -/
  name : Value
  /-- The spelling of its type. -/
  type : Value
  deriving Repr

/-- A record type. -/
structure Record where
  /-- The name of the record. -/
  name : Value
  /-- The spelling of its parent; empty when it declares none. -/
  parent : Value
  /-- The members in the order of their declaration. -/
  members : List Member
  deriving Repr

/-- A parameter of a method. -/
structure Parameter where
  /-- The name of the parameter. -/
  name : Value
  /-- The spelling of its type. -/
  type : Value
  /-- The tag that says which way it travels. -/
  tag : Value
  /-- Whether it is a return value, which is part of the response whatever its tag. -/
  isReturn : Bool
  deriving Repr

/-- A method as it is declared. -/
structure MethodDeclaration where
  /-- The name of the method. -/
  name : Value
  /-- The parameters in the order of their declaration. -/
  parameters : List Parameter
  deriving Repr

/-- A protocol as it is declared. -/
structure ProtocolDeclaration where
  /-- The name of the protocol; empty when the tree has none. -/
  name : Value
  /-- The methods in the order of their declaration. -/
  methods : List MethodDeclaration
  deriving Repr

/-- A declaration at the top of a tree. -/
inductive Declaration where
  /-- A record type. -/
  | record (r : Record)
  /-- A protocol. -/
  | protocol (p : ProtocolDeclaration)
  deriving Repr

/-- The declarations of a tree, in order. -/
abbrev Schema := List Declaration

end ProtocolPages
