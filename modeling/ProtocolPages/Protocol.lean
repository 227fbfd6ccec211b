import ProtocolPages.Failure
import ProtocolPages.Schema

/-!
# Protocols

A protocol is what one document describes: its methods, with the parameters divided into request
and response, and the records declared for it.
-/

namespace ProtocolPages

/-- A method with its parameters divided by direction. -/
structure Method where
  /-- The name of the method. -/
  name : Value
  /-- The parameters of the request. -/
  request : List Parameter
  /-- The parameters of the response, return values first. -/
  response : List Parameter
  deriving Repr

/-- Everything that one document describes. -/
structure Protocol where
  /-- The name of the protocol, made up when the tree has none. -/
  name : Value
  /-- The identifier shown next to the name. -/
  id : String
  /-- The methods in order; they are numbered from one. -/
  methods : List Method
  /-- The records declared since the protocol before. -/
  records : List Record
  deriving Repr

/-- The way that a parameter travels. -/
inductive Direction where
  /-- From the caller. -/
  | request
  /-- Back to the caller. -/
  | response
  deriving DecidableEq, Repr

/-- The direction that a tag stands for. Only the whole numbers one and two are directions. -/
def Direction.ofTag? : Value → Option Direction
  | .integer 1 => some .request
  | .integer 2 => some .response
  | _ => none

/-- Parameters divided by direction, each group in the order of declaration. -/
structure Buckets where
  /-- The parameters of the request. -/
  request : List Parameter
  /-- The return values. -/
  returns : List Parameter
  /-- The other parameters of the response. -/
  outputs : List Parameter

/-- Divide parameters by direction. The first parameter without a direction is reported, as one of
the given method. -/
def bucketParameters (protocol method : Value) : List Parameter → Except DirectionError Buckets
  | [] => .ok ⟨[], [], []⟩
  | p :: rest =>
    if p.isReturn then do
      let buckets ← bucketParameters protocol method rest
      return { buckets with returns := p :: buckets.returns }
    else
      match Direction.ofTag? p.tag with
      | some .request => do
        let buckets ← bucketParameters protocol method rest
        return { buckets with request := p :: buckets.request }
      | some .response => do
        let buckets ← bucketParameters protocol method rest
        return { buckets with outputs := p :: buckets.outputs }
      | none => .error ⟨p.tag, method, p.name, some protocol⟩

/-- Divide the parameters of a declared method of the given protocol. -/
def MethodDeclaration.toMethod (protocol : Value) (m : MethodDeclaration) :
    Except DirectionError Method := do
  let buckets ← bucketParameters protocol m.name m.parameters
  return ⟨m.name, buckets.request, buckets.returns ++ buckets.outputs⟩

/-- Divide the parameters of every declared method, up to the first failure. -/
def toMethods (protocol : Value) : List MethodDeclaration → Except DirectionError (List Method)
  | [] => .ok []
  | m :: rest => do
    let first ← m.toMethod protocol
    let others ← toMethods protocol rest
    return first :: others

/-- The names of records, as a set that types can be looked up in. Only texts can match the name of
a type; a list or an object cannot be a key at all. -/
def localNames (records : List Record) : Except Misuse (List String) :=
  if records.all (·.name.isKey) then .ok (records.filterMap (·.name.text?)) else .error .notKey

end ProtocolPages
