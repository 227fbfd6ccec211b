import ProtocolPages.Proofs.PlaceText
import Mathlib.Data.List.Forall2

/-!
# Shapes of parse trees

The shape of a schema in a parse tree says which fields each node has and what stands in them. A
value of that shape may have any further fields. Reading such a value gives back the schema, so
nothing of it is lost on the way through a tree, and what else stands in the tree shows in the log
only.
-/

namespace ProtocolPages

/-- What a value has to look like. -/
inductive Shape where
  /-- It is the given value. -/
  | exactly (v : Value)
  /-- It is an object with at least the given fields. -/
  | node (fields : List (String × Shape))
  /-- It is a list of items with the given shapes. -/
  | items (shapes : List Shape)

namespace Shape

/-- The value has the shape. An object may have fields beyond those of the shape, in any order. -/
inductive Fits : Shape → Value → Prop
  | exactly (v : Value) : Fits (.exactly v) v
  | node {shapes : List (String × Shape)} {fields : List (String × Value)}
      (hpresent : ∀ key shape, shapes.lookup key = some shape → ∃ v, fields.lookup key = some v)
      (hfits : ∀ key shape v, shapes.lookup key = some shape → fields.lookup key = some v →
        Fits shape v) :
      Fits (.node shapes) (.object fields)
  | items {shapes : List Shape} {values : List Value} (h : List.Forall₂ Fits shapes values) :
      Fits (.items shapes) (.list values)

/-! ## Writing a shape -/

mutual

/-- The value of a shape, with the same further fields at the end of every node. -/
def write (extra : List (String × Value)) : Shape → Value
  | .exactly v => v
  | .node shapes => .object (writeFields extra shapes ++ extra)
  | .items shapes => .list (writeItems extra shapes)

/-- The values of the fields of a node. -/
def writeFields (extra : List (String × Value)) : List (String × Shape) → List (String × Value)
  | [] => []
  | (key, shape) :: rest => (key, shape.write extra) :: writeFields extra rest

/-- The values of the items of a list. -/
def writeItems (extra : List (String × Value)) : List Shape → List Value
  | [] => []
  | shape :: rest => shape.write extra :: writeItems extra rest

end

/-- A field of a shape is found in what is written, whatever stands behind it. -/
theorem lookup_writeFields {extra : List (String × Value)} {shapes : List (String × Shape)}
    {key : String} {shape : Shape} (h : shapes.lookup key = some shape) :
    (writeFields extra shapes ++ extra).lookup key = some (shape.write extra) := by
  induction shapes with
  | nil => exact nomatch h
  | cons first rest ih =>
    obtain ⟨name, inner⟩ := first
    rw [List.lookup_cons] at h
    rw [writeFields, List.cons_append, List.lookup_cons]
    cases hkey : key == name with
    | true =>
      rw [hkey] at h
      cases h
      rfl
    | false =>
      rw [hkey] at h
      exact ih h

mutual

/-- What is written for a shape has it. -/
theorem fits_write (extra : List (String × Value)) :
    (shape : Shape) → shape.Fits (shape.write extra)
  | .exactly v => .exactly v
  | .node shapes => by
    -- What stands at the end of the node is found only where the shape has no such field.
    refine .node (fun key shape h => ⟨_, lookup_writeFields h⟩) fun key shape v hshape hv => ?_
    obtain rfl := Option.some.inj ((lookup_writeFields hshape).symm.trans hv)
    exact fits_writeFields extra shapes key shape hshape
  | .items shapes => .items (fits_writeItems extra shapes)

/-- What is written for a field of a node has its shape. -/
theorem fits_writeFields (extra : List (String × Value)) : (shapes : List (String × Shape)) →
    ∀ key shape, shapes.lookup key = some shape → shape.Fits (shape.write extra)
  | [], _, _, h => nomatch h
  | (name, inner) :: rest, key, shape, h => by
    rw [List.lookup_cons] at h
    split at h
    · cases h
      exact fits_write extra inner
    · exact fits_writeFields extra rest key shape h

/-- What is written for the items of a list has their shapes. -/
theorem fits_writeItems (extra : List (String × Value)) : (shapes : List Shape) →
    List.Forall₂ Fits shapes (writeItems extra shapes)
  | [] => .nil
  | shape :: rest => .cons (fits_write extra shape) (fits_writeItems extra rest)

end

/-! ## Reading what has a shape -/

/-- What succeeds is followed by the rest. -/
private theorem ok_bind {ε α β : Type} (a : α) (f : α → Except ε β) :
    (Except.ok a >>= f) = f a := rfl

/-- The shape at the end of some keys. -/
def inside? : Shape → List String → Option Shape
  | shape, [] => some shape
  | .node shapes, key :: keys => (shapes.lookup key).bind (·.inside? keys)
  | _, _ :: _ => none

variable {shape : Shape} {v : Value}

/-- Only the value itself has the shape of a value. -/
theorem Fits.eq {w : Value} (h : (Shape.exactly v).Fits w) : w = v := by
  cases h
  rfl

/-- A node has the fields of its shape. -/
theorem Fits.field? {shapes : List (String × Shape)} (h : (Shape.node shapes).Fits v)
    (key : String) (hkey : shapes.lookup key = some shape) :
    ∃ inner, v.field? key = some inner ∧ shape.Fits inner := by
  cases h with
  | node hpresent hfits =>
    obtain ⟨inner, hinner⟩ := hpresent key shape hkey
    exact ⟨inner, hinner, hfits key shape inner hkey hinner⟩

/-- Keys of the shape lead to a value of the shape at their end. -/
theorem Fits.follow (h : shape.Fits v) (place : Place) {keys : List String} {inner : Shape}
    (hinside : shape.inside? keys = some inner) :
    ∃ w, Node.follow v place keys = .ok w ∧ inner.Fits w := by
  induction keys generalizing shape v place with
  | nil =>
    cases shape <;> cases hinside <;> exact ⟨v, rfl, h⟩
  | cons key keys ih =>
    cases shape with
    | exactly u => exact nomatch hinside
    | items shapes => exact nomatch hinside
    | node shapes =>
      obtain ⟨next, hnext, hkeys⟩ := Option.bind_eq_some_iff.mp hinside
      obtain ⟨w, hw, hfits⟩ := h.field? key hnext
      obtain ⟨x, hx, hinner⟩ := ih hfits (place ++ [.key key]) hkeys
      exact ⟨x, by rw [Node.follow, hw]; exact hx, hinner⟩

/-- Keys of the shape lead to the value that stands at their end. -/
theorem Fits.follow_eq (h : shape.Fits v) (place : Place) (keys : List String) {w : Value}
    (hinside : shape.inside? keys = some (.exactly w)) : Node.follow v place keys = .ok w := by
  obtain ⟨u, hu, hfits⟩ := h.follow place hinside
  rw [hu, hfits.eq]

/-- The elements that the shape lists are found. -/
theorem Fits.elements (h : shape.Fits v) (place : Place) (key : String) {shapes : List Shape}
    (hinside : shape.inside? [key, "elements"] = some (.items shapes)) :
    ∃ values, Node.elements v place key = .ok values ∧ List.Forall₂ Fits shapes values := by
  obtain ⟨w, hw, hfits⟩ := h.follow place hinside
  cases hfits with
  | @items _ values hitems => exact ⟨values, by rw [Node.elements, hw]; rfl, hitems⟩

/-- A node says that it is what its shape says. -/
theorem Fits.typeOf {shapes : List (String × Shape)} (h : (Shape.node shapes).Fits v)
    (place : Place) {type : Value} (htype : shapes.lookup "_type" = some (.exactly type))
    (hnull : type ≠ .null) : Node.typeOf v place = .ok type := by
  obtain ⟨w, hw, hfits⟩ := h.field? "_type" htype
  obtain rfl := hfits.eq
  cases h with
  | @node _ fields _ _ =>
    have hlookup : fields.lookup "_type" = some w := hw
    cases w with
    | null => exact absurd rfl hnull
    | _ => rw [Node.typeOf, hlookup]

/-- If a reader reads each item back from its shape, all items are read back. -/
theorem readAll_of_forall₂ {α : Type} {read : Nat → Value → Except NodeError α}
    {shapeOf : α → Shape} (hread : ∀ index a v, (shapeOf a).Fits v → read index v = .ok a)
    (index : Nat) {as : List α} {values : List Value}
    (h : List.Forall₂ Fits (as.map shapeOf) values) : Node.readAll read index values = .ok as := by
  rw [List.forall₂_map_left_iff] at h
  induction h generalizing index with
  | nil => rfl
  | cons hfirst _ ih =>
    rw [Node.readAll, hread _ _ _ hfirst, ih (index + 1)]
    rfl

end Shape

/-! ## Shapes of declarations -/

/-- The fields of a node that has a name. -/
def namedFields (name : Value) : List (String × Shape) :=
  [("nameSpaceItem", .node
    [("parseTreeItem1", .node [("name", .node [("value", .exactly name)])])])]

/-- The fields of a node that uses a type. -/
def typedFields (type : Value) : List (String × Shape) :=
  [("declarationUse", .node [("name", .node [("value", .exactly type)])])]

/-- An element is a node with a body. -/
def Shape.element (fields : List (String × Shape)) : Shape :=
  .node [("body", .node fields)]

/-- Elements are listed in a node of their own. -/
def Shape.elements (shapes : List Shape) : Shape :=
  .node [("elements", .items shapes)]

/-- The shape of a member. -/
def Member.shape (m : Member) : Shape :=
  .element (namedFields m.name ++ typedFields m.type)

/-- The fields of the body of a record. -/
def Record.bodyFields (r : Record) : List (String × Shape) :=
  [("_type", .exactly (.text "DDLClassDeclaration")),
    ("typeDeclaration", .node [("declaration", .node (namedFields r.name))]),
    ("parentClassName", .node [("value", .exactly r.parent)]),
    ("classMembers", .elements (r.members.map Member.shape))]

/-- The shape of a parameter. Return values differ from it by their type only. -/
def Parameter.shape (p : Parameter) : Shape :=
  .element ([("_type", .exactly (.text (if p.isReturn then "DDLReturnValue" else "DDLParameter"))),
    ("variable", .node (namedFields p.name))] ++ typedFields p.type ++ [("type", .exactly p.tag)])

/-- The shape of a method. -/
def MethodDeclaration.shape (m : MethodDeclaration) : Shape :=
  .element [("_type", .exactly (.text "DDLMethod")),
    ("methodDeclaration", .node [("declaration", .node (namedFields m.name))]),
    ("parameters", .elements (m.parameters.map Parameter.shape))]

/-- The fields of the body of a protocol. -/
def ProtocolDeclaration.bodyFields (p : ProtocolDeclaration) : List (String × Shape) :=
  [("_type", .exactly (.text "DDLProtocolDeclaration")),
    ("declaration", .node (namedFields p.name)),
    ("methods", .elements (p.methods.map MethodDeclaration.shape))]

/-- The shape of a declaration. -/
def Declaration.shape : Declaration → Shape
  | .record r => .element r.bodyFields
  | .protocol p => .element p.bodyFields

namespace Shape

variable {v : Value}

/-- The body of an element has the fields of its shape. -/
theorem Fits.body {fields : List (String × Shape)} (h : (Shape.element fields).Fits v)
    (place : Place) :
    ∃ body, Node.follow v place ["body"] = .ok body ∧ (Shape.node fields).Fits body :=
  h.follow place rfl

/-- A member is read back from its shape. -/
theorem Fits.readMember {m : Member} (h : m.shape.Fits v) (place : Place) (index : Nat) :
    Node.readMember place index v = .ok m := by
  obtain ⟨body, hbody, hfits⟩ := h.body (Node.bodyPlace place "classMembers" index)
  have hname := hfits.follow_eq (Node.bodyPlace place "classMembers" index) Node.nameKeys rfl
  have htype := hfits.follow_eq (Node.bodyPlace place "classMembers" index) Node.typeKeys rfl
  simp only [Node.readMember, hbody, ok_bind, hname, htype]
  rfl

/-- A record is read back from its shape, with an empty text for a vacant parent. -/
theorem Fits.readRecord {r : Record} (h : (Shape.node r.bodyFields).Fits v) (place : Place) :
    Node.readRecord v place = .ok { r with parent := r.parent.orEmpty } := by
  have hname := h.follow_eq place (["typeDeclaration", "declaration"] ++ Node.nameKeys) rfl
  have hparent := h.follow_eq place ["parentClassName", "value"] rfl
  obtain ⟨items, hitems, hmembers⟩ := h.elements place "classMembers" rfl
  have hread : Node.readAll (Node.readMember place) 0 items = .ok r.members :=
    readAll_of_forall₂ (fun index m v hm => hm.readMember place index) 0 hmembers
  simp only [Node.readRecord, hname, hparent, hitems, ok_bind, hread]
  rfl

/-- The type of a node tells return values from parameters. -/
theorem isReturn?_kind (isReturn : Bool) :
    Node.isReturn? (.text (if isReturn then "DDLReturnValue" else "DDLParameter")) =
      some isReturn := by
  cases isReturn <;> rfl

/-- A parameter is read back from its shape. -/
theorem Fits.readParameter {p : Parameter} (h : p.shape.Fits v) (place : Place) (index : Nat) :
    Node.readParameter place index v = .ok p := by
  obtain ⟨body, hbody, hfits⟩ := h.body (Node.bodyPlace place "parameters" index)
  have htype := hfits.typeOf (Node.bodyPlace place "parameters" index) rfl nofun
  have hname := hfits.follow_eq (Node.bodyPlace place "parameters" index)
    ("variable" :: Node.nameKeys) rfl
  have hspelling := hfits.follow_eq (Node.bodyPlace place "parameters" index) Node.typeKeys rfl
  obtain ⟨tag, htag, heq⟩ := hfits.field? "type" rfl
  simp only [Node.readParameter, hbody, ok_bind, htype, isReturn?_kind, hname, hspelling, htag,
    heq.eq]
  rfl

/-- A method is read back from its shape. -/
theorem Fits.readMethod {m : MethodDeclaration} (h : m.shape.Fits v) (place : Place)
    (index : Nat) : Node.readMethod place index v = .ok m := by
  obtain ⟨body, hbody, hfits⟩ := h.body (Node.bodyPlace place "methods" index)
  have hname := hfits.follow_eq (Node.bodyPlace place "methods" index)
    (["methodDeclaration", "declaration"] ++ Node.nameKeys) rfl
  obtain ⟨items, hitems, hparameters⟩ :=
    hfits.elements (Node.bodyPlace place "methods" index) "parameters" rfl
  have hread : Node.readAll (Node.readParameter (Node.bodyPlace place "methods" index)) 0 items =
      .ok m.parameters :=
    readAll_of_forall₂ (fun _ _ _ hp => hp.readParameter _ _) 0 hparameters
  simp only [Node.readMethod, hbody, ok_bind, hname, hitems, hread]
  rfl

/-- A protocol is read back from its shape, with an empty text for a vacant name. -/
theorem Fits.readProtocol {p : ProtocolDeclaration} (h : (Shape.node p.bodyFields).Fits v)
    (place : Place) : Node.readProtocol v place = .ok { p with name := p.name.orEmpty } := by
  have hname := h.follow_eq place ("declaration" :: Node.nameKeys) rfl
  obtain ⟨items, hitems, hmethods⟩ := h.elements place "methods" rfl
  have hread : Node.readAll (Node.readMethod place) 0 items = .ok p.methods :=
    readAll_of_forall₂ (fun _ _ _ hm => hm.readMethod place _) 0 hmethods
  simp only [Node.readProtocol, hname, hitems, ok_bind, hread]
  rfl

end Shape

/-! ## Whole trees -/

/-- A type of nodes that declare nothing the documentation needs. -/
structure OtherKind where
  /-- What the node says that it is. -/
  type : Value
  /-- It says something. -/
  ne_null : type ≠ .null
  /-- It is no record. -/
  ne_record : type ≠ .text "DDLClassDeclaration"
  /-- It is no protocol. -/
  ne_protocol : type ≠ .text "DDLProtocolDeclaration"

/-- What stands at one position at the top of a tree. -/
inductive Slot where
  /-- A declaration. -/
  | declared (d : Declaration)
  /-- A node of another kind. -/
  | other (kind : OtherKind)

namespace Slot

/-- The declaration at a position, if there is one. -/
def declaration? : Slot → Option Declaration
  | declared d => some d
  | other _ => none

/-- The shape of what stands at a position. Of a node of another kind only the type is given. -/
def shape : Slot → Shape
  | declared d => d.shape
  | other kind => .element [("_type", .exactly kind.type)]

/-- What is reported about the position with the given index. -/
def skipLog (index : Nat) : Slot → Log
  | declared _ => []
  | other kind =>
    [⟨.debug, "Skipping " ++ kind.type.plain ++
      " at rootNamespace.elements[" ++ toString index ++ "].body"⟩]

end Slot

/-- The declaration as it is read: a vacant parent or protocol name becomes the empty text. -/
def Declaration.settled : Declaration → Declaration
  | .record r => .record { r with parent := r.parent.orEmpty }
  | .protocol p => .protocol { p with name := p.name.orEmpty }

/-- The declaration has no parent or protocol name that says nothing, except the empty text. -/
def Declaration.IsSettled : Declaration → Prop
  | .record r => r.parent.isVacant → r.parent = .text ""
  | .protocol p => p.name.isVacant → p.name = .text ""

/-- A value that says nothing only as the empty text stays as it is. -/
theorem Value.orEmpty_eq_self {v : Value} (h : v.isVacant → v = .text "") : v.orEmpty = v := by
  unfold orEmpty
  split
  · next hvacant => exact (h hvacant).symm
  · rfl

/-- Such a declaration is read as it is. -/
theorem Declaration.IsSettled.settled_eq {d : Declaration} (h : d.IsSettled) : d.settled = d := by
  cases d with
  | record r => rw [settled, Value.orEmpty_eq_self h]
  | protocol p => rw [settled, Value.orEmpty_eq_self h]

/-- The shape of a tree with the given positions. -/
def treeShape (slots : List Slot) : Shape :=
  .node [("rootNamespace", .elements (slots.map Slot.shape))]

/-- The tree of a schema. -/
def Schema.toTree (schema : Schema) : Value :=
  (treeShape (schema.map Slot.declared)).write []

/-- The text of the place of a body at the top of a tree. -/
theorem text_bodyPlace (index : Nat) :
    (Node.bodyPlace [] "rootNamespace" index).text =
      "rootNamespace.elements[" ++ toString index ++ "].body" := by
  have hitem : Place.text ([.key "rootNamespace", .key "elements"] ++ [.item index]) =
      "rootNamespace.elements" ++ "[" ++ toString index ++ "]" :=
    Place.text_concat_item _ index
  have hbody := Place.text_concat_key
    ([.key "rootNamespace", .key "elements"] ++ [.item index]) "body"
  rw [hitem, if_neg (by simp)] at hbody
  refine hbody.trans (String.toList_injective ?_)
  simp

/-- The record of a skipped element is what its position reports. -/
theorem skipRecord_eq_skipLog (index : Nat) (kind : OtherKind) :
    [Node.skipRecord index kind.type] = (Slot.other kind).skipLog index := by
  have hmessage : "Skipping " ++ kind.type.plain ++ " at " ++
      ("rootNamespace.elements[" ++ toString index ++ "].body") =
      "Skipping " ++ kind.type.plain ++ " at rootNamespace.elements[" ++ toString index ++
        "].body" := by
    refine String.toList_injective ?_
    simp
  rw [Node.skipRecord, text_bodyPlace, hmessage]
  rfl

namespace Shape

/-- A declaration at the top of a tree is read back from its shape. -/
theorem Fits.readElement_declared {v : Value} {d : Declaration} (h : d.shape.Fits v)
    (index : Nat) : Node.readElement index v = .ok (.declared d.settled) := by
  cases d with
  | record r =>
    obtain ⟨body, hbody, hfits⟩ := Fits.body h [.key "rootNamespace", .key "elements", .item index]
    simp only [Node.readElement, hbody, ok_bind, hfits.typeOf _ rfl nofun, hfits.readRecord]
    rfl
  | protocol p =>
    obtain ⟨body, hbody, hfits⟩ := Fits.body h [.key "rootNamespace", .key "elements", .item index]
    simp only [Node.readElement, hbody, ok_bind, hfits.typeOf _ rfl nofun, hfits.readProtocol]
    rfl

/-- A node of another kind at the top of a tree is skipped. -/
theorem Fits.readElement_other {v : Value} {kind : OtherKind}
    (h : (Slot.other kind).shape.Fits v) (index : Nat) :
    Node.readElement index v = .ok (.skipped kind.type) := by
  obtain ⟨body, hbody, hfits⟩ := Fits.body h [.key "rootNamespace", .key "elements", .item index]
  simp only [Node.readElement, hbody, ok_bind, hfits.typeOf _ rfl kind.ne_null]
  split
  · next htype => exact absurd htype kind.ne_record
  · next htype => exact absurd htype kind.ne_protocol
  · rfl

end Shape

/-- The positions at the top of a tree are read one after another, counting from `index`. -/
theorem readElements_of_forall₂ {slots : List Slot} {values : List Value}
    (h : List.Forall₂ Shape.Fits (slots.map Slot.shape) values) (index : Nat) :
    Node.readElements index values =
      ((slots.zipIdx index).flatMap fun (slot, i) => slot.skipLog i,
        .ok ((slots.filterMap Slot.declaration?).map Declaration.settled)) := by
  rw [List.forall₂_map_left_iff] at h
  induction h generalizing index with
  | nil => rfl
  | @cons slot v slots values hslot _ ih =>
    cases slot with
    | declared d =>
      simp only [Node.readElements, Shape.Fits.readElement_declared hslot, ih (index + 1)]
      rfl
    | other kind =>
      simp only [Node.readElements, Shape.Fits.readElement_other hslot, ih (index + 1)]
      rw [← List.singleton_append, skipRecord_eq_skipLog]
      rfl

/-- A tree is read back from its shape. -/
theorem loadTree_of_fits {slots : List Slot} {tree : Value} (h : (treeShape slots).Fits tree) :
    Schema.loadTree tree =
      (slots.zipIdx.flatMap fun (slot, i) => slot.skipLog i,
        .ok ((slots.filterMap Slot.declaration?).map Declaration.settled)) := by
  obtain ⟨values, hvalues, hfits⟩ := h.elements [] "rootNamespace" rfl
  rw [Schema.loadTree, Schema.ofTree, hvalues]
  simp only [readElements_of_forall₂ hfits 0]
  rfl

/-- A tree of declarations only reports nothing. -/
theorem skipLog_declared (schema : Schema) (index : Nat) :
    (((schema.map Slot.declared).zipIdx index).flatMap fun (slot, i) => slot.skipLog i) = [] := by
  induction schema generalizing index with
  | nil => rfl
  | cons d rest ih => exact ih (index + 1)

/-- The declarations of a tree of declarations. -/
theorem declarations_declared (schema : Schema) :
    (schema.map Slot.declared).filterMap Slot.declaration? = schema := by
  rw [List.filterMap_map]
  exact List.filterMap_some

/-- **Reading undoes writing.** The tree of any schema is read back as the schema, with vacant
parents and protocol names as empty texts, and nothing is reported. The same schema is read from any
value of the shape of its tree, whatever further fields its nodes have, and with nodes of other
kinds at any positions at the top; each of those is reported with its own position. -/
theorem loadTree_toTree (schema : Schema) :
    Schema.loadTree schema.toTree = ([], .ok (schema.map Declaration.settled)) ∧
    ((∀ d ∈ schema, d.IsSettled) → Schema.loadTree schema.toTree = ([], .ok schema)) ∧
    ∀ (slots : List Slot) (tree : Value), slots.filterMap Slot.declaration? = schema →
      (treeShape slots).Fits tree →
      Schema.loadTree tree =
        (slots.zipIdx.flatMap fun (slot, i) => slot.skipLog i,
          .ok (schema.map Declaration.settled)) := by
  have hread : Schema.loadTree schema.toTree = ([], .ok (schema.map Declaration.settled)) := by
    rw [Schema.toTree, loadTree_of_fits (Shape.fits_write [] _), skipLog_declared,
      declarations_declared]
  refine ⟨hread, fun hsettled => ?_, fun slots tree hslots hfits => ?_⟩
  · rw [hread, List.map_congr_left fun d hd => (hsettled d hd).settled_eq, List.map_id']
  · rw [loadTree_of_fits hfits, hslots]

/-- A record, a namespace and a protocol with a parameter and a return value. -/
def mixedSlots : List Slot :=
  [.declared (.record ⟨.text "Gathering", .text "Data", [⟨.text "id", .list []⟩]⟩),
    .other ⟨.text "DDLNamespace", nofun, by simp, by simp⟩,
    .declared (.protocol ⟨.text "", [⟨.text "Login",
      [⟨.text "user", .text "uint32", .integer 1, false⟩,
        ⟨.text "%retval%", .text "qresult", .null, true⟩]⟩]⟩)]

/-- The declarations are read back from their own tree, and from one with other items between them.
-/
theorem loadTree_mixedSlots :
    (∀ d ∈ mixedSlots.filterMap Slot.declaration?, d.IsSettled) ∧
    Schema.loadTree (Schema.toTree (mixedSlots.filterMap Slot.declaration?)) =
      ([], .ok (mixedSlots.filterMap Slot.declaration?)) ∧
    (treeShape mixedSlots).Fits ((treeShape mixedSlots).write [("line", .integer 7)]) ∧
    Schema.loadTree ((treeShape mixedSlots).write [("line", .integer 7)]) =
      ([⟨.debug, "Skipping DDLNamespace at rootNamespace.elements[1].body"⟩],
        .ok (mixedSlots.filterMap Slot.declaration?)) := by
  have hsettled : ∀ d ∈ mixedSlots.filterMap Slot.declaration?, d.IsSettled := by
    simp [mixedSlots, Slot.declaration?, Declaration.IsSettled, Value.isVacant]
  have hfits := Shape.fits_write [("line", .integer 7)] (treeShape mixedSlots)
  obtain ⟨-, hread, hslots⟩ := loadTree_toTree (mixedSlots.filterMap Slot.declaration?)
  exact ⟨hsettled, hread hsettled, hfits, hslots mixedSlots _ rfl hfits⟩

end ProtocolPages
