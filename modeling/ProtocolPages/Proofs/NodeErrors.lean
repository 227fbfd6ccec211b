import ProtocolPages.Proofs.PlaceText
import ProtocolPages.Proofs.Sequence

/-!
# What node errors name

A tree that cannot be read is reported with a defect and the place of a node. Following the place
from the root leads to a node that has the defect, with one exception: when an element of a record,
a protocol or a method has no body, the error names the place of the missing body instead of the
place of the element. Elements at the top of a tree are named rightly.
-/

namespace ProtocolPages

namespace Value

/-- The node that one step leads to. -/
def step? (v : Value) : PlaceStep → Option Value
  | .key name => v.field? name
  | .item index =>
    match v with
    | .list items => items[index]?
    | _ => none

/-- The node that a place leads to. -/
def at? (v : Value) (place : Place) : Option Value :=
  place.foldlM step? v

/-- A place is followed up to any of its nodes and on from there. -/
theorem at?_concat (v : Value) (place : Place) (step : PlaceStep) :
    v.at? (place ++ [step]) = (v.at? place).bind (·.step? step) := by
  simp [at?, List.foldlM_append]

end Value

/-- The node has the defect. Defects of whole texts are no defects of nodes. -/
def Defect.HoldsOf (node : Value) : Defect → Prop
  | .missing key => node.field? key = none
  | .notList => ∀ items, node ≠ .list items
  | .notNode kind => (∀ fields, node ≠ .object fields) ∧ kind = node.kindName
  | .untyped => ∃ fields, node = .object fields ∧
      (fields.lookup "_type" = none ∨ fields.lookup "_type" = some .null)
  | .notParameter type => ∃ fields, node = .object fields ∧ fields.lookup "_type" = some type ∧
      type ≠ .null ∧ type ≠ .text "DDLParameter" ∧ type ≠ .text "DDLReturnValue"
  | .invalidJson _ _ => False
  | .notDocument _ => False
  | .stated _ => False

namespace Node

/-- The keys that lead from node to node, the key of bodies apart. -/
def innerKeys : List String :=
  ["rootNamespace", "elements", "classMembers", "methods", "parameters", "typeDeclaration",
    "methodDeclaration", "declaration", "parentClassName", "value", "variable", "nameSpaceItem",
    "parseTreeItem1", "name", "declarationUse"]

/-- The keys of nodes can be told apart in the text of a place, and none is the key of bodies. -/
theorem innerKeys_plain {key : String} (h : key ∈ innerKeys) :
    Place.PlainKey key ∧ key ≠ "body" := by
  revert key
  decide

end Node

/-- The place leads from the root of the tree to the node, and its text names it. -/
structure Reaches (tree : Value) (place : Place) (node : Value) : Prop where
  /-- Following the place ends at the node. -/
  at_eq : tree.at? place = some node
  /-- The keys on the way can be told apart in a text. -/
  plain : place.Plain

/-- A plain key keeps a place plain. -/
theorem Place.Plain.concat_key {place : Place} {key : String} (h : place.Plain)
    (hkey : PlainKey key) : Place.Plain (place ++ [.key key]) := by
  intro name hname
  rcases List.mem_append.mp hname with hbefore | hlast
  · exact h name hbefore
  · cases List.mem_singleton.mp hlast
    exact hkey

namespace Reaches

variable {tree node inner : Value} {place : Place}

/-- The root is reached by no steps. -/
theorem root : Reaches tree [] tree where
  at_eq := rfl
  plain _ hname := nomatch hname

/-- A node reaches the values of its keys. -/
theorem key {key : String} (h : Reaches tree place node) (hfield : node.field? key = some inner)
    (hkey : Place.PlainKey key) : Reaches tree (place ++ [.key key]) inner where
  at_eq := by rw [Value.at?_concat, h.at_eq]; exact hfield
  plain := h.plain.concat_key hkey

/-- A list reaches its items. -/
theorem item {items : List Value} {index : Nat} (h : Reaches tree place (.list items))
    (hitem : items[index]? = some inner) : Reaches tree (place ++ [.item index]) inner where
  at_eq := by rw [Value.at?_concat, h.at_eq]; exact hitem
  plain name hname := by
    rcases List.mem_append.mp hname with hbefore | hlast
    · exact h.plain name hbefore
    · exact nomatch List.mem_singleton.mp hlast

end Reaches

/-- The error names the body of a node and says that the node has none. -/
def NodeError.NamesMissingBody (e : NodeError) : Prop :=
  e.defect = .missing "body" ∧ e.place.getLast? = some (.key "body")

/-- What there is to say about an error: it names a node with the defect, or it names the body that
an element of the tree does not have. -/
inductive NodeError.Judged (tree : Value) (e : NodeError) : Prop
  /-- The named node exists and has the defect. -/
  | named (node : Value) (hreaches : Reaches tree e.place node) (hdefect : e.defect.HoldsOf node)
      (hbody : ¬e.NamesMissingBody)
  /-- The named body is missing from an element that exists inside a declaration. -/
  | past (outer : Place) (key : String) (index : Nat) (element : Value)
      (hkey : key ∈ ["classMembers", "methods", "parameters"])
      (hreaches : Reaches tree (outer ++ [.key key, .key "elements", .item index]) element)
      (hmissing : element.field? "body" = none)
      (heq : e = ⟨.missing "body", Node.bodyPlace outer key index⟩)

namespace Node

variable {tree node body : Value} {place : Place} {e : NodeError}

/-- Keys that can be followed lead to the node they name. -/
theorem reaches_of_follow {keys : List String} {inner : Value} (h : Reaches tree place node)
    (hkeys : keys ⊆ innerKeys) (hok : follow node place keys = .ok inner) :
    Reaches tree (place ++ keys.map .key) inner := by
  induction keys generalizing node place with
  | nil =>
    cases hok
    simpa using h
  | cons key keys ih =>
    obtain ⟨hkey, hrest⟩ := List.cons_subset.mp hkeys
    cases hfield : node.field? key with
    | none => simp [follow, hfield] at hok
    | some next =>
      simp only [follow, hfield] at hok
      simpa using ih (h.key hfield (innerKeys_plain hkey).1) hrest hok

/-- Where keys cannot be followed, the error names the node that lacks the next key. -/
theorem judged_of_follow {keys : List String} (h : Reaches tree place node)
    (hkeys : keys ⊆ innerKeys) (herror : follow node place keys = .error e) : e.Judged tree := by
  induction keys generalizing node place with
  | nil => exact nomatch herror
  | cons key keys ih =>
    obtain ⟨hkey, hrest⟩ := List.cons_subset.mp hkeys
    cases hfield : node.field? key with
    | none =>
      simp only [follow, hfield] at herror
      cases herror
      refine .named node h hfield ?_
      rintro ⟨hdefect, -⟩
      exact (innerKeys_plain hkey).2 (Defect.missing.inj hdefect)
    | some next =>
      simp only [follow, hfield] at herror
      exact ih (h.key hfield (innerKeys_plain hkey).1) hrest herror

/-- A node that lists elements under a key reaches each of them. -/
theorem reaches_element {key : String} {items : List Value} {index : Nat} {element : Value}
    (h : Reaches tree place node) (hkey : key ∈ innerKeys)
    (hok : elements node place key = .ok items) (hitem : items[index]? = some element) :
    Reaches tree (place ++ [.key key, .key "elements", .item index]) element := by
  cases hfollow : follow node place [key, "elements"] with
  | error e => simp [elements, hfollow, Bind.bind, Except.bind] at hok
  | ok inner =>
    have hinner := reaches_of_follow h (by simp [hkey]; decide) hfollow
    simp only [elements, hfollow, Bind.bind, Except.bind] at hok
    split at hok
    · cases hok
      simpa using hinner.item hitem
    · exact nomatch hok

/-- Where no elements are listed, the error names the node that lacks a key or is no list. -/
theorem judged_of_elements {key : String} (h : Reaches tree place node) (hkey : key ∈ innerKeys)
    (herror : elements node place key = .error e) : e.Judged tree := by
  have hkeys : [key, "elements"] ⊆ innerKeys := by simp [hkey]; decide
  rcases bind_error_cases herror with hfollow | ⟨inner, hfollow, hlist⟩
  · exact judged_of_follow h hkeys hfollow
  · have hinner := reaches_of_follow h hkeys hfollow
    split at hlist
    · exact nomatch hlist
    · next hnot =>
      cases hlist
      exact .named inner hinner hnot fun hbody => nomatch hbody.1

/-- A body that exists is reached. -/
theorem reaches_body {owner outer : Place} {element : Value} (h : Reaches tree owner element)
    (hok : follow element outer ["body"] = .ok body) :
    Reaches tree (owner ++ [.key "body"]) body := by
  cases hfield : element.field? "body" with
  | none => simp [follow, hfield] at hok
  | some inner =>
    simp only [follow, hfield] at hok
    cases hok
    exact h.key hfield (by decide)

/-- An element inside a declaration that has no body is reported at the place of the body. -/
theorem judged_of_inner_body {key : String} {index : Nat} {element : Value}
    (hkey : key ∈ ["classMembers", "methods", "parameters"])
    (h : Reaches tree (place ++ [.key key, .key "elements", .item index]) element)
    (herror : follow element (bodyPlace place key index) ["body"] = .error e) :
    e.Judged tree := by
  cases hfield : element.field? "body" with
  | some inner => simp [follow, hfield] at herror
  | none =>
    simp only [follow, hfield] at herror
    cases herror
    exact .past place key index element hkey h hfield rfl

/-- A node without a type is reported as such. -/
theorem judged_of_typeOf (h : Reaches tree place node) (herror : typeOf node place = .error e) :
    e.Judged tree := by
  cases node with
  | object fields =>
    cases hlookup : fields.lookup "_type" with
    | none =>
      simp only [typeOf, hlookup] at herror
      cases herror
      exact .named _ h ⟨fields, rfl, Or.inl hlookup⟩ fun hbody => nomatch hbody.1
    | some type =>
      cases type with
      | null =>
        simp only [typeOf, hlookup] at herror
        cases herror
        exact .named _ h ⟨fields, rfl, Or.inr hlookup⟩ fun hbody => nomatch hbody.1
      | _ => simp [typeOf, hlookup] at herror
  | _ =>
    cases herror
    exact .named _ h ⟨by simp, rfl⟩ fun hbody => nomatch hbody.1

/-- A type that can be read off a node is the value of its `_type`. -/
theorem exists_fields_of_typeOf {type : Value} (hok : typeOf node place = .ok type) :
    ∃ fields, node = .object fields ∧ fields.lookup "_type" = some type ∧ type ≠ .null := by
  cases node with
  | object fields =>
    refine ⟨fields, rfl, ?_⟩
    cases hlookup : fields.lookup "_type" with
    | none => simp [typeOf, hlookup] at hok
    | some found =>
      cases found with
      | null => simp [typeOf, hlookup] at hok
      | _ =>
        simp only [typeOf, hlookup] at hok
        cases hok
        exact ⟨rfl, nofun⟩
  | _ => simp [typeOf] at hok

/-- A list that is not read to its end has an item that is not read. -/
theorem exists_item_of_readAll {α : Type} {read : Nat → Value → Except NodeError α} {start : Nat}
    {items : List Value} (herror : readAll read start items = .error e) :
    ∃ index item, items[index]? = some item ∧ read (start + index) item = .error e := by
  induction items generalizing start with
  | nil => exact nomatch herror
  | cons item rest ih =>
    rcases bind_error_cases herror with hfirst | ⟨_, _, hothers⟩
    · exact ⟨0, item, rfl, hfirst⟩
    · rcases bind_error_cases hothers with hrest | ⟨_, _, hreturn⟩
      · obtain ⟨index, found, hitem, hread⟩ := ih hrest
        exact ⟨index + 1, found, hitem, by rwa [Nat.add_assoc, Nat.add_comm 1] at hread⟩
      · exact nomatch hreturn

/-- A member that cannot be read is judged. -/
theorem judged_of_readMember {index : Nat} {element : Value}
    (h : Reaches tree (place ++ [.key "classMembers", .key "elements", .item index]) element)
    (herror : readMember place index element = .error e) : e.Judged tree := by
  rcases bind_error_cases herror with hbody | ⟨body, hbody, herror⟩
  · exact judged_of_inner_body (by decide) h hbody
  have hreaches : Reaches tree (bodyPlace place "classMembers" index) body := by
    simpa [bodyPlace] using reaches_body h hbody
  rcases bind_error_cases herror with hname | ⟨_, _, herror⟩
  · exact judged_of_follow hreaches (by decide) hname
  rcases bind_error_cases herror with htype | ⟨_, _, hreturn⟩
  · exact judged_of_follow hreaches (by decide) htype
  · exact nomatch hreturn

/-- A record that cannot be read is judged. -/
theorem judged_of_readRecord (h : Reaches tree place body)
    (herror : readRecord body place = .error e) : e.Judged tree := by
  rcases bind_error_cases herror with hname | ⟨_, _, herror⟩
  · exact judged_of_follow h (by decide) hname
  rcases bind_error_cases herror with hparent | ⟨_, _, herror⟩
  · exact judged_of_follow h (by decide) hparent
  rcases bind_error_cases herror with helements | ⟨items, helements, herror⟩
  · exact judged_of_elements h (by decide) helements
  rcases bind_error_cases herror with hmembers | ⟨_, _, hreturn⟩
  · obtain ⟨index, element, hitem, hread⟩ := exists_item_of_readAll hmembers
    rw [Nat.zero_add] at hread
    exact judged_of_readMember (reaches_element h (by decide) helements hitem) hread
  · exact nomatch hreturn

/-- A type that is neither of the two kinds of parameter. -/
theorem ne_of_isReturn?_eq_none {type : Value} (h : isReturn? type = none) :
    type ≠ .text "DDLParameter" ∧ type ≠ .text "DDLReturnValue" := by
  constructor <;> rintro rfl <;> exact nomatch h

/-- A parameter that cannot be read is judged. -/
theorem judged_of_readParameter {index : Nat} {element : Value}
    (h : Reaches tree (place ++ [.key "parameters", .key "elements", .item index]) element)
    (herror : readParameter place index element = .error e) : e.Judged tree := by
  rcases bind_error_cases herror with hbody | ⟨body, hbody, herror⟩
  · exact judged_of_inner_body (by decide) h hbody
  have hreaches : Reaches tree (bodyPlace place "parameters" index) body := by
    simpa [bodyPlace] using reaches_body h hbody
  rcases bind_error_cases herror with htype | ⟨type, htype, herror⟩
  · exact judged_of_typeOf hreaches htype
  split at herror
  · next hkind =>
    obtain ⟨fields, hfields, hlookup, hnull⟩ := exists_fields_of_typeOf htype
    cases herror
    exact .named body hreaches ⟨fields, hfields, hlookup, hnull, ne_of_isReturn?_eq_none hkind⟩
      fun hbody => nomatch hbody.1
  · rcases bind_error_cases herror with hname | ⟨_, _, herror⟩
    · exact judged_of_follow hreaches (by decide) hname
    rcases bind_error_cases herror with hspelling | ⟨_, _, hreturn⟩
    · exact judged_of_follow hreaches (by decide) hspelling
    · exact nomatch hreturn

/-- A method that cannot be read is judged. -/
theorem judged_of_readMethod {index : Nat} {element : Value}
    (h : Reaches tree (place ++ [.key "methods", .key "elements", .item index]) element)
    (herror : readMethod place index element = .error e) : e.Judged tree := by
  rcases bind_error_cases herror with hbody | ⟨body, hbody, herror⟩
  · exact judged_of_inner_body (by decide) h hbody
  have hreaches : Reaches tree (bodyPlace place "methods" index) body := by
    simpa [bodyPlace] using reaches_body h hbody
  rcases bind_error_cases herror with hname | ⟨_, _, herror⟩
  · exact judged_of_follow hreaches (by decide) hname
  rcases bind_error_cases herror with helements | ⟨items, helements, herror⟩
  · exact judged_of_elements hreaches (by decide) helements
  rcases bind_error_cases herror with hparameters | ⟨_, _, hreturn⟩
  · obtain ⟨index, element, hitem, hread⟩ := exists_item_of_readAll hparameters
    rw [Nat.zero_add] at hread
    exact judged_of_readParameter (reaches_element hreaches (by decide) helements hitem) hread
  · exact nomatch hreturn

/-- A protocol that cannot be read is judged. -/
theorem judged_of_readProtocol (h : Reaches tree place body)
    (herror : readProtocol body place = .error e) : e.Judged tree := by
  rcases bind_error_cases herror with hname | ⟨_, _, herror⟩
  · exact judged_of_follow h (by decide) hname
  rcases bind_error_cases herror with helements | ⟨items, helements, herror⟩
  · exact judged_of_elements h (by decide) helements
  rcases bind_error_cases herror with hmethods | ⟨_, _, hreturn⟩
  · obtain ⟨index, element, hitem, hread⟩ := exists_item_of_readAll hmethods
    rw [Nat.zero_add] at hread
    exact judged_of_readMethod (reaches_element h (by decide) helements hitem) hread
  · exact nomatch hreturn

/-- An element at the top of a tree that cannot be read is judged. If it has no body, the error
names the element itself. -/
theorem judged_of_readElement {index : Nat} {element : Value}
    (h : Reaches tree [.key "rootNamespace", .key "elements", .item index] element)
    (herror : readElement index element = .error e) : e.Judged tree := by
  rcases bind_error_cases herror with hbody | ⟨body, hbody, herror⟩
  · cases hfield : element.field? "body" with
    | some inner => simp [follow, hfield] at hbody
    | none =>
      simp only [follow, hfield] at hbody
      cases hbody
      exact .named element h hfield fun hbody => nomatch hbody.2
  have hreaches := reaches_body h hbody
  rcases bind_error_cases herror with htype | ⟨type, _, herror⟩
  · exact judged_of_typeOf hreaches htype
  split at herror
  · rcases bind_error_cases herror with hrecord | ⟨_, _, hreturn⟩
    · exact judged_of_readRecord hreaches hrecord
    · exact nomatch hreturn
  · rcases bind_error_cases herror with hprotocol | ⟨_, _, hreturn⟩
    · exact judged_of_readProtocol hreaches hprotocol
    · exact nomatch hreturn
  · exact nomatch herror

/-- Elements that are not read to their end have one that is not read. -/
theorem exists_item_of_readElements {start : Nat} {items : List Value}
    (herror : (readElements start items).2 = .error e) :
    ∃ index item, items[index]? = some item ∧ readElement (start + index) item = .error e := by
  induction items generalizing start with
  | nil => exact nomatch herror
  | cons item rest ih =>
    cases hfirst : readElement start item with
    | error e' =>
      simp only [readElements, hfirst] at herror
      cases herror
      exact ⟨0, item, rfl, hfirst⟩
    | ok element =>
      have hrest : (readElements (start + 1) rest).2 = .error e := by
        cases hothers : (readElements (start + 1) rest).2 with
        | error e' => cases element <;> simp_all [readElements, Except.map]
        | ok schema => cases element <;> simp_all [readElements, Except.map]
      obtain ⟨index, found, hitem, hread⟩ := ih hrest
      exact ⟨index + 1, found, hitem, by rwa [Nat.add_assoc, Nat.add_comm 1] at hread⟩

end Node

/-- A tree that cannot be read is judged. -/
theorem Schema.judged_of_ofTree {tree : Value} {e : NodeError} (h : (ofTree tree).2 = .error e) :
    e.Judged tree := by
  cases helements : Node.elements tree [] "rootNamespace" with
  | error e' =>
    simp only [ofTree, helements] at h
    cases h
    exact Node.judged_of_elements .root (by decide) helements
  | ok items =>
    simp only [ofTree, helements] at h
    obtain ⟨index, element, hitem, hread⟩ := Node.exists_item_of_readElements h
    rw [Nat.zero_add] at hread
    exact Node.judged_of_readElement
      (Node.reaches_element .root (by decide) helements hitem) hread

namespace ShapeError

/-- The place that the path of an error names; an error without a path is about the root. -/
def place (e : ShapeError) : Place :=
  (e.path.map Place.ofText).getD []

/-- The path of the error leads to a node of the tree that has the defect. -/
def NamesDefect (tree : Value) (e : ShapeError) : Prop :=
  ∃ node, tree.at? e.place = some node ∧ e.defect.HoldsOf node

/-- The path of the error ends at a body, and the error says that there is none. -/
def NamesMissingBody (e : ShapeError) : Prop :=
  e.defect = .missing "body" ∧ e.place.getLast? = some (.key "body")

end ShapeError

/-- The path of a shape error is read as the place it was made from. -/
theorem NodeError.place_toShapeError {e : NodeError} (hplain : e.place.Plain) :
    e.toShapeError.place = e.place := by
  cases hplace : e.place with
  | nil => simp [toShapeError, ShapeError.place, hplace]
  | cons step rest =>
    rw [hplace] at hplain
    simp [toShapeError, ShapeError.place, hplace, Place.ofText_text hplain]

/-- The shape error of a tree comes from an error at a node. -/
theorem Schema.exists_nodeError_of_loadTree {tree : Value} {e : ShapeError}
    (h : (loadTree tree).2 = .error (.shape e)) :
    ∃ error, (ofTree tree).2 = .error error ∧ error.toShapeError = e := by
  cases hresult : (ofTree tree).2 with
  | ok schema => simp [loadTree, hresult, Except.mapError] at h
  | error error =>
    simp only [loadTree, hresult, Except.mapError, Except.error.injEq, Failure.shape.injEq] at h
    exact ⟨error, rfl, h⟩

/-- **What the error of a tree names.** The path of the error leads to a node that has the defect,
unless the error is that a body is missing and the path ends at that body. Then the element that the
body is missing from stands one step before, in a list of members, methods or parameters. -/
theorem loadTree_namesDefect_iff (tree : Value) (e : ShapeError)
    (h : (Schema.loadTree tree).2 = .error (.shape e)) :
    (e.NamesDefect tree ↔ ¬e.NamesMissingBody) ∧
      (e.NamesMissingBody → ∃ outer key index element,
        key ∈ ["classMembers", "methods", "parameters"] ∧
        e.place = Node.bodyPlace outer key index ∧
        tree.at? (outer ++ [.key key, .key "elements", .item index]) = some element ∧
        element.field? "body" = none) := by
  obtain ⟨error, herror, rfl⟩ := Schema.exists_nodeError_of_loadTree h
  cases Schema.judged_of_ofTree herror with
  | named node hreaches hdefect hbody =>
    have hplace := error.place_toShapeError hreaches.plain
    have hnot : ¬error.toShapeError.NamesMissingBody := by
      rw [ShapeError.NamesMissingBody, hplace]
      exact hbody
    refine ⟨iff_of_true ⟨node, ?_, hdefect⟩ hnot, fun hbody => absurd hbody hnot⟩
    rw [hplace]
    exact hreaches.at_eq
  | past outer key index element hkey hreaches hmissing heq =>
    have hbodyPlace : Node.bodyPlace outer key index =
        (outer ++ [.key key, .key "elements", .item index]) ++ [.key "body"] := by
      simp [Node.bodyPlace]
    have hplain : error.place.Plain := by
      rw [heq, hbodyPlace]
      exact hreaches.plain.concat_key (by decide)
    have hplace : error.toShapeError.place = Node.bodyPlace outer key index := by
      rw [error.place_toShapeError hplain, heq]
    have hnames : error.toShapeError.NamesMissingBody := by
      refine ⟨by rw [heq]; rfl, ?_⟩
      rw [hplace, hbodyPlace, List.getLast?_concat]
    -- The element is there and the body is not, so the path leads nowhere.
    have hnowhere : tree.at? error.toShapeError.place = none := by
      rw [hplace, hbodyPlace, Value.at?_concat, hreaches.at_eq]
      exact hmissing
    refine ⟨iff_of_false ?_ (not_not_intro hnames),
      fun _ => ⟨outer, key, index, element, hkey, hplace, hreaches.at_eq, hmissing⟩⟩
    rintro ⟨node, hat, -⟩
    rw [hnowhere] at hat
    exact nomatch hat

/-- A tree with one record, whose only member is the given element. -/
def singleMemberTree (element : Value) : Value :=
  .object [("rootNamespace", .object [("elements", .list [.object [("body", .object
    [("_type", .text "DDLClassDeclaration"),
      ("typeDeclaration", .object [("declaration", .object [("nameSpaceItem", .object
        [("parseTreeItem1", .object [("name", .object [("value", .text "A")])])])])]),
      ("parentClassName", .object [("value", .text "")]),
      ("classMembers", .object [("elements", .list [element])])])]])])]

/-- A member that has a body and no type is named. -/
theorem namesDefect_untyped_member :
    let tree := singleMemberTree (.object [("body", .object [("nameSpaceItem", .object
      [("parseTreeItem1", .object [("name", .object [("value", .text "x")])])])])])
    let e : ShapeError := ⟨.missing "declarationUse",
      some "rootNamespace.elements[0].body.classMembers.elements[0].body"⟩
    (Schema.loadTree tree).2 = .error (.shape e) ∧ e.NamesDefect tree := by
  intro tree e
  have herror : (Schema.loadTree tree).2 = .error (.shape e) := rfl
  refine ⟨herror, (loadTree_namesDefect_iff tree e herror).1.mpr ?_⟩
  rintro ⟨hdefect, -⟩
  exact absurd (Defect.missing.inj hdefect) (by decide)

/-- A member without a body is not named: the path of the error leads nowhere. -/
theorem not_namesDefect_bodiless_member :
    let tree := singleMemberTree (.object [])
    let e : ShapeError := ⟨.missing "body",
      some "rootNamespace.elements[0].body.classMembers.elements[0].body"⟩
    (Schema.loadTree tree).2 = .error (.shape e) ∧ ¬e.NamesDefect tree := by
  intro tree e
  refine ⟨rfl, ?_⟩
  rintro ⟨node, hat, -⟩
  have hnowhere : tree.at? e.place = none := rfl
  rw [hnowhere] at hat
  exact nomatch hat

end ProtocolPages
