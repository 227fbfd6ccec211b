import ProtocolPages.Proofs.Sequence
import ProtocolPages.Schema.Node
import Mathlib.Data.List.Basic

/-!
# Which trees can be read

A grammar of parse trees says which nodes a tree has and which keys each of them needs. A tree can
be read exactly if it follows the grammar, except that a method is known by where it stands and not
by what it says that it is. The elements at the top of a tree are read one after another, so the
first of them that cannot be read on its own decides how reading fails, whatever comes behind it.
-/

namespace ProtocolPages

/-! ## The grammar of parse trees -/

namespace Value

/-- Following the keys from one object to the next leads from the first node to the last. -/
inductive Leads : Value → List String → Value → Prop
  | nil (v : Value) : Leads v [] v
  | cons {v inner w : Value} {key : String} {keys : List String}
      (hfield : v.field? key = some inner) (hrest : Leads inner keys w) : Leads v (key :: keys) w

/-- Something stands at the end of the keys. -/
def Has (v : Value) (keys : List String) : Prop :=
  ∃ w, v.Leads keys w

/-- A name stands at the end of the keys. -/
def HasName (v : Value) (keys : List String) : Prop :=
  v.Has (keys ++ ["nameSpaceItem", "parseTreeItem1", "name", "value"])

/-- The node uses a type. -/
def HasType (v : Value) : Prop :=
  v.Has ["declarationUse", "name", "value"]

/-- The item is a node whose body is as asked. -/
def IsElement (IsBody : Value → Prop) (item : Value) : Prop :=
  ∃ body, item.field? "body" = some body ∧ IsBody body

/-- The node lists elements under the key, and the body of each is as asked. -/
def ListsElements (v : Value) (key : String) (IsBody : Value → Prop) : Prop :=
  ∃ items, v.Leads [key, "elements"] (.list items) ∧ ∀ item ∈ items, IsElement IsBody item

/-- The body of a member of a record. -/
structure IsMember (body : Value) : Prop where
  name : body.HasName []
  type : body.HasType

/-- The body of a record. -/
structure IsRecord (body : Value) : Prop where
  kind : body.field? "_type" = some (.text "DDLClassDeclaration")
  name : body.HasName ["typeDeclaration", "declaration"]
  parent : body.Has ["parentClassName", "value"]
  members : body.ListsElements "classMembers" IsMember

/-- The body of a parameter or a return value. Its tag is looked at only when directions matter, so
the grammar does not ask for one. -/
structure IsParameter (body : Value) : Prop where
  kind : body.field? "_type" = some (.text "DDLParameter") ∨
    body.field? "_type" = some (.text "DDLReturnValue")
  name : body.HasName ["variable"]
  type : body.HasType

/-- The body of a method; `Says` is what the grammar asks of its `_type`. -/
structure IsMethod (Says : Option Value → Prop) (body : Value) : Prop where
  kind : Says (body.field? "_type")
  name : body.HasName ["methodDeclaration", "declaration"]
  parameters : body.ListsElements "parameters" IsParameter

/-- The body of a protocol. -/
structure IsProtocol (Says : Option Value → Prop) (body : Value) : Prop where
  kind : body.field? "_type" = some (.text "DDLProtocolDeclaration")
  name : body.HasName ["declaration"]
  methods : body.ListsElements "methods" (IsMethod Says)

/-- The body of an element at the top of a tree. -/
inductive IsDeclaration (Says : Option Value → Prop) (body : Value) : Prop
  | record (h : body.IsRecord)
  | protocol (h : body.IsProtocol Says)
  | other (type : Value) (htype : body.field? "_type" = some type) (hnull : type ≠ .null)
      (hrecord : type ≠ .text "DDLClassDeclaration")
      (hprotocol : type ≠ .text "DDLProtocolDeclaration")

/-- The root of a tree. -/
def IsTree (Says : Option Value → Prop) (v : Value) : Prop :=
  v.ListsElements "rootNamespace" (IsDeclaration Says)

/-- A method says that it is one. -/
def SaysMethod (type : Option Value) : Prop :=
  type = some (.text "DDLMethod")

/-- Nothing is asked of what a method says that it is. -/
def SaysAnything (_ : Option Value) : Prop :=
  True

end Value

/-! ## Readers that succeed -/

namespace Node

open Value

variable {node body element : Value} {place : Place}

/-- Keys are followed as far as they lead. -/
theorem follow_eq_ok_iff {keys : List String} {w : Value} :
    follow node place keys = .ok w ↔ node.Leads keys w := by
  induction keys generalizing node place with
  | nil =>
    constructor
    · intro h
      cases h
      exact .nil _
    · intro h
      cases h
      rfl
  | cons key keys ih =>
    constructor
    · intro h
      cases hfield : node.field? key with
      | none => simp [follow, hfield] at h
      | some inner =>
        simp only [follow, hfield] at h
        exact .cons hfield (ih.mp h)
    · intro h
      cases h with
      | cons hfield hrest =>
        simp only [follow, hfield]
        exact ih.mpr hrest

/-- One key is followed to its value. -/
theorem follow_single_eq_ok_iff {key : String} {w : Value} :
    follow node place [key] = .ok w ↔ node.field? key = some w := by
  rw [follow_eq_ok_iff]
  constructor
  · intro h
    cases h with
    | cons hfield hrest =>
      cases hrest
      exact hfield
  · intro h
    exact .cons h (.nil w)

/-- Elements are found where the keys lead to a list. -/
theorem elements_eq_ok_iff {key : String} {items : List Value} :
    elements node place key = .ok items ↔ node.Leads [key, "elements"] (.list items) := by
  rw [elements, bind_eq_ok_iff]
  constructor
  · rintro ⟨inner, hfollow, hlist⟩
    split at hlist
    · cases hlist
      exact follow_eq_ok_iff.mp hfollow
    · cases hlist
  · intro h
    exact ⟨.list items, follow_eq_ok_iff.mpr h, rfl⟩

/-- A node says what it is if it has a `_type` other than null. -/
theorem typeOf_eq_ok_iff {type : Value} :
    typeOf node place = .ok type ↔ node.field? "_type" = some type ∧ type ≠ .null := by
  cases node with
  | object fields =>
    change typeOf (.object fields) place = .ok type ↔
      fields.lookup "_type" = some type ∧ type ≠ .null
    cases hlookup : fields.lookup "_type" with
    | none => simp [typeOf, hlookup]
    | some found =>
      cases found with
      | null =>
        simp only [typeOf, hlookup, reduceCtorEq, Option.some.injEq, false_iff, not_and, ne_eq,
          not_not]
        exact fun h => h.symm
      | _ =>
        simp only [typeOf, hlookup, Except.ok.injEq, Option.some.injEq, iff_self_and]
        rintro rfl
        simp
  | _ => simp [typeOf, Value.field?]

/-- If a reader reads what satisfies a condition, lists are read if all their items satisfy it. -/
theorem exists_readAll_iff {α : Type} {read : Nat → Value → Except NodeError α}
    {Readable : Value → Prop} (hread : ∀ index v, (∃ a, read index v = .ok a) ↔ Readable v)
    (index : Nat) (items : List Value) :
    (∃ as, readAll read index items = .ok as) ↔ ∀ item ∈ items, Readable item := by
  induction items generalizing index with
  | nil => exact iff_of_true ⟨[], rfl⟩ (by simp)
  | cons item rest ih =>
    rw [List.forall_mem_cons, ← hread index item, ← ih (index + 1)]
    constructor
    · rintro ⟨as, has⟩
      obtain ⟨first, hfirst, hrest⟩ := bind_eq_ok_iff.mp has
      obtain ⟨others, hothers, -⟩ := bind_eq_ok_iff.mp hrest
      exact ⟨⟨first, hfirst⟩, ⟨others, hothers⟩⟩
    · rintro ⟨⟨first, hfirst⟩, ⟨others, hothers⟩⟩
      exact ⟨first :: others, by rw [readAll, hfirst, hothers]; rfl⟩

/-- Elements are read one by one if the reader of bodies reads what satisfies a condition. -/
theorem exists_elements_iff {α : Type} {read : Nat → Value → Except NodeError α} {key : String}
    {IsBody : Value → Prop} (place : Place)
    (hread : ∀ index v, (∃ a, read index v = .ok a) ↔ IsElement IsBody v) :
    (∃ as items, elements node place key = .ok items ∧ readAll read 0 items = .ok as) ↔
      node.ListsElements key IsBody := by
  constructor
  · rintro ⟨as, items, hitems, has⟩
    exact ⟨items, elements_eq_ok_iff.mp hitems, (exists_readAll_iff hread 0 items).mp ⟨as, has⟩⟩
  · rintro ⟨items, hitems, hall⟩
    obtain ⟨as, has⟩ := (exists_readAll_iff hread 0 items).mpr hall
    exact ⟨as, items, elements_eq_ok_iff.mpr hitems, has⟩

/-- Members are read from the elements that the grammar calls members. -/
theorem exists_readMember_iff (place : Place) (index : Nat) (element : Value) :
    (∃ m, readMember place index element = .ok m) ↔ IsElement IsMember element := by
  constructor
  · rintro ⟨m, hm⟩
    obtain ⟨body, hbody, hm⟩ := bind_eq_ok_iff.mp hm
    obtain ⟨name, hname, hm⟩ := bind_eq_ok_iff.mp hm
    obtain ⟨type, htype, -⟩ := bind_eq_ok_iff.mp hm
    exact ⟨body, follow_single_eq_ok_iff.mp hbody,
      ⟨name, follow_eq_ok_iff.mp hname⟩, ⟨type, follow_eq_ok_iff.mp htype⟩⟩
  · rintro ⟨body, hbody, ⟨name, hname⟩, ⟨type, htype⟩⟩
    refine ⟨⟨name, type⟩, bind_eq_ok_iff.mpr ⟨body, follow_single_eq_ok_iff.mpr hbody, ?_⟩⟩
    refine bind_eq_ok_iff.mpr ⟨name, follow_eq_ok_iff.mpr hname, ?_⟩
    exact bind_eq_ok_iff.mpr ⟨type, follow_eq_ok_iff.mpr htype, rfl⟩

/-- Records are read from the bodies that the grammar calls records. -/
theorem exists_readRecord_iff (hkind : body.field? "_type" = some (.text "DDLClassDeclaration")) :
    (∃ r, readRecord body place = .ok r) ↔ body.IsRecord := by
  constructor
  · rintro ⟨r, hr⟩
    obtain ⟨name, hname, hr⟩ := bind_eq_ok_iff.mp hr
    obtain ⟨parent, hparent, hr⟩ := bind_eq_ok_iff.mp hr
    obtain ⟨items, hitems, hr⟩ := bind_eq_ok_iff.mp hr
    obtain ⟨members, hmembers, -⟩ := bind_eq_ok_iff.mp hr
    exact ⟨hkind, ⟨name, follow_eq_ok_iff.mp hname⟩, ⟨parent, follow_eq_ok_iff.mp hparent⟩,
      (exists_elements_iff place (exists_readMember_iff place)).mp
        ⟨members, items, hitems, hmembers⟩⟩
  · rintro ⟨-, ⟨name, hname⟩, ⟨parent, hparent⟩, hlisted⟩
    obtain ⟨members, items, hitems, hmembers⟩ :=
      (exists_elements_iff place (exists_readMember_iff place)).mpr hlisted
    refine ⟨⟨name, parent.orEmpty, members⟩,
      bind_eq_ok_iff.mpr ⟨name, follow_eq_ok_iff.mpr hname, ?_⟩⟩
    refine bind_eq_ok_iff.mpr ⟨parent, follow_eq_ok_iff.mpr hparent, ?_⟩
    refine bind_eq_ok_iff.mpr ⟨items, hitems, ?_⟩
    exact bind_eq_ok_iff.mpr ⟨members, hmembers, rfl⟩

/-- Two types say that a node is a parameter. -/
theorem isReturn?_eq_some_iff {type : Value} :
    (∃ isReturn, isReturn? type = some isReturn) ↔
      type = .text "DDLParameter" ∨ type = .text "DDLReturnValue" := by
  constructor
  · rintro ⟨isReturn, h⟩
    unfold isReturn? at h
    split at h
    · exact Or.inl rfl
    · exact Or.inr rfl
    · cases h
  · rintro (rfl | rfl)
    · exact ⟨false, rfl⟩
    · exact ⟨true, rfl⟩

/-- Parameters are read from the elements that the grammar calls parameters. -/
theorem exists_readParameter_iff (place : Place) (index : Nat) (element : Value) :
    (∃ p, readParameter place index element = .ok p) ↔ IsElement IsParameter element := by
  constructor
  · rintro ⟨p, hp⟩
    obtain ⟨body, hbody, hp⟩ := bind_eq_ok_iff.mp hp
    obtain ⟨type, htype, hp⟩ := bind_eq_ok_iff.mp hp
    obtain ⟨hlookup, -⟩ := typeOf_eq_ok_iff.mp htype
    split at hp
    · cases hp
    · next isReturn hreturn =>
      obtain ⟨name, hname, hp⟩ := bind_eq_ok_iff.mp hp
      obtain ⟨spelling, hspelling, -⟩ := bind_eq_ok_iff.mp hp
      have hkind := isReturn?_eq_some_iff.mp ⟨isReturn, hreturn⟩
      refine ⟨body, follow_single_eq_ok_iff.mp hbody, ?_, ⟨name, follow_eq_ok_iff.mp hname⟩,
        ⟨spelling, follow_eq_ok_iff.mp hspelling⟩⟩
      rcases hkind with rfl | rfl
      · exact Or.inl hlookup
      · exact Or.inr hlookup
  · rintro ⟨body, hbody, hkind, ⟨name, hname⟩, ⟨spelling, hspelling⟩⟩
    obtain ⟨type, hlookup, htype⟩ : ∃ type, body.field? "_type" = some type ∧
        (type = .text "DDLParameter" ∨ type = .text "DDLReturnValue") := by
      rcases hkind with h | h
      · exact ⟨_, h, Or.inl rfl⟩
      · exact ⟨_, h, Or.inr rfl⟩
    have hnull : type ≠ .null := by rcases htype with rfl | rfl <;> simp
    obtain ⟨isReturn, hreturn⟩ := isReturn?_eq_some_iff.mpr htype
    refine ⟨⟨name, spelling, (body.field? "type").getD .null, isReturn⟩,
      bind_eq_ok_iff.mpr ⟨body, follow_single_eq_ok_iff.mpr hbody, ?_⟩⟩
    refine bind_eq_ok_iff.mpr ⟨type, typeOf_eq_ok_iff.mpr ⟨hlookup, hnull⟩, ?_⟩
    rw [hreturn]
    refine bind_eq_ok_iff.mpr ⟨name, follow_eq_ok_iff.mpr hname, ?_⟩
    exact bind_eq_ok_iff.mpr ⟨spelling, follow_eq_ok_iff.mpr hspelling, rfl⟩

/-- Methods are read from the elements that the grammar calls methods, whatever they say that they
are. -/
theorem exists_readMethod_iff (place : Place) (index : Nat) (element : Value) :
    (∃ m, readMethod place index element = .ok m) ↔
      IsElement (IsMethod SaysAnything) element := by
  constructor
  · rintro ⟨m, hm⟩
    obtain ⟨body, hbody, hm⟩ := bind_eq_ok_iff.mp hm
    obtain ⟨name, hname, hm⟩ := bind_eq_ok_iff.mp hm
    obtain ⟨items, hitems, hm⟩ := bind_eq_ok_iff.mp hm
    obtain ⟨parameters, hparameters, -⟩ := bind_eq_ok_iff.mp hm
    exact ⟨body, follow_single_eq_ok_iff.mp hbody, trivial, ⟨name, follow_eq_ok_iff.mp hname⟩,
      (exists_elements_iff _ (exists_readParameter_iff _)).mp
        ⟨parameters, items, hitems, hparameters⟩⟩
  · rintro ⟨body, hbody, -, ⟨name, hname⟩, hlisted⟩
    obtain ⟨parameters, items, hitems, hparameters⟩ :=
      (exists_elements_iff (bodyPlace place "methods" index)
        (exists_readParameter_iff (bodyPlace place "methods" index))).mpr hlisted
    refine ⟨⟨name, parameters⟩,
      bind_eq_ok_iff.mpr ⟨body, follow_single_eq_ok_iff.mpr hbody, ?_⟩⟩
    refine bind_eq_ok_iff.mpr ⟨name, follow_eq_ok_iff.mpr hname, ?_⟩
    refine bind_eq_ok_iff.mpr ⟨items, hitems, ?_⟩
    exact bind_eq_ok_iff.mpr ⟨parameters, hparameters, rfl⟩

/-- Protocols are read from the bodies that the grammar calls protocols. -/
theorem exists_readProtocol_iff
    (hkind : body.field? "_type" = some (.text "DDLProtocolDeclaration")) :
    (∃ p, readProtocol body place = .ok p) ↔ body.IsProtocol SaysAnything := by
  constructor
  · rintro ⟨p, hp⟩
    obtain ⟨name, hname, hp⟩ := bind_eq_ok_iff.mp hp
    obtain ⟨items, hitems, hp⟩ := bind_eq_ok_iff.mp hp
    obtain ⟨methods, hmethods, -⟩ := bind_eq_ok_iff.mp hp
    exact ⟨hkind, ⟨name, follow_eq_ok_iff.mp hname⟩,
      (exists_elements_iff place (exists_readMethod_iff place)).mp
        ⟨methods, items, hitems, hmethods⟩⟩
  · rintro ⟨-, ⟨name, hname⟩, hlisted⟩
    obtain ⟨methods, items, hitems, hmethods⟩ :=
      (exists_elements_iff place (exists_readMethod_iff place)).mpr hlisted
    refine ⟨⟨name.orEmpty, methods⟩,
      bind_eq_ok_iff.mpr ⟨name, follow_eq_ok_iff.mpr hname, ?_⟩⟩
    refine bind_eq_ok_iff.mpr ⟨items, hitems, ?_⟩
    exact bind_eq_ok_iff.mpr ⟨methods, hmethods, rfl⟩

/-- Elements at the top of a tree are read if the grammar calls their bodies declarations. -/
theorem exists_readElement_iff (index : Nat) (element : Value) :
    (∃ e, readElement index element = .ok e) ↔
      IsElement (IsDeclaration SaysAnything) element := by
  constructor
  · rintro ⟨e, he⟩
    obtain ⟨body, hbody, he⟩ := bind_eq_ok_iff.mp he
    obtain ⟨type, htype, he⟩ := bind_eq_ok_iff.mp he
    obtain ⟨hkind, hnull⟩ := typeOf_eq_ok_iff.mp htype
    refine ⟨body, follow_single_eq_ok_iff.mp hbody, ?_⟩
    split at he
    · obtain ⟨r, hr, -⟩ := bind_eq_ok_iff.mp he
      exact .record ((exists_readRecord_iff hkind).mp ⟨r, hr⟩)
    · obtain ⟨p, hp, -⟩ := bind_eq_ok_iff.mp he
      exact .protocol ((exists_readProtocol_iff hkind).mp ⟨p, hp⟩)
    · next hrecord hprotocol => exact .other type hkind hnull hrecord hprotocol
  · rintro ⟨body, hbody, hdeclaration⟩
    have hfollow (outer : Place) : follow element outer ["body"] = .ok body :=
      follow_single_eq_ok_iff.mpr hbody
    cases hdeclaration with
    | record h =>
      obtain ⟨r, hr⟩ := (exists_readRecord_iff h.kind).mpr h
      refine ⟨.declared (.record r), bind_eq_ok_iff.mpr ⟨body, hfollow _, ?_⟩⟩
      refine bind_eq_ok_iff.mpr ⟨_, typeOf_eq_ok_iff.mpr ⟨h.kind, by simp⟩, ?_⟩
      exact bind_eq_ok_iff.mpr ⟨r, hr, rfl⟩
    | protocol h =>
      obtain ⟨p, hp⟩ := (exists_readProtocol_iff h.kind).mpr h
      refine ⟨.declared (.protocol p), bind_eq_ok_iff.mpr ⟨body, hfollow _, ?_⟩⟩
      refine bind_eq_ok_iff.mpr ⟨_, typeOf_eq_ok_iff.mpr ⟨h.kind, by simp⟩, ?_⟩
      exact bind_eq_ok_iff.mpr ⟨p, hp, rfl⟩
    | other type htype hnull hrecord hprotocol =>
      refine ⟨.skipped type, bind_eq_ok_iff.mpr ⟨body, hfollow _, ?_⟩⟩
      refine bind_eq_ok_iff.mpr ⟨type, typeOf_eq_ok_iff.mpr ⟨htype, hnull⟩, ?_⟩
      split
      · exact absurd rfl hrecord
      · exact absurd rfl hprotocol
      · rfl

end Node

/-! ## Errors move with the node -/

/-- The same error in a tree where the node stands further down. -/
def NodeError.moved (base : Place) (e : NodeError) : NodeError :=
  ⟨e.defect, base ++ e.place⟩

namespace Node

open Value

variable {node body element : Value} (base place : Place)

/-- The body of an element moves with the place of its owner. -/
theorem bodyPlace_append (key : String) (index : Nat) :
    bodyPlace (base ++ place) key index = base ++ bodyPlace place key index := by
  simp [bodyPlace]

/-- Keys fail where they fail in the node. -/
theorem follow_append (keys : List String) :
    follow node (base ++ place) keys = (follow node place keys).mapError (.moved base) := by
  induction keys generalizing node place with
  | nil => rfl
  | cons key keys ih =>
    cases hfield : node.field? key with
    | none =>
      simp only [follow, hfield]
      rfl
    | some inner =>
      simp only [follow, hfield]
      rw [List.append_assoc, ih]

/-- Elements fail where they fail in the node. -/
theorem elements_append (key : String) :
    elements node (base ++ place) key = (elements node place key).mapError (.moved base) := by
  rw [elements, elements, follow_append, mapError_bind]
  congr 1
  funext inner
  cases inner with
  | list items => rfl
  | _ => simp [Except.mapError, NodeError.moved]

/-- A node fails to say what it is where it stands. -/
theorem typeOf_append :
    typeOf node (base ++ place) = (typeOf node place).mapError (.moved base) := by
  unfold typeOf
  split
  · split <;> rfl
  · rfl

/-- Items fail where they fail in the list. -/
theorem readAll_append {α : Type} {moved read : Nat → Value → Except NodeError α}
    (hread : ∀ index v, moved index v = (read index v).mapError (.moved base)) (index : Nat)
    (items : List Value) :
    readAll moved index items = (readAll read index items).mapError (.moved base) := by
  induction items generalizing index with
  | nil => rfl
  | cons item rest ih => simp only [readAll, hread, ih, mapError_bind, mapError_pure]

/-- Members fail where they fail in the record. -/
theorem readMember_append (index : Nat) (element : Value) :
    readMember (base ++ place) index element =
      (readMember place index element).mapError (.moved base) := by
  simp only [readMember, bodyPlace_append, follow_append, mapError_bind, mapError_pure]

/-- Records fail where they fail in their body. -/
theorem readRecord_append :
    readRecord body (base ++ place) = (readRecord body place).mapError (.moved base) := by
  simp only [readRecord, follow_append, elements_append, mapError_bind, mapError_pure,
    readAll_append base (readMember_append base place)]

/-- Parameters fail where they fail in the method. -/
theorem readParameter_append (index : Nat) (element : Value) :
    readParameter (base ++ place) index element =
      (readParameter place index element).mapError (.moved base) := by
  simp only [readParameter, bodyPlace_append, follow_append, typeOf_append, mapError_bind]
  congr 1
  funext body
  congr 1
  funext type
  cases isReturn? type with
  | none => rfl
  | some isReturn => simp only [mapError_bind, mapError_pure]

/-- Methods fail where they fail in the protocol. -/
theorem readMethod_append (index : Nat) (element : Value) :
    readMethod (base ++ place) index element =
      (readMethod place index element).mapError (.moved base) := by
  simp only [readMethod, bodyPlace_append, follow_append, elements_append, mapError_bind,
    mapError_pure, readAll_append base (readParameter_append base _)]

/-- Protocols fail where they fail in their body. -/
theorem readProtocol_append :
    readProtocol body (base ++ place) = (readProtocol body place).mapError (.moved base) := by
  simp only [readProtocol, follow_append, elements_append, mapError_bind, mapError_pure,
    readAll_append base (readMethod_append base place)]

/-- The place of an element at the top of a tree. -/
def elementPlace (index : Nat) : Place :=
  [.key "rootNamespace", .key "elements", .item index]

/-- Read the body of an element at the top of a tree. -/
def readBody (body : Value) (place : Place) : Except NodeError Element := do
  match ← typeOf body place with
  | .text "DDLClassDeclaration" => return .declared (.record (← readRecord body place))
  | .text "DDLProtocolDeclaration" => return .declared (.protocol (← readProtocol body place))
  | other => return .skipped other

/-- Bodies fail where they fail in the element. -/
theorem readBody_append :
    readBody body (base ++ place) = (readBody body place).mapError (.moved base) := by
  rw [readBody, readBody, typeOf_append, mapError_bind]
  congr 1
  funext type
  split
  · rw [readRecord_append, mapError_bind]
    rfl
  · rw [readProtocol_append, mapError_bind]
    rfl
  · rfl

/-- Read an element apart from the tree that it stands in. -/
def readApart (element : Value) : Except NodeError Element := do
  readBody (← follow element [] ["body"]) [.key "body"]

/-- An element at the top of a tree fails where it fails apart from the tree. -/
theorem readElement_eq_readApart (index : Nat) (element : Value) :
    readElement index element = (readApart element).mapError (.moved (elementPlace index)) := by
  have hfollow : follow element (elementPlace index) ["body"] =
      (follow element [] ["body"]).mapError (.moved (elementPlace index)) :=
    follow_append (elementPlace index) [] ["body"]
  have hbody (body : Value) : readBody body (elementPlace index ++ [.key "body"]) =
      (readBody body [.key "body"]).mapError (.moved (elementPlace index)) :=
    readBody_append (elementPlace index) [.key "body"]
  calc readElement index element
      = follow element (elementPlace index) ["body"] >>=
          fun body => readBody body (elementPlace index ++ [.key "body"]) := rfl
    _ = (readApart element).mapError (.moved (elementPlace index)) := by
      rw [hfollow, readApart, mapError_bind]
      simp only [hbody]

/-! ## Elements one after another -/

/-- What is reported about an element at the top of a tree: it is skipped if its body says that it
is neither a record nor a protocol. -/
def skipsOf (index : Nat) (element : Value) : Log :=
  match (element.field? "body").bind (·.field? "_type") with
  | none => []
  | some (.text "DDLClassDeclaration") => []
  | some (.text "DDLProtocolDeclaration") => []
  | some type => [skipRecord index type]

/-- What is reported about elements, counting from `index`. -/
def skipsFrom (index : Nat) (items : List Value) : Log :=
  (items.zipIdx index).flatMap fun (item, i) => skipsOf i item

/-- An element of another kind is reported as skipped. -/
theorem skipsOf_other {index : Nat} {item type : Value}
    (htype : (item.field? "body").bind (·.field? "_type") = some type)
    (hrecord : type ≠ .text "DDLClassDeclaration")
    (hprotocol : type ≠ .text "DDLProtocolDeclaration") :
    skipsOf index item = [skipRecord index type] := by
  unfold skipsOf
  rw [htype]
  split
  · next hnone => cases hnone
  · next htext => exact absurd (Option.some.inj htext) hrecord
  · next htext => exact absurd (Option.some.inj htext) hprotocol
  · next hother => rw [Option.some.inj hother]

/-- The declaration that an element amounts to, if any. -/
def Element.declaration? : Element → Option Declaration
  | declared d => some d
  | skipped _ => none

/-- An element that is read is one step of reading all of them. -/
theorem readElements_cons {index : Nat} {item : Value} {e : Element} (rest : List Value)
    (h : readElement index item = .ok e) :
    readElements index (item :: rest) =
      (skipsOf index item ++ (readElements (index + 1) rest).1,
        (readElements (index + 1) rest).2.map (e.declaration?.toList ++ ·)) := by
  obtain ⟨body, hbody, hread⟩ := bind_eq_ok_iff.mp h
  obtain ⟨type, htype, hread⟩ := bind_eq_ok_iff.mp hread
  have hfound : (item.field? "body").bind (·.field? "_type") = some type := by
    rw [follow_single_eq_ok_iff.mp hbody]
    exact (typeOf_eq_ok_iff.mp htype).1
  simp only [readElements, h]
  split at hread
  · obtain ⟨r, -, hr⟩ := bind_eq_ok_iff.mp hread
    cases hr
    simp only [skipsOf, hfound]
    rfl
  · obtain ⟨p, -, hp⟩ := bind_eq_ok_iff.mp hread
    cases hp
    simp only [skipsOf, hfound]
    rfl
  · next hrecord hprotocol =>
    cases hread
    rw [skipsOf_other hfound hrecord hprotocol]
    cases (readElements (index + 1) rest).2 <;> rfl

/-- Elements that can be read are reported and read, and then comes the rest. -/
theorem readElements_append {before : List Value}
    (hbefore : ∀ item ∈ before, IsElement (IsDeclaration SaysAnything) item) (index : Nat)
    (rest : List Value) :
    ∃ schema, readElements index (before ++ rest) =
      (skipsFrom index before ++ (readElements (index + before.length) rest).1,
        (readElements (index + before.length) rest).2.map (schema ++ ·)) := by
  induction before generalizing index with
  | nil =>
    refine ⟨[], ?_⟩
    cases hrest : readElements index rest with
    | mk log result => cases result <;> simp [hrest, skipsFrom, Except.map]
  | cons item before ih =>
    obtain ⟨hitem, hothers⟩ := List.forall_mem_cons.mp hbefore
    obtain ⟨e, he⟩ := (exists_readElement_iff index item).mpr hitem
    obtain ⟨schema, hschema⟩ := ih hothers (index + 1)
    refine ⟨e.declaration?.toList ++ schema, ?_⟩
    have hlength : index + (item :: before).length = index + 1 + before.length := by
      simp only [List.length_cons]
      omega
    rw [List.cons_append, readElements_cons _ he, hschema, hlength]
    cases (readElements (index + 1 + before.length) rest).2 <;>
      simp [skipsFrom, List.zipIdx_cons, Except.map]

end Node

/-! ## Whole trees -/

/-- A tree with the given elements and nothing else. -/
def Value.treeOf (items : List Value) : Value :=
  .object [("rootNamespace", .object [("elements", .list items)])]

/-- The elements of such a tree are the given ones. -/
theorem Value.leads_treeOf (items : List Value) :
    (treeOf items).Leads ["rootNamespace", "elements"] (.list items) :=
  .cons rfl (.cons rfl (.nil _))

/-- Keys lead to one node at most. -/
theorem Value.Leads.unique {v w w' : Value} {keys : List String} (h : v.Leads keys w)
    (h' : v.Leads keys w') : w = w' := by
  induction h with
  | nil v =>
    cases h'
    rfl
  | cons hfield _ ih =>
    cases h' with
    | cons hfield' hrest' =>
      cases hfield.symm.trans hfield'
      exact ih hrest'

/-- Whether a value is a tree depends on each of its elements alone. -/
theorem Value.isTree_iff_of_leads {Says : Option Value → Prop} {tree : Value} {items : List Value}
    (h : tree.Leads ["rootNamespace", "elements"] (.list items)) :
    tree.IsTree Says ↔ ∀ item ∈ items, IsElement (IsDeclaration Says) item := by
  constructor
  · rintro ⟨items', hleads, hall⟩
    cases h.unique hleads
    exact hall
  · intro hall
    exact ⟨items, h, hall⟩

namespace Schema

open Value

variable {tree : Value} {items : List Value}

/-- A tree whose elements are a list is read element by element. -/
theorem ofTree_of_leads (h : tree.Leads ["rootNamespace", "elements"] (.list items)) :
    ofTree tree = Node.readElements 0 items := by
  have helements : Node.elements tree [] "rootNamespace" = .ok items :=
    Node.elements_eq_ok_iff.mpr h
  rw [ofTree, helements]

/-- Elements that can all be read make a tree that can be read. -/
theorem ofTree_of_readable (h : tree.Leads ["rootNamespace", "elements"] (.list items))
    (hall : ∀ item ∈ items, IsElement (IsDeclaration SaysAnything) item) :
    ∃ schema, ofTree tree = (Node.skipsFrom 0 items, .ok schema) := by
  obtain ⟨schema, hread⟩ := Node.readElements_append hall 0 []
  refine ⟨schema, ?_⟩
  rw [ofTree_of_leads h, ← List.append_nil items, hread]
  simp [Node.readElements, Except.map]

/-- The first element that cannot be read ends the reading with the error that it gives apart from
the tree, moved to where it stands. -/
theorem ofTree_of_unreadable {before after : List Value} {item : Value}
    (h : tree.Leads ["rootNamespace", "elements"] (.list (before ++ item :: after)))
    (hbefore : ∀ x ∈ before, IsElement (IsDeclaration SaysAnything) x)
    (hitem : ¬IsElement (IsDeclaration SaysAnything) item) :
    ∃ e, Node.readApart item = .error e ∧
      ofTree tree =
        (Node.skipsFrom 0 before, .error (e.moved (Node.elementPlace before.length))) := by
  obtain ⟨schema, hread⟩ := Node.readElements_append hbefore 0 (item :: after)
  have hfails (index : Nat) : ¬∃ e, Node.readElement index item = .ok e :=
    fun hok => hitem ((Node.exists_readElement_iff index item).mp hok)
  cases hapart : Node.readApart item with
  | ok e =>
    refine absurd ⟨e, ?_⟩ (hfails 0)
    rw [Node.readElement_eq_readApart, hapart]
    rfl
  | error e =>
    refine ⟨e, rfl, ?_⟩
    have hlast : Node.readElement before.length item =
        .error (e.moved (Node.elementPlace before.length)) := by
      rw [Node.readElement_eq_readApart, hapart]
      rfl
    rw [ofTree_of_leads h, hread, Nat.zero_add]
    simp [Node.readElements, hlast, Except.map]

/-- A tree can be read exactly if it follows the grammar, methods saying whatever they say. -/
theorem exists_ofTree_iff :
    (∃ schema, (ofTree tree).2 = .ok schema) ↔ tree.IsTree SaysAnything := by
  constructor
  · rintro ⟨schema, hok⟩
    cases helements : Node.elements tree [] "rootNamespace" with
    | error e => simp [ofTree, helements] at hok
    | ok items =>
      have hleads := Node.elements_eq_ok_iff.mp helements
      refine ⟨items, hleads, ?_⟩
      by_contra hall
      obtain ⟨before, item, after, rfl, hbefore, hitem⟩ := exists_first_not hall
      obtain ⟨e, -, hread⟩ := ofTree_of_unreadable hleads hbefore hitem
      rw [hread] at hok
      cases hok
  · rintro ⟨items, hleads, hall⟩
    obtain ⟨schema, hread⟩ := ofTree_of_readable hleads hall
    exact ⟨schema, by rw [hread]⟩

/-- Loading a tree gives the schema that is read. -/
theorem loadTree_eq_ok_iff {schema : Schema} :
    (loadTree tree).2 = .ok schema ↔ (ofTree tree).2 = .ok schema := by
  simp only [loadTree]
  cases (ofTree tree).2 <;> simp [Except.mapError]

/-- Loading a tree fails with the error of the node that cannot be read. -/
theorem loadTree_eq_error_iff {failure : Failure} :
    (loadTree tree).2 = .error failure ↔
      ∃ e, (ofTree tree).2 = .error e ∧ failure = .shape e.toShapeError := by
  simp only [loadTree]
  cases (ofTree tree).2 <;> simp [Except.mapError, eq_comm]

/-- An element can be read on its own exactly if the grammar calls its body a declaration. -/
theorem exists_loadTree_alone_iff {item : Value} :
    (∃ schema, (loadTree (treeOf [item])).2 = .ok schema) ↔
      IsElement (IsDeclaration SaysAnything) item := by
  simp only [loadTree_eq_ok_iff]
  rw [exists_ofTree_iff, isTree_iff_of_leads (leads_treeOf [item])]
  simp

end Schema

namespace Value

/-- Elements stay elements when less is asked of their bodies. -/
theorem ListsElements.mono {P Q : Value → Prop} {v : Value} {key : String}
    (hbody : ∀ body, P body → Q body) (h : v.ListsElements key P) : v.ListsElements key Q := by
  obtain ⟨items, hleads, hall⟩ := h
  refine ⟨items, hleads, fun item hitem => ?_⟩
  obtain ⟨body, hfield, hP⟩ := hall item hitem
  exact ⟨body, hfield, hbody body hP⟩

/-- A tree stays a tree when nothing is asked of what methods say. -/
theorem IsTree.saysAnything {Says : Option Value → Prop} {v : Value} (h : v.IsTree Says) :
    v.IsTree SaysAnything := by
  refine ListsElements.mono (fun body hbody => ?_) h
  cases hbody with
  | record hrecord => exact .record hrecord
  | protocol hprotocol =>
    obtain ⟨hkind, hname, hmethods⟩ := hprotocol
    refine .protocol ⟨hkind, hname, hmethods.mono fun method hmethod => ?_⟩
    exact ⟨trivial, hmethod.name, hmethod.parameters⟩
  | other type htype hnull hrecord hprotocol =>
    exact .other type htype hnull hrecord hprotocol

end Value

open Value in
/-- **Which trees can be read, and how reading fails.** Every tree of the grammar can be read, and a
tree can be read exactly if it follows the grammar with nothing asked of what methods say that they
are. Any other value fails with a shape error. Where the elements of a tree are a list, reading
fails exactly if one of them cannot be read on its own. The first such element decides: the error is
the one that it gives on its own, at the place where it stands, and the log holds the records of the
elements skipped before it. -/
theorem loadTree_ok_iff_isTree (tree : Value) :
    (tree.IsTree SaysMethod → ∃ schema, (Schema.loadTree tree).2 = .ok schema) ∧
    ((∃ schema, (Schema.loadTree tree).2 = .ok schema) ↔ tree.IsTree SaysAnything) ∧
    (¬tree.IsTree SaysAnything → ∃ e, (Schema.loadTree tree).2 = .error (.shape e)) ∧
    ∀ items, tree.Leads ["rootNamespace", "elements"] (.list items) →
      ((∃ failure, (Schema.loadTree tree).2 = .error failure) ↔
        ∃ item ∈ items, ∃ failure, (Schema.loadTree (treeOf [item])).2 = .error failure) ∧
      ∀ before item after failure, items = before ++ item :: after →
        (∀ x ∈ before, ∃ schema, (Schema.loadTree (treeOf [x])).2 = .ok schema) →
        (Schema.loadTree (treeOf [item])).2 = .error failure →
        ∃ defect inner,
          failure = .shape (NodeError.toShapeError ⟨defect, Node.elementPlace 0 ++ inner⟩) ∧
          Schema.loadTree tree = (Node.skipsFrom 0 before, .error (.shape
            (NodeError.toShapeError ⟨defect, Node.elementPlace before.length ++ inner⟩))) := by
  have hiff : (∃ schema, (Schema.loadTree tree).2 = .ok schema) ↔ tree.IsTree SaysAnything := by
    simp only [Schema.loadTree_eq_ok_iff]
    exact Schema.exists_ofTree_iff
  refine ⟨fun h => hiff.mpr h.saysAnything, hiff, fun hnot => ?_, fun items hleads => ⟨?_, ?_⟩⟩
  · cases hresult : (Schema.ofTree tree).2 with
    | ok schema => exact absurd (Schema.exists_ofTree_iff.mp ⟨schema, hresult⟩) hnot
    | error e => exact ⟨e.toShapeError, Schema.loadTree_eq_error_iff.mpr ⟨e, hresult, rfl⟩⟩
  · rw [exists_error_iff, hiff, isTree_iff_of_leads hleads]
    simp only [exists_error_iff, Schema.exists_loadTree_alone_iff, not_forall, exists_prop]
  · rintro before item after failure rfl hbefore hfailure
    have hreadable : ∀ x ∈ before, IsElement (IsDeclaration SaysAnything) x :=
      fun x hx => Schema.exists_loadTree_alone_iff.mp (hbefore x hx)
    have hitem : ¬IsElement (IsDeclaration SaysAnything) item := by
      rw [← Schema.exists_loadTree_alone_iff, ← exists_error_iff]
      exact ⟨failure, hfailure⟩
    obtain ⟨e, hapart, hread⟩ := Schema.ofTree_of_unreadable hleads hreadable hitem
    obtain ⟨alone, halone, hreadAlone⟩ :=
      Schema.ofTree_of_unreadable (leads_treeOf ([] ++ [item])) (by simp) hitem
    cases hapart.symm.trans halone
    refine ⟨e.defect, e.place, ?_, by rw [Schema.loadTree, hread]; rfl⟩
    rw [List.nil_append] at hreadAlone
    obtain ⟨error, herror, rfl⟩ := Schema.loadTree_eq_error_iff.mp hfailure
    rw [hreadAlone] at herror
    cases herror
    rfl

/-- A node of another kind, an element whose body is a number, and an element without a body. -/
def unreadableItems : List Value :=
  [.object [("body", .object [("_type", .text "DDLNamespace")])],
    .object [("body", .integer 7)], .object []]

/-- A tree is refused for an item that cannot be read, and what stands in front of it is skipped or
read. -/
theorem loadTree_unreadableItems :
    (∀ x ∈ unreadableItems.take 1, ∃ schema, (Schema.loadTree (.treeOf [x])).2 = .ok schema) ∧
    (Schema.loadTree (.treeOf [.object [("body", .integer 7)]])).2 =
      .error (.shape ⟨.notNode "int", some "rootNamespace.elements[0].body"⟩) ∧
    ¬(Value.treeOf unreadableItems).IsTree Value.SaysAnything ∧
    Schema.loadTree (.treeOf unreadableItems) =
      ([⟨.debug, "Skipping DDLNamespace at rootNamespace.elements[0].body"⟩],
        .error (.shape ⟨.notNode "int", some "rootNamespace.elements[1].body"⟩)) := by
  have hbefore : ∀ x ∈ unreadableItems.take 1,
      ∃ schema, (Schema.loadTree (.treeOf [x])).2 = .ok schema := by
    intro x hx
    obtain rfl := List.mem_singleton.mp hx
    exact ⟨[], rfl⟩
  have halone : (Schema.loadTree (.treeOf [.object [("body", .integer 7)]])).2 =
      .error (.shape ⟨.notNode "int", some "rootNamespace.elements[0].body"⟩) := rfl
  obtain ⟨-, hiff, -, hitems⟩ := loadTree_ok_iff_isTree (.treeOf unreadableItems)
  obtain ⟨defect, inner, hfailure, hload⟩ := (hitems _ (Value.leads_treeOf _)).2
    (unreadableItems.take 1) _ [.object []] _ rfl hbefore halone
  refine ⟨hbefore, halone, ?_, rfl⟩
  rw [← hiff, hload]
  simp

/-- A protocol with a method that does not say what it is. -/
def untypedMethodTree : Value :=
  .treeOf [.object [("body", .object [("_type", .text "DDLProtocolDeclaration"),
    ("declaration", .object [("nameSpaceItem", .object [("parseTreeItem1", .object
      [("name", .object [("value", .text "Auth")])])])]),
    ("methods", .object [("elements", .list [.object [("body", .object
      [("methodDeclaration", .object [("declaration", .object [("nameSpaceItem", .object
        [("parseTreeItem1", .object [("name", .object [("value", .text "Login")])])])])]),
        ("parameters", .object [("elements", .list [])])])]])])])]]

/-- A tree with such a protocol does not follow the grammar and is read all the same. -/
theorem loadTree_untypedMethodTree :
    ¬untypedMethodTree.IsTree Value.SaysMethod ∧
    (Schema.loadTree untypedMethodTree).2 =
      .ok [.protocol ⟨.text "Auth", [⟨.text "Login", []⟩]⟩] := by
  refine ⟨fun htree => ?_, rfl⟩
  obtain ⟨body, hbody, hdeclaration⟩ :=
    (Value.isTree_iff_of_leads (Value.leads_treeOf _)).mp htree _ List.mem_cons_self
  cases hbody
  cases hdeclaration with
  | record h => exact absurd (Value.text.inj (Option.some.inj h.kind)) (by decide)
  | protocol h =>
    obtain ⟨items, hleads, hall⟩ := h.methods
    cases hleads.unique (.cons rfl (.cons rfl (.nil _)))
    obtain ⟨method, hmethod, hsays⟩ := hall _ List.mem_cons_self
    cases hmethod
    cases hsays.kind
  | other type htype _ _ hprotocol =>
    cases htype
    exact hprotocol rfl

end ProtocolPages
