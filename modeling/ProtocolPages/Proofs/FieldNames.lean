import ProtocolPages.Proofs.RecordSections
import ProtocolPages.Proofs.SettingsReach

/-!
# The names of stub fields

Distinct names do not always make distinct fields. The fields of a request are the lower-cased names
of its parameters, so they are distinct if these are. In a response all that is returned goes by one
name, which a parameter may bear of its own accord, and the field of a parent is put in front of
members that were named without regard to it. Here it is said exactly when a stub declares a field
twice.
-/

namespace ProtocolPages

/-! ## One name for several items -/

section Renamed

variable {α β : Type} {items : List α}

/-- There is at most one item if no two items are allowed. -/
theorem pairwise_false_iff : items.Pairwise (fun _ _ => False) ↔ items.length ≤ 1 := by
  cases items with
  | nil => simp
  | cons first rest =>
    cases rest with
    | nil => simp
    | cons second rest =>
      exact iff_of_false (fun h => List.rel_of_pairwise_cons h List.mem_cons_self) (by simp)

/-- Items with distinct keys, some of which go by one other name, have distinct names exactly if at
most one item goes by that name. -/
theorem nodup_map_ite_iff {key : α → β} {special named : α → Prop} [DecidablePred special]
    [DecidablePred named] {name : β} (hnamed : ∀ x, named x ↔ special x ∨ key x = name)
    (h : (items.map key).Nodup) :
    (items.map fun x => if special x then name else key x).Nodup ↔
      (items.filter fun x => named x).length ≤ 1 := by
  have hname (x : α) : (if special x then name else key x) = name ↔ named x := by
    rw [hnamed]
    by_cases hspecial : special x <;> simp [hspecial]
  have hkey (x : α) (hx : ¬named x) : (if special x then name else key x) = key x :=
    if_neg fun hspecial => hx ((hnamed x).mpr (Or.inl hspecial))
  rw [List.nodup_iff_pairwise_ne, List.pairwise_map] at h ⊢
  rw [← pairwise_false_iff, List.pairwise_filter]
  constructor
  · refine List.Pairwise.imp fun {x y} hne hx hy => hne ?_
    rw [(hname x).mpr (by simpa using hx), (hname y).mpr (by simpa using hy)]
  · -- Two items of one name share either the other name or a key, which they do not.
    refine List.Pairwise.imp₂ (fun x y hkeys hfew hsame => ?_) h
    by_cases hx : named x
    · have hy : named y := (hname y).mp (hsame ▸ (hname x).mpr hx)
      exact hfew (by simpa using hx) (by simpa using hy)
    · have hy : ¬named y := fun hy => hx ((hname x).mp (hsame ▸ (hname y).mpr hy))
      rw [hkey x hx, hkey y hy] at hsame
      exact hkeys hsame

end Renamed

/-! ## Methods -/

/-- The parameter has the field `val` in a response: it is a return value, it bears the marker of
return values, or this is its name, all without regard to case. -/
def Parameter.TakesVal (settings : Settings) (q : Parameter) : Prop :=
  q.isReturn = true ∨ Text.lower q.name.plain = Text.lower settings.returnValueMarker ∨
    Text.lower q.name.plain = "val"

instance (settings : Settings) : DecidablePred (Parameter.TakesVal settings) := fun q =>
  inferInstanceAs (Decidable (q.isReturn = true ∨
    Text.lower q.name.plain = Text.lower settings.returnValueMarker ∨
    Text.lower q.name.plain = "val"))

namespace Method

variable {active settings : Settings} {m : Method} {records : List Record}

/-- The stubs of a method declare a field for each parameter. -/
theorem stubs_eq {index : Int} {fragment : Fragment}
    (h : m.render active (some settings) index records = .ok fragment) :
    let r : Resolver := ⟨records.filterMap (·.name.text?), settings⟩
    fragment.stubs =
      [renderStub active (some settings) (m.name.plain ++ "Input")
          (m.request.map (·.requestField r)),
        renderStub active (some settings) (m.name.plain ++ "Output")
          (m.response.map (·.responseField r))] := by
  simp only [render_eq, bind_eq_ok_iff] at h
  obtain ⟨resolver, hresolver, inputs, hinputs, outputs, houtputs, _, _, _, _, hfragment⟩ := h
  obtain rfl := Resolver.ofRecords_cases hresolver
  obtain rfl := eq_map_of_mapM_eq_ok hinputs fun q _ _ => Parameter.eq_requestField
  obtain rfl := eq_map_of_mapM_eq_ok houtputs fun q _ _ => Parameter.eq_responseField
  rw [← Except.ok.inj hfragment]

/-- The fields of a request bear the lower-cased names. -/
theorem names_request (r : Resolver) (m : Method) :
    (m.request.map (·.requestField r)).map (·.name) =
      m.request.map fun q => Text.lower q.name.plain := by
  rw [List.map_map]
  rfl

/-- The fields of a response bear the lower-cased names, and that of return values. -/
theorem names_response (r : Resolver) (m : Method) :
    (m.response.map (·.responseField r)).map (·.name) = m.response.map fun q =>
      if q.isReturn = true ∨ Text.lower q.name.plain = Text.lower r.settings.returnValueMarker
      then "val" else Text.lower q.name.plain := by
  rw [List.map_map]
  refine List.map_congr_left fun q _ => ?_
  simp [Parameter.responseField, returnField]

/-- The fields of a response are distinct exactly if one of them at most is called `val`. -/
theorem nodup_response_iff (r : Resolver)
    (h : (m.response.map fun q => Text.lower q.name.plain).Nodup) :
    ((m.response.map (·.responseField r)).map (·.name)).Nodup ↔
      (m.response.filter fun q => q.TakesVal r.settings).length ≤ 1 := by
  rw [names_response]
  exact nodup_map_ite_iff (fun q => or_assoc.symm) h

end Method

/-! ## Records -/

namespace Record

/-- The fields that a record has in its stub. -/
def stubFields (r : Resolver) (record : Record) : List StubField :=
  parentField r (record.parentShown r) ++ record.substantialFields r

/-- The field of the parent bears the name of a member that is more than padding. -/
def ParentCollides (r : Resolver) (record : Record) : Prop :=
  (record.parentShown r).stub ∈ r.locals ∧ ∃ m ∈ record.members,
    m.name.plain = Text.lower (record.parentShown r).stub ∧
      ¬"dummy".toList <:+: m.name.plain.toList

/-- The fields of the members bear their names. -/
theorem names_substantialFields (r : Resolver) (record : Record) :
    (record.substantialFields r).map (·.name) =
      (record.members.filter fun m => ¬"dummy".toList <:+: m.name.plain.toList).map
        (·.name.plain) := by
  rw [substantialFields, List.map_map]
  rfl

/-- The stub of a record declares its fields. -/
theorem stubs_eq {active settings : Settings} {record : Record} {records : List Record}
    {fragment : Fragment} (h : record.render active (some settings) records = .ok fragment) :
    fragment.stubs = [renderStub active (some settings) record.name.plain
      (record.stubFields ⟨records.filterMap (·.name.text?), settings⟩)] := by
  rw [(fragment_eq h).2, memberFields_shown]
  rfl

/-- The fields of a record are distinct exactly if that of the parent is not among the others. -/
theorem nodup_stubFields_iff (r : Resolver) {record : Record}
    (h : (record.members.map (·.name.plain)).Nodup) :
    ((record.stubFields r).map (·.name)).Nodup ↔ ¬record.ParentCollides r := by
  have hmembers : ((record.substantialFields r).map (·.name)).Nodup := by
    rw [names_substantialFields]
    exact h.sublist (List.filter_sublist.map _)
  by_cases hlocal : (record.parentShown r).stub ∈ r.locals
  · have hfield : parentField r (record.parentShown r) =
        [⟨Text.lower (record.parentShown r).stub, (record.parentShown r).stub⟩] :=
      if_pos (List.contains_iff_mem.mpr hlocal)
    rw [stubFields, hfield, List.singleton_append, List.map_cons, List.nodup_cons,
      names_substantialFields]
    rw [names_substantialFields] at hmembers
    simp only [hmembers, and_true, ParentCollides, hlocal, true_and, List.mem_map, List.mem_filter,
      decide_eq_true_eq]
    exact not_congr (exists_congr fun m => and_assoc.trans (and_congr_right fun _ => and_comm))
  · have hfield : parentField r (record.parentShown r) = [] :=
      if_neg (mt List.contains_iff_mem.mp hlocal)
    rw [stubFields, hfield, List.nil_append]
    exact iff_of_true hmembers fun hcollides => hlocal hcollides.1

end Record

/-- **When a stub declares a field twice.** The stubs of a method and of a record are those of the
fields listed here. Parameters with distinct names, without regard to case, have distinct fields in
a request; in a response they have exactly if at most one of them has the field `val`. Members with
distinct names have distinct fields, that of the parent included, exactly if the parent is no record
of the page or its lower-cased name is not that of a member other than padding. All methods and
records made of texts have such stubs. -/
theorem stub_fields_distinct_iff (active settings : Settings) (records : List Record) :
    let r : Resolver := ⟨records.filterMap (·.name.text?), settings⟩
    (∀ (m : Method) (index : Int) (fragment : Fragment),
      m.render active (some settings) index records = .ok fragment →
      fragment.stubs =
        [renderStub active (some settings) (m.name.plain ++ "Input")
            (m.request.map (·.requestField r)),
          renderStub active (some settings) (m.name.plain ++ "Output")
            (m.response.map (·.responseField r))] ∧
      ((m.request.map fun q => Text.lower q.name.plain).Nodup →
        ((m.request.map (·.requestField r)).map (·.name)).Nodup) ∧
      ((m.response.map fun q => Text.lower q.name.plain).Nodup →
        (((m.response.map (·.responseField r)).map (·.name)).Nodup ↔
          (m.response.filter fun q => q.TakesVal settings).length ≤ 1))) ∧
    (∀ (record : Record) (fragment : Fragment),
      record.render active (some settings) records = .ok fragment →
      fragment.stubs = [renderStub active (some settings) record.name.plain (record.stubFields r)] ∧
      ((record.members.map (·.name.plain)).Nodup →
        (((record.stubFields r).map (·.name)).Nodup ↔ ¬record.ParentCollides r))) ∧
    ((∀ other ∈ records, other.name.IsText) →
      (∀ (m : Method) (index : Int), m.Textual →
        ∃ fragment, m.render active (some settings) index records = .ok fragment) ∧
      ∀ record : Record, record.Textual →
        ∃ fragment, record.render active (some settings) records = .ok fragment) := by
  intro r
  refine ⟨fun m index fragment hfragment => ⟨Method.stubs_eq hfragment, fun hnames => ?_, ?_⟩,
    fun record fragment hfragment => ⟨Record.stubs_eq hfragment, Record.nodup_stubFields_iff r⟩,
    fun hrecords => ⟨fun m index hm => hm.exists_render active settings index hrecords,
      fun record hrecord => hrecord.exists_render active settings hrecords⟩⟩
  · rwa [Method.names_request]
  · exact Method.nodup_response_iff r

/-- A method that returns a value, and has another parameter in its response. -/
def returningMethod (other : String) : Method :=
  ⟨.text "Get", [], [⟨.text "Done", .text "bool", .null, true⟩,
    ⟨.text other, .text "uint32", .integer 2, false⟩]⟩

/-- A record with one member, which is derived from another record. -/
def derivedRecord (parent member : String) : Record :=
  ⟨.text "Session", .text parent, [⟨.text member, .text "uint32"⟩]⟩

/-- The method is made of texts. -/
theorem textual_returningMethod (other : String) : (returningMethod other).Textual := by
  refine ⟨List.forall_mem_nil _,
    List.forall_mem_cons.mpr ⟨?_, List.forall_mem_singleton.mpr ?_⟩⟩ <;>
    exact ⟨⟨_, rfl⟩, ⟨_, rfl⟩⟩

/-- The record is made of texts. -/
theorem textual_derivedRecord (parent member : String) : (derivedRecord parent member).Textual :=
  ⟨⟨_, rfl⟩, Or.inr ⟨_, rfl⟩, List.forall_mem_singleton.mpr ⟨⟨_, rfl⟩, ⟨_, rfl⟩⟩⟩

/-- A parameter of another name and a member that pads a record do not get in the way. -/
theorem stub_fields_distinct_padded :
    (∃ fragment, (returningMethod "Value").render {} (some {}) 1 [⟨.text "Dummy", .null, []⟩] =
        .ok fragment) ∧
    (((returningMethod "Value").response.map (·.responseField ⟨["Dummy"], {}⟩)).map
      (·.name)).Nodup ∧
    (∃ fragment, (derivedRecord "Dummy" "dummy").render {} (some {}) [⟨.text "Dummy", .null, []⟩] =
        .ok fragment) ∧
    (((derivedRecord "Dummy" "dummy").stubFields ⟨["Dummy"], {}⟩).map (·.name)).Nodup := by
  obtain ⟨hmethod, hrecord, hrendered⟩ :=
    stub_fields_distinct_iff {} {} [⟨.text "Dummy", .null, []⟩]
  obtain ⟨hmethods, hrecords⟩ := hrendered (List.forall_mem_singleton.mpr ⟨_, rfl⟩)
  obtain ⟨first, hfirst⟩ := hmethods (returningMethod "Value") 1 (textual_returningMethod _)
  obtain ⟨second, hsecond⟩ := hrecords (derivedRecord "Dummy" "dummy") (textual_derivedRecord _ _)
  refine ⟨⟨first, hfirst⟩, ((hmethod _ _ _ hfirst).2.2 (by decide)).mpr (by decide),
    ⟨second, hsecond⟩, ((hrecord _ _ hsecond).2 (by decide)).mpr ?_⟩
  rintro ⟨-, m, hm, -, hsubstantial⟩
  obtain rfl := List.mem_singleton.mp hm
  exact hsubstantial (by decide)

/-- The names of a method are distinct in each direction, without regard to case, and at most one
value is returned. -/
structure Method.NamedApart (m : Method) : Prop where
  request : (m.request.map fun q => Text.lower q.name.plain).Nodup
  response : (m.response.map fun q => Text.lower q.name.plain).Nodup
  returned : (m.response.filter (·.isReturn)).length ≤ 1

/-- The fields of a response in which something is called like the return value. -/
def doubledReturn : List StubField :=
  [⟨"val", "bool"⟩, ⟨"val", "u32"⟩]

/-- The fields of a record with a member that is called like the parent. -/
def doubledParent : List StubField :=
  [⟨"gathering", "Gathering"⟩, ⟨"gathering", "u32"⟩]

/-- The method has an empty stub for its request and a stub for its response. -/
theorem exists_stubs_returningMethod (other : String) :
    ∃ fragment, (returningMethod other).render {} (some {}) 1 [] = .ok fragment ∧
      fragment.stubs = [renderStub {} (some {}) "GetInput" [],
        renderStub {} (some {}) "GetOutput"
          ((returningMethod other).response.map (·.responseField ⟨[], {}⟩))] := by
  obtain ⟨fragment, hfragment⟩ := (textual_returningMethod other).exists_render {} {} 1
    (List.forall_mem_nil _)
  have hinput : (returningMethod other).name.plain ++ "Input" = "GetInput" := by rfl
  have houtput : (returningMethod other).name.plain ++ "Output" = "GetOutput" := by rfl
  have hstubs := Method.stubs_eq hfragment
  simp only [hinput, houtput] at hstubs
  exact ⟨fragment, hfragment, hstubs⟩

/-- The record has one stub, with the field of its parent in front. -/
theorem exists_stubs_derivedRecord (parent member : String) :
    ∃ fragment, (derivedRecord parent member).render {} (some {}) [⟨.text parent, .null, []⟩] =
        .ok fragment ∧
      fragment.stubs = [renderStub {} (some {}) "Session"
        ((derivedRecord parent member).stubFields ⟨[parent], {}⟩)] := by
  have hrecords : ∀ other ∈ [Record.mk (.text parent) .null []], other.name.IsText :=
    List.forall_mem_singleton.mpr ⟨_, rfl⟩
  obtain ⟨fragment, hfragment⟩ := (textual_derivedRecord parent member).exists_render {} {} hrecords
  have hname : (derivedRecord parent member).name.plain = "Session" := rfl
  have hlocals : [Record.mk (.text parent) .null []].filterMap (·.name.text?) = [parent] := rfl
  have hstubs := Record.stubs_eq hfragment
  rw [hname, hlocals] at hstubs
  exact ⟨fragment, hfragment, hstubs⟩

/-- Fields are declared twice: a return value meets a parameter that bears the marker of return
values or is called `val`, and a parent meets a member of its name. -/
theorem fields_declared_twice :
    ((returningMethod "%RETVAL%").NamedApart ∧
      ∃ fragment, (returningMethod "%RETVAL%").render {} (some {}) 1 [] = .ok fragment ∧
        fragment.stubs = [renderStub {} (some {}) "GetInput" [],
          renderStub {} (some {}) "GetOutput" doubledReturn]) ∧
    ((returningMethod "Val").NamedApart ∧
      ∃ fragment, (returningMethod "Val").render {} (some {}) 1 [] = .ok fragment ∧
        fragment.stubs = [renderStub {} (some {}) "GetInput" [],
          renderStub {} (some {}) "GetOutput" doubledReturn]) ∧
    (((derivedRecord "Gathering" "gathering").members.map (·.name.plain)).Nodup ∧
      ∃ fragment, (derivedRecord "Gathering" "gathering").render {} (some {})
          [⟨.text "Gathering", .null, []⟩] = .ok fragment ∧
        fragment.stubs = [renderStub {} (some {}) "Session" doubledParent]) ∧
    ¬(doubledReturn.map (·.name)).Nodup ∧ ¬(doubledParent.map (·.name)).Nodup := by
  have hmarker : (returningMethod "%RETVAL%").response.map (·.responseField ⟨[], {}⟩) =
      doubledReturn := by decide +kernel
  have hval : (returningMethod "Val").response.map (·.responseField ⟨[], {}⟩) =
      doubledReturn := by decide +kernel
  have hparent : (derivedRecord "Gathering" "gathering").stubFields ⟨["Gathering"], {}⟩ =
      doubledParent := by decide +kernel
  refine ⟨⟨⟨by decide, by decide, by decide⟩, ?_⟩, ⟨⟨by decide, by decide, by decide⟩, ?_⟩,
    ⟨by decide, ?_⟩, by decide, by decide⟩
  · rw [← hmarker]
    exact exists_stubs_returningMethod "%RETVAL%"
  · rw [← hval]
    exact exists_stubs_returningMethod "Val"
  · rw [← hparent]
    exact exists_stubs_derivedRecord "Gathering" "gathering"

end ProtocolPages
