import Mathlib.Data.List.Forall2
import ProtocolPages.Proofs.RecordSections

/-!
# How far a setting reaches

The text that is shown for a type and the text that a stub has for it are made side by side, with
the same settings at hand. Yet the settings fall into two groups. Those of the wiki decide what
stands outside of the stubs, and those of the stub language what stands inside of them; only the
root record type belongs to both. The proof compares two runs step by step: they fail alike, or what
they return is related. A relation between the steps carries over to the sections and the document.
-/

namespace ProtocolPages

/-! ## Two runs side by side -/

/-- Both runs fail in the same way, or they return related results. -/
inductive Alike {ε α β : Type} (R : α → β → Prop) : Except ε α → Except ε β → Prop where
  | ok {a : α} {b : β} (h : R a b) : Alike R (.ok a) (.ok b)
  | error (e : ε) : Alike R (.error e) (.error e)

namespace Alike

variable {ε α β γ δ ι : Type} {R : α → β → Prop} {S : γ → δ → Prop}

/-- Runs that are alike go on alike. -/
theorem bind {x : Except ε α} {y : Except ε β} {f : α → Except ε γ} {g : β → Except ε δ}
    (h : Alike R x y) (hnext : ∀ a b, R a b → Alike S (f a) (g b)) :
    Alike S (x >>= f) (y >>= g) := by
  cases h with
  | ok hab => exact hnext _ _ hab
  | error e => exact .error e

/-- A run is like itself. -/
theorem refl {R : α → α → Prop} (hrefl : ∀ a, R a a) (x : Except ε α) : Alike R x x := by
  cases x with
  | ok a => exact .ok (hrefl a)
  | error e => exact .error e

/-- A weaker relation holds as well. -/
theorem imp {R' : α → β → Prop} {x : Except ε α} {y : Except ε β} (h : Alike R x y)
    (himp : ∀ a b, R a b → R' a b) : Alike R' x y := by
  cases h with
  | ok hab => exact .ok (himp _ _ hab)
  | error e => exact .error e

/-- Runs that return what looks the same look the same. -/
theorem map_eq {f : α → γ} {g : β → γ} {x : Except ε α} {y : Except ε β}
    (h : Alike (fun a b => f a = g b) x y) : x.map f = y.map g := by
  cases h with
  | ok hab => exact congrArg Except.ok hab
  | error e => rfl

/-- Steps that are alike for each item are alike for all of them. -/
theorem mapM {f : ι → Except ε α} {g : ι → Except ε β} {items : List ι}
    (h : ∀ item ∈ items, Alike R (f item) (g item)) :
    Alike (List.Forall₂ R) (items.mapM f) (items.mapM g) := by
  induction items with
  | nil => exact .ok .nil
  | cons item rest ih =>
    obtain ⟨hitem, hrest⟩ := List.forall_mem_cons.mp h
    rw [List.mapM_cons, List.mapM_cons]
    refine hitem.bind fun a b hab => ?_
    refine (ih hrest).bind fun as bs hall => ?_
    exact .ok (.cons hab hall)

/-- Steps that return the same for each item return the same for all of them. -/
theorem mapM_eq {f g : ι → Except ε α} {items : List ι}
    (h : ∀ item ∈ items, Alike (· = ·) (f item) (g item)) :
    Alike (· = ·) (items.mapM f) (items.mapM g) :=
  (mapM h).imp fun _ _ hall => by rwa [List.forall₂_eq_eq_eq] at hall

end Alike

/-! ## Settings that agree -/

namespace Settings

/-- The settings are the same in the given fields. -/
def AgreeOn (fields : List Field) (s t : Settings) : Prop :=
  ∀ field ∈ fields, s.get field = t.get field

instance (fields : List Field) (s t : Settings) : Decidable (AgreeOn fields s t) :=
  inferInstanceAs (Decidable (∀ field ∈ fields, s.get field = t.get field))

/-- The settings that reach stubs. -/
def stubFields : List Field :=
  [.stubLanguage, .stubAttributes, .listStubType, .dataHolderStubType, .returnValueMarker,
   .rootRecordType]

/-- The settings that reach the text around the stubs. -/
def proseFields : List Field :=
  [.wikiBase, .protocolsPage, .commonTypesPage, .rootRecordType]

variable {s t : Settings}

/-- Entries of the common types are at the same address. -/
theorem AgreeOn.commonTypeUrl_eq (h : AgreeOn proseFields s t) (anchor : String) :
    s.commonTypeUrl anchor = t.commonTypeUrl anchor := by
  have hbase : s.wikiBase = t.wikiBase := h .wikiBase (by decide)
  have hpage : s.commonTypesPage = t.commonTypesPage := h .commonTypesPage (by decide)
  rw [commonTypeUrl, commonTypeUrl, hbase, hpage]

/-- A record has the same parent. -/
theorem AgreeOn.parentSpelling_eq {fields : List Field} (h : AgreeOn fields s t)
    (hroot : .rootRecordType ∈ fields) (r : Record) : r.parentSpelling s = r.parentSpelling t := by
  have hspelling : s.rootRecordType = t.rootRecordType := h .rootRecordType hroot
  rw [Record.parentSpelling, Record.parentSpelling, hspelling]

end Settings

open Settings (AgreeOn stubFields proseFields)

variable {active s t : Settings} {locals : List String}

/-! ## References -/

namespace Resolver

/-- Stubs use a name as it was looked up. -/
theorem stub_nameReference (r : Resolver) (name : String) : (r.nameReference name).stub = name := by
  unfold nameReference outerReference
  split
  · rfl
  · split <;> rfl

/-- What a stub has for a type depends on the settings of stubs. -/
theorem stub_resolve (h : AgreeOn stubFields s t) (locals : List String) (e : TypeExpr) :
    (resolve ⟨locals, s⟩ e).stub = (resolve ⟨locals, t⟩ e).stub := by
  induction e with
  | named name => rw [resolve, resolve, stub_nameReference, stub_nameReference]
  | basic name =>
    by_cases hlocal : name ∈ locals
    · rw [resolve_basic_of_mem hlocal, resolve_basic_of_mem hlocal]
    · rw [resolve_basic_of_not_mem hlocal, resolve_basic_of_not_mem hlocal, stub_nameReference,
        stub_nameReference]
  | holder inner raw =>
    have hholder : s.dataHolderStubType = t.dataHolderStubType := h .dataHolderStubType (by decide)
    rw [resolve, resolve, hholder]
  | list kind inner ih =>
    have hlist : s.listStubType = t.listStubType := h .listStubType (by decide)
    simp only [resolve, listReference, hlist, ih]

/-- A name is referred to as the wiki settings say. -/
theorem nameReference_eq (h : AgreeOn proseFields s t) (name : String) :
    nameReference ⟨locals, s⟩ name = nameReference ⟨locals, t⟩ name := by
  simp only [nameReference, outerReference, h.commonTypeUrl_eq]

/-- What is shown for a type depends on the wiki settings. -/
theorem display_resolve (h : AgreeOn proseFields s t) (locals : List String) (e : TypeExpr) :
    (resolve ⟨locals, s⟩ e).display = (resolve ⟨locals, t⟩ e).display := by
  induction e with
  | named name => rw [resolve, resolve, nameReference_eq h]
  | basic name =>
    by_cases hlocal : name ∈ locals
    · rw [resolve_basic_of_mem hlocal, resolve_basic_of_mem hlocal]
    · rw [resolve_basic_of_not_mem hlocal, resolve_basic_of_not_mem hlocal, nameReference_eq h]
  | holder inner raw => rfl
  | list kind inner ih => simp only [resolve, listReference, h.commonTypeUrl_eq, ih]

/-- A relation between the references to each type holds between those to the types of values. -/
theorem alike_resolveValue {R : Reference → Reference → Prop}
    (h : ∀ e, R (resolve ⟨locals, s⟩ e) (resolve ⟨locals, t⟩ e)) (v : Value) :
    Alike R (resolveValue ⟨locals, s⟩ v) (resolveValue ⟨locals, t⟩ v) := by
  cases v with
  | text spelling => exact .ok (h _)
  | _ => exact .error _

/-- The names of the records do not depend on the settings. -/
theorem alike_ofRecords (active s t : Settings) (records : List Record) :
    Alike (fun r r' => ∃ locals, r = ⟨locals, s⟩ ∧ r' = ⟨locals, t⟩)
      (ofRecords active (some s) records) (ofRecords active (some t) records) := by
  refine (Alike.refl (fun _ => rfl) (localNames records)).bind fun locals _ hlocals => ?_
  obtain rfl : locals = _ := hlocals
  exact .ok ⟨locals, rfl, rfl⟩

end Resolver

/-! ## The text around the stubs -/

/-- A text with places left open, one for each stub. -/
abbrev Template := List (Option String)

namespace Template

/-- The number of places that are left open. -/
def holes (template : Template) : Nat :=
  template.countP Option.isNone

/-- The text with the blocks put in the open places, one after another. -/
def fill : Template → List String → String
  | [], _ => ""
  | some text :: rest, blocks => text ++ fill rest blocks
  | none :: rest, block :: blocks => block ++ fill rest blocks
  | none :: rest, [] => fill rest []

/-- A template in front of another one takes the blocks for its own places. -/
theorem fill_append {first : Template} (later : Template) {blocks : List String}
    (h : first.holes = blocks.length) (others : List String) :
    fill (first ++ later) (blocks ++ others) = fill first blocks ++ fill later others := by
  induction first generalizing blocks with
  | nil =>
    obtain rfl := List.eq_nil_of_length_eq_zero h.symm
    rw [fill, String.empty_append]
    rfl
  | cons piece rest ih =>
    cases piece with
    | some text =>
      have hrest : holes rest = blocks.length := by
        rw [← h, holes, holes, List.countP_cons_of_neg (by simp)]
      rw [List.cons_append, fill, fill, ih hrest, String.append_assoc]
    | none =>
      have hopen : holes (none :: rest) = holes rest + 1 := List.countP_cons_of_pos rfl
      cases blocks with
      | nil =>
        rw [hopen, List.length_nil] at h
        omega
      | cons block blocks =>
        have hrest : holes rest = blocks.length := by
          rw [hopen, List.length_cons] at h
          omega
        rw [List.cons_append, List.cons_append, fill, fill, ih hrest, String.append_assoc]

end Template

namespace Fragment

/-- The fragment is the template, with its own stubs in the open places. -/
structure Fits (f : Fragment) (template : Template) : Prop where
  /-- There is a place for each stub. -/
  holes_eq : template.holes = f.stubs.length
  /-- Filled in, they make the fragment. -/
  fill_eq : template.fill f.stubs = f.doc

/-- Outside of their stubs the fragments have the same text. -/
def SameProse (f g : Fragment) : Prop :=
  ∃ template, f.Fits template ∧ g.Fits template

/-- Inside of their stubs the fragments have the same text. -/
def SameStubs (f g : Fragment) : Prop :=
  f.stubs = g.stubs

/-- A text without stubs. -/
def plain (text : String) : Fragment :=
  ⟨text, []⟩

/-- Two fragments, one behind the other. -/
def append (f g : Fragment) : Fragment :=
  ⟨f.doc ++ g.doc, f.stubs ++ g.stubs⟩

/-- Fragments with a separator in between. -/
def join (separator : String) (fragments : List Fragment) : Fragment :=
  ⟨separator.intercalate (fragments.map doc), fragments.flatMap stubs⟩

/-- Plain text fits the template that has it. -/
theorem fits_plain (text : String) : (plain text).Fits [some text] :=
  ⟨rfl, String.append_empty⟩

/-- Fragments fit their templates one after another. -/
theorem Fits.append {f g : Fragment} {first later : Template} (hf : f.Fits first)
    (hg : g.Fits later) : (f.append g).Fits (first ++ later) where
  holes_eq := by
    rw [Template.holes, List.countP_append, Fragment.append, List.length_append, ← hf.holes_eq,
      ← hg.holes_eq]
    rfl
  fill_eq := by
    rw [Fragment.append, Template.fill_append later hf.holes_eq, hf.fill_eq, hg.fill_eq]

/-- The first of several fragments is joined to the others by the separator. -/
theorem join_cons_cons (separator : String) (f g : Fragment) (rest : List Fragment) :
    join separator (f :: g :: rest) =
      (f.append (plain separator)).append (join separator (g :: rest)) := by
  simp [join, append, plain, String.intercalate_cons_of_ne_nil, String.append_assoc]

/-- Plain text has the same prose as itself. -/
theorem sameProse_plain (text : String) : SameProse (plain text) (plain text) :=
  ⟨_, fits_plain text, fits_plain text⟩

/-- Fragments of the same prose stay so one after another. -/
theorem SameProse.append {f g f' g' : Fragment} (hf : SameProse f f') (hg : SameProse g g') :
    SameProse (f.append g) (f'.append g') := by
  obtain ⟨first, hfirst, hfirst'⟩ := hf
  obtain ⟨later, hlater, hlater'⟩ := hg
  exact ⟨first ++ later, hfirst.append hlater, hfirst'.append hlater'⟩

/-- Fragments that have the same text outside of their stubs, joined alike. -/
theorem sameProse_join (separator : String) {fs gs : List Fragment}
    (h : List.Forall₂ SameProse fs gs) : SameProse (join separator fs) (join separator gs) := by
  induction h with
  | nil => exact sameProse_plain ""
  | @cons f g fs gs hfirst hrest ih =>
    cases hrest with
    | nil =>
      simpa [join] using hfirst
    | cons hsecond hlater =>
      rw [join_cons_cons, join_cons_cons]
      exact (hfirst.append (sameProse_plain separator)).append ih

/-- Fragments that have the same stubs, joined alike. -/
theorem sameStubs_join (separator : String) {fs gs : List Fragment}
    (h : List.Forall₂ SameStubs fs gs) : SameStubs (join separator fs) (join separator gs) := by
  induction h with
  | nil => rfl
  | cons hfirst _ ih => exact congrArg₂ (· ++ ·) hfirst ih

end Fragment

open Fragment (SameProse SameStubs)

/-! ## Sections -/

/-- A stub is written as the settings of stubs say. -/
theorem renderStub_congr (h : AgreeOn stubFields s t) (name : String) (fields : List StubField) :
    renderStub active (some s) name fields = renderStub active (some t) name fields := by
  have hlanguage : s.stubLanguage = t.stubLanguage := h .stubLanguage (by decide)
  have hattributes : s.stubAttributes = t.stubAttributes := h .stubAttributes (by decide)
  rw [renderStub, renderStub, Settings.choose_some, Settings.choose_some, hlanguage, hattributes]

namespace Method

/-- The section of a method, with its text written out. -/
theorem render_eq (active settings : Settings) (m : Method) (index : Int) (records : List Record) :
    m.render active (some settings) index records = do
      let resolver ← Resolver.ofRecords active (some settings) records
      let inputs ← m.request.mapM (inputField resolver)
      let outputs ← m.response.mapM (outputField settings resolver)
      let requestRows ← m.request.mapM (parameterRow resolver)
      let responseRows ← m.response.mapM (parameterRow resolver)
      let input := renderStub active (some settings) (m.name.plain ++ "Input") inputs
      let output := renderStub active (some settings) (m.name.plain ++ "Output") outputs
      return ⟨m.sectionText index requestRows input responseRows output, [input, output]⟩ := by
  simp [render, sectionText, build_addTable, linesText, String.append_assoc]

/-- The section of a method without its stubs. -/
def template (m : Method) (index : Int) (requestRows responseRows : List (List String)) :
    Template :=
  [some ("# (" ++ toString index ++ ") " ++ m.name.plain ++ linesText ["", "## Request"] ++
      tableText requestRows noRequest ++ "\n"), none,
    some (linesText ["", "## Response"] ++ tableText responseRows noResponse ++ "\n"), none]

/-- The section fits its template, with the stubs in the holes. -/
theorem fits_template (m : Method) (index : Int) (requestRows responseRows : List (List String))
    (input output : String) :
    Fragment.Fits ⟨m.sectionText index requestRows input responseRows output, [input, output]⟩
      (m.template index requestRows responseRows) where
  holes_eq := rfl
  fill_eq := by
    simp [template, Template.fill, sectionText, linesText, String.append_assoc]

/-- A relation between the fields of each type holds between those of parameters. -/
theorem alike_inputField {R : StubField → StubField → Prop}
    (h : ∀ name e, R ⟨name, (Resolver.resolve ⟨locals, s⟩ e).stub⟩
      ⟨name, (Resolver.resolve ⟨locals, t⟩ e).stub⟩) (p : Parameter) :
    Alike R (inputField ⟨locals, s⟩ p) (inputField ⟨locals, t⟩ p) := by
  refine (Alike.refl (fun _ => rfl) (lowerName p.name)).bind fun name _ hname => ?_
  obtain rfl : name = _ := hname
  have htype := Resolver.alike_resolveValue (R := fun a b => R ⟨name, a.stub⟩ ⟨name, b.stub⟩)
    (h name) p.type
  exact htype.bind fun _ _ hfield => .ok hfield

/-- A relation between the fields of each type, with the names that return values have, holds
between those of parameters. -/
theorem alike_outputField {R : StubField → StubField → Prop}
    (h : ∀ (isReturn : Bool) (name : String) (e : TypeExpr),
      R ⟨if isReturn || name = Text.lower s.returnValueMarker then returnField else name,
          (Resolver.resolve ⟨locals, s⟩ e).stub⟩
        ⟨if isReturn || name = Text.lower t.returnValueMarker then returnField else name,
          (Resolver.resolve ⟨locals, t⟩ e).stub⟩) (p : Parameter) :
    Alike R (outputField s ⟨locals, s⟩ p) (outputField t ⟨locals, t⟩ p) := by
  refine (Alike.refl (fun _ => rfl) (lowerName p.name)).bind fun name _ hname => ?_
  obtain rfl : name = _ := hname
  have htype := Resolver.alike_resolveValue (R := fun a b =>
    R ⟨if p.isReturn || name = Text.lower s.returnValueMarker then returnField else name, a.stub⟩
      ⟨if p.isReturn || name = Text.lower t.returnValueMarker then returnField else name, b.stub⟩)
    (h p.isReturn name) p.type
  exact htype.bind fun _ _ hfield => .ok hfield

/-- A relation between the rows of each type holds between those of parameters. -/
theorem alike_parameterRow {R : List String → List String → Prop}
    (h : ∀ name e, R [(Resolver.resolve ⟨locals, s⟩ e).cell, name, ""]
      [(Resolver.resolve ⟨locals, t⟩ e).cell, name, ""]) (p : Parameter) :
    Alike R (parameterRow ⟨locals, s⟩ p) (parameterRow ⟨locals, t⟩ p) := by
  have htype := Resolver.alike_resolveValue
    (R := fun a b => R [a.cell, p.name.plain, ""] [b.cell, p.name.plain, ""]) (h _) p.type
  exact htype.bind fun _ _ hrow => .ok hrow

/-- The stubs of a method depend on the settings of stubs. -/
theorem sameStubs_render (h : AgreeOn stubFields s t) (m : Method) (index : Int)
    (records : List Record) :
    Alike SameStubs (m.render active (some s) index records)
      (m.render active (some t) index records) := by
  have hmarker : s.returnValueMarker = t.returnValueMarker := h .returnValueMarker (by decide)
  rw [render_eq, render_eq]
  refine (Resolver.alike_ofRecords active s t records).bind ?_
  rintro _ _ ⟨locals, rfl, rfl⟩
  have hinputs : Alike (· = ·) (m.request.mapM (inputField ⟨locals, s⟩))
      (m.request.mapM (inputField ⟨locals, t⟩)) :=
    Alike.mapM_eq fun p _ => alike_inputField (fun name e => by rw [Resolver.stub_resolve h]) p
  have houtputs : Alike (· = ·) (m.response.mapM (outputField s ⟨locals, s⟩))
      (m.response.mapM (outputField t ⟨locals, t⟩)) :=
    Alike.mapM_eq fun p _ => alike_outputField
      (fun isReturn name e => by rw [hmarker, Resolver.stub_resolve h]) p
  -- The rows may differ, but they are made before the section is: they have to fail alike.
  have hrows (parameters : List Parameter) :
      Alike (List.Forall₂ fun _ _ => True) (parameters.mapM (parameterRow ⟨locals, s⟩))
        (parameters.mapM (parameterRow ⟨locals, t⟩)) :=
    Alike.mapM fun p _ => alike_parameterRow (fun _ _ => trivial) p
  refine hinputs.bind fun inputs _ hinput => houtputs.bind fun outputs _ houtput => ?_
  obtain rfl : inputs = _ := hinput
  obtain rfl : outputs = _ := houtput
  refine (hrows m.request).bind fun _ _ _ => (hrows m.response).bind fun _ _ _ => .ok ?_
  simp only [SameStubs, renderStub_congr h]

/-- What stands around the stubs of a method depends on the wiki settings. -/
theorem sameProse_render (h : AgreeOn proseFields s t) (m : Method) (index : Int)
    (records : List Record) :
    Alike SameProse (m.render active (some s) index records)
      (m.render active (some t) index records) := by
  rw [render_eq, render_eq]
  refine (Resolver.alike_ofRecords active s t records).bind ?_
  rintro _ _ ⟨locals, rfl, rfl⟩
  -- Here it is the fields that may differ as long as they fail alike.
  have hinputs : Alike (List.Forall₂ fun _ _ => True) (m.request.mapM (inputField ⟨locals, s⟩))
      (m.request.mapM (inputField ⟨locals, t⟩)) :=
    Alike.mapM fun p _ => alike_inputField (fun _ _ => trivial) p
  have houtputs : Alike (List.Forall₂ fun _ _ => True) (m.response.mapM (outputField s ⟨locals, s⟩))
      (m.response.mapM (outputField t ⟨locals, t⟩)) :=
    Alike.mapM fun p _ => alike_outputField (fun _ _ _ => trivial) p
  have hrows (parameters : List Parameter) :
      Alike (· = ·) (parameters.mapM (parameterRow ⟨locals, s⟩))
        (parameters.mapM (parameterRow ⟨locals, t⟩)) :=
    Alike.mapM_eq fun p _ => alike_parameterRow
      (fun name e => by rw [Reference.cell, Reference.cell, Resolver.display_resolve h]) p
  refine hinputs.bind fun inputs inputs' _ => houtputs.bind fun outputs outputs' _ => ?_
  refine (hrows m.request).bind fun requestRows _ hrequest => ?_
  refine (hrows m.response).bind fun responseRows _ hresponse => ?_
  obtain rfl : requestRows = _ := hrequest
  obtain rfl : responseRows = _ := hresponse
  exact .ok ⟨_, m.fits_template index requestRows responseRows _ _,
    m.fits_template index requestRows responseRows _ _⟩

end Method

namespace Record

/-- The section of a record, with its text written out. -/
theorem render_eq (active settings : Settings) (r : Record) (records : List Record) :
    r.render active (some settings) records = do
      let resolver ← Resolver.ofRecords active (some settings) records
      let parent ← resolver.resolveValue (r.parentSpelling settings)
      let members ← r.members.mapM (resolveMember resolver)
      let stub := renderStub active (some settings) r.name.plain
        (parentField resolver parent ++ memberFields members)
      return ⟨r.sectionText parent members stub, [stub]⟩ := by
  simp [render, sectionText, headingText, linesText, String.append_assoc, Function.comp_def]

/-- The row of a member. -/
def memberRow (entry : String × Reference) : String :=
  Builder.rowText [entry.1, entry.2.cell]

/-- The section of a record without its stub. -/
def template (r : Record) (parent : Reference) (rows : List String) : Template :=
  [some (r.headingText parent ++ linesText (Builder.rowText ["Name", "Type"] ::
    Builder.rowText ["---", "---"] :: rows) ++ "\n"), none]

/-- The section fits its template, with the stubs in the holes. -/
theorem fits_template (r : Record) (parent : Reference) (members : List (String × Reference))
    (stub : String) :
    Fragment.Fits ⟨r.sectionText parent members stub, [stub]⟩
      (r.template parent (members.map memberRow)) where
  holes_eq := rfl
  fill_eq := by
    simp [template, Template.fill, sectionText, memberRow, linesText, String.append_assoc,
      Function.comp_def]

/-- A relation between the references to each type holds between those to the types of members. -/
theorem alike_resolveMember {R : Reference → Reference → Prop}
    (h : ∀ e, R (Resolver.resolve ⟨locals, s⟩ e) (Resolver.resolve ⟨locals, t⟩ e)) (m : Member) :
    Alike (fun a b => a.1 = b.1 ∧ R a.2 b.2) (resolveMember ⟨locals, s⟩ m)
      (resolveMember ⟨locals, t⟩ m) := by
  refine (Resolver.alike_resolveValue h m.type).bind fun _ _ htype => ?_
  cases m.name with
  | text name => exact .ok ⟨rfl, htype⟩
  | _ => exact .error _

/-- The fields of members depend on their names and their stub texts. -/
theorem memberFields_congr {members members' : List (String × Reference)}
    (h : List.Forall₂ (fun a b => a.1 = b.1 ∧ a.2.stub = b.2.stub) members members') :
    memberFields members = memberFields members' := by
  induction h with
  | nil => rfl
  | @cons a b as bs hab _ ih =>
    obtain ⟨name, type⟩ := a
    obtain ⟨_, type'⟩ := b
    obtain ⟨rfl, hstub⟩ := hab
    simp only [memberFields, List.filter_cons] at ih ⊢
    split
    · rw [List.map_cons, List.map_cons, ih, hstub]
    · exact ih

/-- The rows of members depend on their names and what is shown for their types. -/
theorem memberRows_congr {members members' : List (String × Reference)}
    (h : List.Forall₂ (fun a b => a.1 = b.1 ∧ a.2.display = b.2.display) members members') :
    members.map memberRow = members'.map memberRow := by
  induction h with
  | nil => rfl
  | cons hab _ ih =>
    rw [List.map_cons, List.map_cons, ih]
    simp only [memberRow, Reference.cell, hab.1, hab.2]

/-- The stub of a record depends on the settings of stubs. -/
theorem sameStubs_render (h : AgreeOn stubFields s t) (r : Record) (records : List Record) :
    Alike SameStubs (r.render active (some s) records) (r.render active (some t) records) := by
  rw [render_eq, render_eq, h.parentSpelling_eq (by decide)]
  refine (Resolver.alike_ofRecords active s t records).bind ?_
  rintro _ _ ⟨locals, rfl, rfl⟩
  have hparent := Resolver.alike_resolveValue (R := fun a b => a.stub = b.stub)
    (Resolver.stub_resolve h locals) (r.parentSpelling t)
  have hmembers := Alike.mapM fun m (_ : m ∈ r.members) =>
    alike_resolveMember (R := fun a b => a.stub = b.stub) (Resolver.stub_resolve h locals) m
  refine hparent.bind fun parent parent' hstub => ?_
  refine hmembers.bind fun members members' hfields => .ok ?_
  simp only [SameStubs, renderStub_congr h, memberFields_congr hfields, parentField, hstub]

/-- What stands around the stub of a record depends on the wiki settings. -/
theorem sameProse_render (h : AgreeOn proseFields s t) (r : Record) (records : List Record) :
    Alike SameProse (r.render active (some s) records) (r.render active (some t) records) := by
  rw [render_eq, render_eq, h.parentSpelling_eq (by decide)]
  refine (Resolver.alike_ofRecords active s t records).bind ?_
  rintro _ _ ⟨locals, rfl, rfl⟩
  have hparent := Resolver.alike_resolveValue (R := fun a b => a.display = b.display)
    (Resolver.display_resolve h locals) (r.parentSpelling t)
  have hmembers := Alike.mapM fun m (_ : m ∈ r.members) =>
    alike_resolveMember (R := fun a b => a.display = b.display)
      (Resolver.display_resolve h locals) m
  refine hparent.bind fun parent parent' hdisplay => ?_
  refine hmembers.bind fun members members' hrows => .ok ?_
  -- The stubs come from different fields, but the places that they are put in are the same.
  have htemplate : r.template parent' (members'.map memberRow) =
      r.template parent (members.map memberRow) := by
    rw [template, template, headingText, headingText, hdisplay, memberRows_congr hrows]
  refine ⟨_, r.fits_template parent members _, ?_⟩
  rw [← htemplate]
  exact r.fits_template parent' members' _

end Record

/-! ## Documents -/

namespace Protocol

/-- The heading above the record sections, if there are any. -/
def recordHeading (p : Protocol) : List Fragment :=
  if p.records.isEmpty then [] else [.plain typesHeading]

/-- The document of a protocol together with its stubs, those of the methods in front of those of
the records. -/
def page (active settings : Settings) (p : Protocol) : Except Misuse Fragment := do
  let methods ← (p.methods.zipIdx 1).mapM fun numbered =>
    numbered.1.render active (some settings) numbered.2 p.records
  let records ← p.records.mapM fun r => r.render active (some settings) p.records
  return .join "\n\n" ([.plain (p.header settings), .plain (methodIndex p.methods)] ++ methods ++
    (p.recordHeading ++ records))

/-- Fragments that are taken for their texts are made one after another all the same. -/
theorem mapM_doc {ι : Type} (f : ι → Except Misuse Fragment) (items : List ι) :
    (items.mapM fun item => do return (← f item).doc) =
      (items.mapM f).map (List.map Fragment.doc) := by
  induction items with
  | nil => rfl
  | cons item rest ih =>
    rw [List.mapM_cons, List.mapM_cons, ih]
    cases f item with
    | error e => rfl
    | ok fragment =>
      cases rest.mapM f with
      | error e => rfl
      | ok fragments => rfl

/-- The texts of the record sections and their heading. -/
theorem recordSections_eq_map (active settings : Settings) (p : Protocol) :
    p.recordSections active settings =
      (p.records.mapM fun (r : Record) => r.render active (some settings) p.records).map
        fun fragments => (p.recordHeading ++ fragments).map Fragment.doc := by
  rw [recordSections, mapM_doc, recordHeading]
  cases hempty : p.records.isEmpty with
  | true =>
    rw [List.isEmpty_iff.mp hempty]
    rfl
  | false =>
    cases p.records.mapM fun (r : Record) => r.render active (some settings) p.records with
    | error e => rfl
    | ok fragments => rfl

/-- The text of the page is the document. -/
theorem render_eq_page (active settings : Settings) (p : Protocol) :
    p.render active (some settings) = (p.page active settings).map Fragment.doc := by
  have hmethods : p.methodSections active settings =
      ((p.methods.zipIdx 1).mapM fun (numbered : Method × Nat) =>
        numbered.1.render active (some settings) numbered.2 p.records).map
          (List.map Fragment.doc) :=
    mapM_doc _ _
  rw [render, Settings.choose_some, page, hmethods, recordSections_eq_map]
  cases (p.methods.zipIdx 1).mapM fun (numbered : Method × Nat) =>
    numbered.1.render active (some settings) numbered.2 p.records with
  | error e => rfl
  | ok methods =>
    cases p.records.mapM fun (r : Record) => r.render active (some settings) p.records with
    | error e => rfl
    | ok records =>
      refine congrArg Except.ok ?_
      simp only [Fragment.join, List.map_append]
      rfl

/-- A relation between sections holds between pages, if it holds between texts without stubs and
between fragments that are joined. -/
theorem alike_page {R : Fragment → Fragment → Prop}
    (hjoin : ∀ fs gs, List.Forall₂ R fs gs → R (.join "\n\n" fs) (.join "\n\n" gs))
    (hplain : ∀ text, R (.plain text) (.plain text)) (p : Protocol)
    (hheader : R (.plain (p.header s)) (.plain (p.header t)))
    (hmethod : ∀ (m : Method) (index : Int),
      Alike R (m.render active (some s) index p.records) (m.render active (some t) index p.records))
    (hrecord : ∀ r : Record,
      Alike R (r.render active (some s) p.records) (r.render active (some t) p.records)) :
    Alike R (p.page active s) (p.page active t) := by
  have hmethods := Alike.mapM fun numbered (_ : numbered ∈ p.methods.zipIdx 1) =>
    hmethod numbered.1 numbered.2
  have hrecords := Alike.mapM fun r (_ : r ∈ p.records) => hrecord r
  have hheading : List.Forall₂ R p.recordHeading p.recordHeading :=
    List.forall₂_same.mpr fun fragment hfragment => by
      unfold recordHeading at hfragment
      split at hfragment
      · cases hfragment
      · rw [List.mem_singleton.mp hfragment]
        exact hplain typesHeading
  refine hmethods.bind fun methods methods' hsections => ?_
  refine hrecords.bind fun records records' htypes => .ok (hjoin _ _ ?_)
  have hfront : List.Forall₂ R [.plain (p.header s), .plain (methodIndex p.methods)]
      [.plain (p.header t), .plain (methodIndex p.methods)] :=
    .cons hheader (.cons (hplain _) .nil)
  exact List.rel_append (List.rel_append hfront hsections) (List.rel_append hheading htypes)

/-- The first line of a document depends on the wiki settings. -/
theorem header_congr (h : AgreeOn proseFields s t) (p : Protocol) : p.header s = p.header t := by
  have hbase : s.wikiBase = t.wikiBase := h .wikiBase (by decide)
  have hpage : s.protocolsPage = t.protocolsPage := h .protocolsPage (by decide)
  rw [header, header, Settings.protocolsUrl, Settings.protocolsUrl, hbase, hpage]

/-- Settings that agree on the fields for stubs give pages with the same stubs. -/
theorem sameStubs_page (h : AgreeOn stubFields s t) (p : Protocol) :
    Alike SameStubs (p.page active s) (p.page active t) :=
  alike_page (fun _ _ => Fragment.sameStubs_join _) (fun _ => rfl) p rfl
    (fun m index => m.sameStubs_render h index p.records)
    fun r => r.sameStubs_render h p.records

/-- Settings that agree on the fields for prose give pages with the same prose. -/
theorem sameProse_page (h : AgreeOn proseFields s t) (p : Protocol) :
    Alike SameProse (p.page active s) (p.page active t) := by
  refine alike_page (fun _ _ => Fragment.sameProse_join _) Fragment.sameProse_plain p ?_
    (fun m index => m.sameProse_render h index p.records)
    fun r => r.sameProse_render h p.records
  rw [header_congr h]
  exact Fragment.sameProse_plain _

end Protocol

/-- **Wiki settings stay out of stubs, and settings of stubs stay in them.** Settings that agree on
what concerns stubs give every method, record and document the same stubs. Settings that agree on
what concerns the wiki give them the same text around the stubs: there is one text with places left
open into which the stubs of either side fit. In both cases a section that cannot be made with the
one cannot be made with the other, for the same reason. -/
theorem settings_reach_stubs_or_prose (active s t : Settings) (m : Method) (index : Int)
    (r : Record) (records : List Record) (p : Protocol) :
    (AgreeOn stubFields s t →
      (m.render active (some s) index records).map Fragment.stubs =
          (m.render active (some t) index records).map Fragment.stubs ∧
        (r.render active (some s) records).map Fragment.stubs =
          (r.render active (some t) records).map Fragment.stubs ∧
        (p.page active s).map Fragment.stubs = (p.page active t).map Fragment.stubs) ∧
    (AgreeOn proseFields s t →
      Alike SameProse (m.render active (some s) index records)
        (m.render active (some t) index records) ∧
        Alike SameProse (r.render active (some s) records) (r.render active (some t) records) ∧
        Alike SameProse (p.page active s) (p.page active t)) ∧
    p.render active (some s) = (p.page active s).map Fragment.doc ∧
      p.render active (some t) = (p.page active t).map Fragment.doc := by
  refine ⟨fun h => ⟨?_, ?_, ?_⟩, fun h => ⟨?_, ?_, ?_⟩, ?_, ?_⟩
  · exact (m.sameStubs_render h index records).map_eq
  · exact (r.sameStubs_render h records).map_eq
  · exact (p.sameStubs_page h).map_eq
  · exact m.sameProse_render h index records
  · exact r.sameProse_render h records
  · exact p.sameProse_page h
  · exact p.render_eq_page active s
  · exact p.render_eq_page active t

/-- A method that takes a list and returns a truth value. -/
def listedMethod : Method :=
  ⟨.text "Find", [⟨.text "ids", .text "qlist<uint32>", .integer 1, false⟩],
    [⟨.text "%retval%", .text "bool", .null, true⟩]⟩

/-- A record of the same protocol, with a list as well. -/
def listedRecord : Record :=
  ⟨.text "Group", .null, [⟨.text "members", .text "qlist<Group>"⟩]⟩

/-- The protocol of the two. -/
def listedProtocol : Protocol :=
  ⟨.text "Search", "0x12", [listedMethod], [listedRecord]⟩

/-- Another wiki changes the document and no stub; another dialect changes the stubs and nothing
around them. -/
theorem listedProtocol_settings_reach :
    let moved : Settings := { wikiBase := "https://wiki" }
    let dialect : Settings := { stubLanguage := "text", listStubType := "Vec" }
    AgreeOn stubFields {} moved ∧ AgreeOn proseFields {} dialect ∧
      (listedProtocol.page {} {}).map Fragment.stubs =
        (listedProtocol.page {} moved).map Fragment.stubs ∧
      (listedProtocol.page {} {}).map Fragment.doc ≠
        (listedProtocol.page {} moved).map Fragment.doc ∧
      Alike SameProse (listedProtocol.page {} {}) (listedProtocol.page {} dialect) ∧
      (listedProtocol.page {} {}).map Fragment.doc ≠
        (listedProtocol.page {} dialect).map Fragment.doc := by
  intro moved dialect
  have hmoved : AgreeOn stubFields {} moved := by decide
  have hdialect : AgreeOn proseFields {} dialect := by decide
  obtain ⟨hstubs, -⟩ := settings_reach_stubs_or_prose {} {} moved listedMethod 1 listedRecord
    [listedRecord] listedProtocol
  obtain ⟨-, hprose, -⟩ := settings_reach_stubs_or_prose {} {} dialect listedMethod 1 listedRecord
    [listedRecord] listedProtocol
  exact ⟨hmoved, hdialect, (hstubs hmoved).2.2, by decide +kernel, (hprose hdialect).2.2,
    by decide +kernel⟩

end ProtocolPages
