import ProtocolPages.Proofs.CrossReferences
import ProtocolPages.Proofs.TypeReading

/-!
# The spellings of lists

Lists within lists appear as so many list wrappers around what their innermost argument is resolved
to, whichever spelling each of them has. A list of bytes is a buffer instead. That is decided by its
whole spelling, before the spelling is taken apart; so blanks inside the spelling of a list make no
difference, except that a list of bytes with blanks is a list of bytes.
-/

namespace ProtocolPages

open Brackets TypeExpr

/-! ## Lists with basic spellings -/

/-- No basic spelling has blanks. -/
theorem Glossary.basicSpellings_filled :
    ∀ s ∈ basicSpellings, s.toList.any Text.isBlank = false := by
  decide

/-- A basic spelling that begins like a list is that of a list of bytes. -/
theorem Glossary.basicSpellings_lists (kind : ListKind) :
    ∀ s ∈ basicSpellings, (kind.spelling ++ "<").toList <+: s.toList →
      s = listSpelling kind "byte" := by
  cases kind <;> decide

/-- The lists of bytes are the only lists with a basic spelling. -/
theorem listSpelling_mem_basicSpellings_iff (kind : ListKind) (t : String) :
    listSpelling kind t ∈ Glossary.basicSpellings ↔ t = "byte" := by
  constructor
  · intro h
    have hbegins : (kind.spelling ++ "<").toList <+: (listSpelling kind t).toList := by
      simp [listSpelling, String.append_assoc]
    have hbytes := Glossary.basicSpellings_lists kind _ h hbegins
    rwa [listSpelling, listSpelling, String.append_left_inj, String.append_right_inj] at hbytes
  · rintro rfl
    cases kind <;> decide

/-- Among the spellings of lists with blanks, the basic ones are those of lists of bytes without
any. -/
theorem paddedSpelling_mem_basicSpellings_iff (kind : ListKind) {w₀ w₁ t w₂ : String}
    (hw₀ : Text.Blank w₀.toList) (hw₁ : Text.Blank w₁.toList) (hw₂ : Text.Blank w₂.toList) :
    paddedSpelling kind w₀ w₁ t w₂ ∈ Glossary.basicSpellings ↔
      t = "byte" ∧ w₀ = "" ∧ w₁ = "" ∧ w₂ = "" := by
  constructor
  · intro h
    have hfilled := Glossary.basicSpellings_filled _ h
    rw [List.any_eq_false] at hfilled
    have hempty {w : String} (hw : Text.Blank w.toList)
        (hinside : ∀ c ∈ w.toList, c ∈ (paddedSpelling kind w₀ w₁ t w₂).toList) : w = "" := by
      apply String.toList_inj.mp
      apply List.eq_nil_iff_forall_not_mem.mpr
      intro c hc
      exact hfilled c (hinside c hc) (hw c hc)
    obtain rfl := hempty hw₀ fun c hc => by simp [paddedSpelling, hc]
    obtain rfl := hempty hw₁ fun c hc => by simp [paddedSpelling, hc]
    obtain rfl := hempty hw₂ fun c hc => by simp [paddedSpelling, hc]
    rw [paddedSpelling_empty, listSpelling_mem_basicSpellings_iff] at h
    exact ⟨h, rfl, rfl, rfl⟩
  · rintro ⟨rfl, rfl, rfl, rfl⟩
    rw [paddedSpelling_empty, listSpelling_mem_basicSpellings_iff]

/-- A list is not a byte: its spelling has brackets. -/
theorem listSpelling_ne_byte (kind : ListKind) (t : String) : listSpelling kind t ≠ "byte" := by
  intro h
  have hopen : '<' ∈ (listSpelling kind t).toList := by
    simp [toList_listSpelling]
  rw [h] at hopen
  exact absurd hopen (by decide)

/-! ## Lists within lists -/

/-- The spelling of lists within lists, the outermost first. -/
def nestedSpelling (kinds : List ListKind) (t : String) : String :=
  kinds.foldr listSpelling t

/-- The reference to `m` lists within each other, around a type with the given reference. -/
def nestedReference (settings : Settings) (m : Nat) (base : Reference) : Reference where
  display := String.join (List.replicate m ("[List](" ++ settings.commonTypeUrl "list" ++ ")<")) ++
    base.display ++ String.join (List.replicate m ">")
  link := if 0 < m then some (settings.commonTypeUrl "list") else base.link
  stub := String.join (List.replicate m (settings.listStubType ++ "<")) ++
    base.stub ++ String.join (List.replicate m ">")

/-- The reference to the buffer type, which is linked if it is a record of the same document. -/
def bufferReference (locals : List String) : Reference :=
  if "NexBuffer" ∈ locals then ⟨"[NexBuffer](#nexbuffer)", some "#nexbuffer", "NexBuffer"⟩
  else ⟨"NexBuffer", none, "NexBuffer"⟩

/-- Without lists around it a reference stands for itself. -/
theorem nestedReference_zero (settings : Settings) (base : Reference) :
    nestedReference settings 0 base = base := by
  simp [nestedReference]

/-- One more list goes around the others. -/
theorem nestedReference_succ (settings : Settings) (m : Nat) (base : Reference) :
    nestedReference settings (m + 1) base =
      Resolver.listReference settings (nestedReference settings m base) := by
  have hclose : String.join (List.replicate (m + 1) ">") =
      String.join (List.replicate m ">") ++ ">" := by
    rw [List.replicate_succ', String.join_append, String.join_cons, String.join_nil,
      String.append_empty]
  rw [nestedReference, hclose, if_pos m.succ_pos]
  simp only [nestedReference, Resolver.listReference, Glossary.listAnchor, List.replicate_succ,
    String.join_cons, String.append_assoc]

/-- Lists within lists appear as wrappers around what the type inside them is resolved to. -/
theorem resolve_foldr_list (r : Resolver) (kinds : List ListKind) (e : TypeExpr) :
    r.resolve (kinds.foldr .list e) = nestedReference r.settings kinds.length (r.resolve e) := by
  induction kinds with
  | nil => exact (nestedReference_zero _ _).symm
  | cons kind rest ih =>
    rw [List.foldr_cons, Resolver.resolve, ih, List.length_cons, nestedReference_succ]

section Nested

variable {kinds : List ListKind} {t : String}

/-- Lists within lists can be the argument of another list. -/
theorem isArgument_nestedSpelling (ht : IsArgument t.toList) :
    IsArgument (nestedSpelling kinds t).toList := by
  induction kinds with
  | nil => exact ht
  | cons kind rest ih => exact isArgument_listSpelling kind ih.toBalanced

/-- Lists within lists around something other than bytes are not bytes. -/
theorem nestedSpelling_ne_byte (hbyte : t ≠ "byte") : nestedSpelling kinds t ≠ "byte" := by
  cases kinds with
  | nil => exact hbyte
  | cons kind rest => exact listSpelling_ne_byte kind (nestedSpelling rest t)

/-- A list is read as the list of its argument, unless it is a list of bytes. -/
theorem read_listSpelling (kind : ListKind) (ht : IsArgument t.toList) (hbyte : t ≠ "byte") :
    TypeExpr.read (listSpelling kind t) = .list kind (TypeExpr.read t) :=
  ofSpelling_listSpelling ht (mt (listSpelling_mem_basicSpellings_iff kind t).mp hbyte)

/-- Lists within lists are read from the outside to the inside. -/
theorem read_nestedSpelling (ht : IsArgument t.toList) (hbyte : t ≠ "byte") :
    TypeExpr.read (nestedSpelling kinds t) = kinds.foldr .list (TypeExpr.read t) := by
  induction kinds with
  | nil => rfl
  | cons kind rest ih =>
    rw [List.foldr_cons, ← ih]
    exact read_listSpelling kind (isArgument_nestedSpelling ht) (nestedSpelling_ne_byte hbyte)

end Nested

/-- The name of the buffer type is resolved to the record of that name, or to itself. -/
theorem nameReference_buffer (r : Resolver) :
    r.nameReference "NexBuffer" = bufferReference r.locals := by
  by_cases hlocal : "NexBuffer" ∈ r.locals
  · rw [Resolver.nameReference_of_mem hlocal, bufferReference, if_pos hlocal]
    decide
  · rw [Resolver.nameReference_of_not_mem hlocal, bufferReference, if_neg hlocal]
    rfl

/-- A list of bytes is a buffer, unless its spelling is the name of a record. -/
theorem resolveSpelling_bytes {r : Resolver} (kind : ListKind)
    (hlocal : listSpelling kind "byte" ∉ r.locals) :
    r.resolveSpelling (listSpelling kind "byte") = bufferReference r.locals := by
  have hbasic := (listSpelling_mem_basicSpellings_iff kind "byte").mpr rfl
  have hrename : Glossary.rename (listSpelling kind "byte") = "NexBuffer" := by
    cases kind <;> rfl
  rw [Resolver.resolveSpelling, TypeExpr.read, ofSpelling_listSpelling_of_mem hbasic,
    Resolver.resolve_basic_of_not_mem hlocal, hrename, nameReference_buffer]

/-- Lists within lists around something other than bytes. -/
theorem resolveSpelling_nested {r : Resolver} {kinds : List ListKind} {t : String}
    (ht : IsArgument t.toList) (hbyte : t ≠ "byte") :
    r.resolveSpelling (nestedSpelling kinds t) =
      nestedReference r.settings kinds.length (r.resolveSpelling t) := by
  rw [Resolver.resolveSpelling, read_nestedSpelling ht hbyte, resolve_foldr_list]
  rfl

/-- Lists within lists around bytes, the innermost of which is a buffer. -/
theorem resolveSpelling_nested_bytes {r : Resolver}
    (hlocals : ∀ kind, listSpelling kind "byte" ∉ r.locals) (kinds : List ListKind)
    (kind : ListKind) :
    r.resolveSpelling (nestedSpelling (kinds ++ [kind]) "byte") =
      nestedReference r.settings kinds.length (bufferReference r.locals) := by
  have hargument : IsArgument (listSpelling kind "byte").toList :=
    isArgument_listSpelling kind (balanced_of_not_mem (by decide) (by decide))
  have hbytes := listSpelling_ne_byte kind "byte"
  rw [nestedSpelling, List.foldr_append, List.foldr_cons, List.foldr_nil, ← nestedSpelling,
    resolveSpelling_nested hargument hbytes, resolveSpelling_bytes kind (hlocals kind)]

/-- Lists within lists are resolved by their number. -/
theorem resolveSpelling_nestedSpelling {r : Resolver} {t : String} (ht : IsArgument t.toList)
    (hlocals : ∀ kind, listSpelling kind "byte" ∉ r.locals) (kinds : List ListKind) :
    r.resolveSpelling (nestedSpelling kinds t) =
      if 0 < kinds.length ∧ t = "byte" then
        nestedReference r.settings (kinds.length - 1) (bufferReference r.locals)
      else nestedReference r.settings kinds.length (r.resolveSpelling t) := by
  by_cases hbyte : t = "byte"
  · subst hbyte
    rcases List.eq_nil_or_concat kinds with rfl | ⟨outer, kind, rfl⟩
    · rw [if_neg (by simp), List.length_nil, nestedReference_zero]
      rfl
    · rw [if_pos (by simp), List.concat_eq_append, List.length_append, List.length_singleton,
        Nat.add_sub_cancel, resolveSpelling_nested_bytes hlocals]
  · rw [if_neg fun h => hbyte h.2, resolveSpelling_nested ht hbyte]

/-- **The spellings of the list type are interchangeable at every depth.** Lists within lists around
an argument appear as that many wrappers around what the argument is resolved to. Around bytes there
is one wrapper less, since the innermost list is a buffer. Only the number of lists matters. -/
theorem nested_lists_resolve_alike (r : Resolver) (kinds : List ListKind) (t : String)
    (ht : IsArgument t.toList) (hlocals : ∀ kind, listSpelling kind "byte" ∉ r.locals) :
    r.resolveSpelling (nestedSpelling kinds t) =
      (if 0 < kinds.length ∧ t = "byte" then
        nestedReference r.settings (kinds.length - 1) (bufferReference r.locals)
      else nestedReference r.settings kinds.length (r.resolveSpelling t)) ∧
    ∀ others : List ListKind, others.length = kinds.length →
      r.resolveSpelling (nestedSpelling others t) = r.resolveSpelling (nestedSpelling kinds t) := by
  refine ⟨resolveSpelling_nestedSpelling ht hlocals kinds, fun others hlength => ?_⟩
  rw [resolveSpelling_nestedSpelling ht hlocals, resolveSpelling_nestedSpelling ht hlocals, hlength]

/-- Three lists around bytes appear as two around a buffer. Two lists around a name with a comma of
its own appear alike in other spellings. -/
theorem nested_lists_resolve_mixed :
    Resolver.resolveSpelling ⟨["Gathering"], shortSettings⟩ "qlist<qvector<std_list<byte>>>" =
      ⟨"[List](wiki/NEX-Common-Types#list)<[List](wiki/NEX-Common-Types#list)<NexBuffer>>",
        some "wiki/NEX-Common-Types#list", "NexList<NexList<NexBuffer>>"⟩ ∧
    Resolver.resolveSpelling ⟨["Gathering"], shortSettings⟩ "qvector<std_list<map<a,b> >>" =
      Resolver.resolveSpelling ⟨["Gathering"], shortSettings⟩ "qlist<qlist<map<a,b> >>" := by
  have hlocals (kind : ListKind) : listSpelling kind "byte" ∉ ["Gathering"] := by
    cases kind <;> decide
  have hbytes := nested_lists_resolve_alike ⟨["Gathering"], shortSettings⟩
    [.qList, .qVector, .stdList] "byte" (by decide) hlocals
  have hmap := nested_lists_resolve_alike ⟨["Gathering"], shortSettings⟩ [.qList, .qList]
    "map<a,b> " (by decide) hlocals
  exact ⟨hbytes.1.trans (by decide), hmap.2 [.qVector, .stdList] rfl⟩

/-! ## Blanks in the spelling of a list -/

section Padded

variable {r : Resolver} {kind : ListKind} {w₀ w₁ t w₂ : String}

/-- The spelling of a list is resolved as a list of its argument, whatever blanks it has, unless it
is that of a list of bytes without any. -/
theorem resolveSpelling_paddedSpelling (ht : IsArgument t.toList) (hw₀ : Text.Blank w₀.toList)
    (hw₁ : Text.Blank w₁.toList) (hw₂ : Text.Blank w₂.toList)
    (hbytes : ¬(t = "byte" ∧ w₀ = "" ∧ w₁ = "" ∧ w₂ = "")) :
    r.resolveSpelling (paddedSpelling kind w₀ w₁ t w₂) =
      Resolver.listReference r.settings (r.resolveSpelling t) := by
  have hbasic := mt (paddedSpelling_mem_basicSpellings_iff kind hw₀ hw₁ hw₂).mp hbytes
  rw [Resolver.resolveSpelling, TypeExpr.read, ofSpelling_paddedSpelling ht hw₀ hw₁ hw₂ hbasic,
    Resolver.resolve]
  rfl

/-- A list of something other than bytes is the same with blanks as without. -/
theorem resolveSpelling_padded_of_ne (ht : IsArgument t.toList) (hw₀ : Text.Blank w₀.toList)
    (hw₁ : Text.Blank w₁.toList) (hw₂ : Text.Blank w₂.toList) (hbyte : t ≠ "byte") :
    r.resolveSpelling (paddedSpelling kind w₀ w₁ t w₂) =
      r.resolveSpelling (listSpelling kind t) := by
  have hbytes {u₀ u₁ u₂ : String} : ¬(t = "byte" ∧ u₀ = "" ∧ u₁ = "" ∧ u₂ = "") :=
    fun h => hbyte h.1
  rw [← paddedSpelling_empty kind t, resolveSpelling_paddedSpelling ht hw₀ hw₁ hw₂ hbytes,
    resolveSpelling_paddedSpelling ht Text.blank_empty Text.blank_empty Text.blank_empty hbytes]

/-- A buffer does not appear as a list does: stubs write it without brackets. -/
theorem listReference_ne_bufferReference (settings : Settings) (element : Reference)
    (locals : List String) : Resolver.listReference settings element ≠ bufferReference locals := by
  intro h
  have hlist : '<' ∈ (Resolver.listReference settings element).stub.toList := by
    simp [Resolver.listReference]
  have hbuffer : (bufferReference locals).stub = "NexBuffer" := by
    rw [bufferReference]
    split <;> rfl
  rw [h, hbuffer] at hlist
  exact absurd hlist (by decide)

end Padded

/-- **Blanks in the spelling of a list change its meaning only if it is a list of bytes.** With
blanks around its brackets, a list of anything else is resolved like the one without. A list of
bytes with blanks is resolved as a list, and the one without as a buffer. -/
theorem padded_list_resolves_alike_iff (r : Resolver) (kind : ListKind) (w₀ w₁ t w₂ : String)
    (ht : IsArgument t.toList) (hw₀ : Text.Blank w₀.toList) (hw₁ : Text.Blank w₁.toList)
    (hw₂ : Text.Blank w₂.toList)
    (hlocals : ∀ name ∈ r.locals, '<' ∉ name.toList ∧ '>' ∉ name.toList) :
    (r.resolveSpelling (paddedSpelling kind w₀ w₁ t w₂) =
        r.resolveSpelling (listSpelling kind t) ↔
      (t = "byte" → w₀ = "" ∧ w₁ = "" ∧ w₂ = "")) ∧
    (t = "byte" → ¬(w₀ = "" ∧ w₁ = "" ∧ w₂ = "") →
      r.resolveSpelling (paddedSpelling kind w₀ w₁ t w₂) =
          Resolver.listReference r.settings (r.resolveSpelling "byte") ∧
        r.resolveSpelling (listSpelling kind t) = bufferReference r.locals) := by
  by_cases hbyte : t = "byte"
  · subst hbyte
    have hlocal : listSpelling kind "byte" ∉ r.locals := by
      intro hmem
      exact (hlocals _ hmem).1 (by simp [toList_listSpelling])
    have hbuffer := resolveSpelling_bytes kind hlocal
    by_cases hblanks : w₀ = "" ∧ w₁ = "" ∧ w₂ = ""
    · obtain ⟨rfl, rfl, rfl⟩ := hblanks
      rw [paddedSpelling_empty]
      simp
    · have hlist : r.resolveSpelling (paddedSpelling kind w₀ w₁ "byte" w₂) =
          Resolver.listReference r.settings (r.resolveSpelling "byte") :=
        resolveSpelling_paddedSpelling ht hw₀ hw₁ hw₂ fun h => hblanks h.2
      refine ⟨iff_of_false ?_ fun h => hblanks (h rfl), fun _ _ => ⟨hlist, hbuffer⟩⟩
      rw [hlist, hbuffer]
      exact listReference_ne_bufferReference _ _ _
  · exact ⟨iff_of_true (resolveSpelling_padded_of_ne ht hw₀ hw₁ hw₂ hbyte)
      fun h => absurd h hbyte, fun h => absurd h hbyte⟩

/-- A list of a name with a comma of its own is the same with blanks. -/
theorem padded_list_resolves_alike_map :
    Resolver.resolveSpelling ⟨["Gathering"], shortSettings⟩ "qlist <\tmap<Gathering, b> >" =
      Resolver.resolveSpelling ⟨["Gathering"], shortSettings⟩ "qlist<map<Gathering, b>>" := by
  have h := padded_list_resolves_alike_iff ⟨["Gathering"], shortSettings⟩ .qList " " "\t"
    "map<Gathering, b>" " " (by decide) (by decide) (by decide) (by decide)
    (List.forall_mem_singleton.mpr (by decide))
  exact h.1.mpr fun hbyte => absurd hbyte (by decide)

/-- With blanks, a list of bytes is no buffer. -/
theorem padded_bytes_resolve_apart :
    IsArgument "byte".toList ∧ Text.Tight "byte".toList ∧ Text.Blank " ".toList ∧
    Resolver.resolveSpelling ⟨[], shortSettings⟩ (paddedSpelling .qList "" " " "byte" " ") =
      ⟨"[List](wiki/NEX-Common-Types#list)<u8>", some "wiki/NEX-Common-Types#list",
        "NexList<u8>"⟩ ∧
    Resolver.resolveSpelling ⟨[], shortSettings⟩ (listSpelling .qList "byte") =
      ⟨"NexBuffer", none, "NexBuffer"⟩ ∧
    Resolver.resolveSpelling ⟨[], shortSettings⟩ (paddedSpelling .qList "" " " "byte" " ") ≠
      Resolver.resolveSpelling ⟨[], shortSettings⟩ (listSpelling .qList "byte") := by
  decide +kernel

end ProtocolPages
