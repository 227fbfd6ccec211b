import ProtocolPages.Proofs.Spelling
import Mathlib.Data.List.DropRight

/-!
# The grammar of generic spellings

A generic spelling is taken apart in one scan, which counts the open brackets and cuts at each comma
that it meets while none is open. Here the same spellings are described without a scan. The depth of
a text is the number of its opening brackets less that of its closing ones. A text is balanced if no
beginning of it has a negative depth and its own depth is zero, and a comma is an outer one if what
stands before it has depth zero. The scan accepts exactly the spellings of this grammar, and the
pieces that it finds are the only way to divide the inside of the brackets.
-/

namespace ProtocolPages

/-! ## Blanks at the ends -/

namespace Text

/-- There are blanks only. -/
def Blank (cs : List Char) : Prop :=
  ∀ c ∈ cs, isBlank c = true

instance (cs : List Char) : Decidable (Blank cs) :=
  decidable_of_iff (cs.all isBlank = true) List.all_eq_true

/-- Nothing is blank. -/
theorem blank_empty : Blank "".toList :=
  List.forall_mem_nil _

/-- No blank stands at either end. -/
structure Tight (cs : List Char) : Prop where
  /-- The first character, if there is one, is not blank. -/
  head : ∀ c ∈ cs.head?, isBlank c = false
  /-- The last character, if there is one, is not blank. -/
  last : ∀ c ∈ cs.getLast?, isBlank c = false

section Strip

variable {cs left right : List Char}

/-- What is stripped off is blank. -/
theorem exists_blank_ends (cs : List Char) :
    ∃ left right, Blank left ∧ Blank right ∧ cs = left ++ stripChars cs ++ right := by
  have hfront : cs.takeWhile isBlank ++ cs.dropWhile isBlank = cs := List.takeWhile_append_dropWhile
  have hback : stripChars cs ++ ((cs.dropWhile isBlank).reverse.takeWhile isBlank).reverse =
      cs.dropWhile isBlank := by
    rw [stripChars, ← List.reverse_append, List.takeWhile_append_dropWhile, List.reverse_reverse]
  refine ⟨cs.takeWhile isBlank, ((cs.dropWhile isBlank).reverse.takeWhile isBlank).reverse,
    fun c hc => ?_, fun c hc => ?_, ?_⟩
  · exact List.mem_takeWhile_imp hc
  · exact List.mem_takeWhile_imp (List.mem_reverse.mp hc)
  · rw [List.append_assoc, hback, hfront]

/-- After stripping, no blank stands at either end. -/
theorem tight_stripChars (cs : List Char) : Tight (stripChars cs) := by
  have hfront := List.head?_dropWhile_not isBlank cs
  have hback := List.head?_dropWhile_not isBlank (cs.dropWhile isBlank).reverse
  have hkept : stripChars cs <+: cs.dropWhile isBlank := by
    have hreversed := List.reverse_prefix.mpr
      (List.dropWhile_suffix (l := (cs.dropWhile isBlank).reverse) isBlank)
    rwa [List.reverse_reverse] at hreversed
  constructor
  · intro c hc
    have hhead : (cs.dropWhile isBlank).head? = some c := by
      obtain ⟨rest, hrest⟩ := hkept
      rw [← hrest, List.head?_append, Option.mem_def.mp hc]
      rfl
    simpa [hhead] using hfront
  · intro c hc
    rw [stripChars, List.getLast?_reverse, Option.mem_def] at hc
    simpa [hc] using hback

/-- Text without blanks at its ends is left alone. -/
theorem stripChars_of_tight (h : Tight cs) : stripChars cs = cs := by
  have hfront : cs.dropWhile isBlank = cs := by
    cases cs with
    | nil => rfl
    | cons c rest => exact List.dropWhile_cons_of_neg (by simp [h.head c rfl])
  have hback : cs.reverse.dropWhile isBlank = cs.reverse := by
    cases hreverse : cs.reverse with
    | nil => rfl
    | cons c rest =>
      have hlast : cs.getLast? = some c := by rw [List.getLast?_eq_head?_reverse, hreverse]; rfl
      exact List.dropWhile_cons_of_neg (by simp [h.last c hlast])
  rw [stripChars, hfront, hback, List.reverse_reverse]

instance (cs : List Char) : Decidable (Tight cs) :=
  decidable_of_iff (stripChars cs = cs) ⟨fun h => h ▸ tight_stripChars cs, stripChars_of_tight⟩

/-- Stripping twice is stripping once. -/
theorem stripChars_stripChars (cs : List Char) : stripChars (stripChars cs) = stripChars cs :=
  stripChars_of_tight (tight_stripChars cs)

/-- Nothing is left exactly if there are blanks only. -/
theorem stripChars_eq_nil_iff : stripChars cs = [] ↔ Blank cs := by
  constructor
  · intro h
    obtain ⟨left, right, hleft, hright, hcs⟩ := exists_blank_ends cs
    rw [h, List.append_nil] at hcs
    rw [hcs]
    intro c hc
    exact (List.mem_append.mp hc).elim (hleft c) (hright c)
  · intro h
    rw [stripChars, List.dropWhile_eq_nil_iff.mpr h]
    rfl

/-- Blanks around a text make no difference. -/
theorem stripChars_append (hleft : Blank left) (hright : Blank right) (cs : List Char) :
    stripChars (left ++ cs ++ right) = stripChars cs := by
  have hfront : (left ++ cs ++ right).dropWhile isBlank = (cs ++ right).dropWhile isBlank := by
    rw [List.append_assoc, List.dropWhile_append_of_pos hleft]
  by_cases hcs : Blank cs
  · have hrest : (cs ++ right).dropWhile isBlank = [] := by
      apply List.dropWhile_eq_nil_iff.mpr
      intro c hc
      exact (List.mem_append.mp hc).elim (hcs c) (hright c)
    rw [stripChars_eq_nil_iff.mpr hcs, stripChars, hfront, hrest]
    rfl
  · have hrest : (cs ++ right).dropWhile isBlank = cs.dropWhile isBlank ++ right := by
      rw [List.dropWhile_append, if_neg]
      rwa [List.isEmpty_iff, List.dropWhile_eq_nil_iff]
    have hback : Blank right.reverse := fun c hc => hright c (List.mem_reverse.mp hc)
    rw [stripChars, hfront, hrest, List.reverse_append, List.dropWhile_append_of_pos hback]
    rfl

end Strip

end Text

/-! ## Depth -/

namespace Brackets

/-- The number of opening brackets less that of closing ones. -/
def depth (cs : List Char) : Int :=
  cs.count '<' - cs.count '>'

/-- Every closing bracket has its opening one before it, and no bracket stays open. -/
structure Balanced (cs : List Char) : Prop where
  /-- No beginning closes more brackets than it opens. -/
  nonneg : ∀ before, before <+: cs → 0 ≤ depth before
  /-- As many brackets are closed as are opened. -/
  closed : depth cs = 0

/-- A comma stands outside all brackets. -/
def OuterComma (cs : List Char) : Prop :=
  ∃ before after, cs = before ++ ',' :: after ∧ depth before = 0

@[simp] theorem depth_nil : depth [] = 0 := rfl

/-- Depths add up. -/
@[simp] theorem depth_append (a b : List Char) : depth (a ++ b) = depth a + depth b := by
  simp only [depth, List.count_append]
  omega

/-- An opening bracket is one level more. -/
@[simp] theorem depth_cons_open (cs : List Char) : depth ('<' :: cs) = depth cs + 1 := by
  rw [depth, depth, List.count_cons_self, List.count_cons_of_ne (by decide)]
  omega

/-- A closing bracket is one level less. -/
@[simp] theorem depth_cons_close (cs : List Char) : depth ('>' :: cs) = depth cs - 1 := by
  rw [depth, depth, List.count_cons_self, List.count_cons_of_ne (by decide)]
  omega

/-- Other characters leave the depth as it is. -/
theorem depth_cons_of_ne {c : Char} (hopen : c ≠ '<') (hclose : c ≠ '>') (cs : List Char) :
    depth (c :: cs) = depth cs := by
  rw [depth, depth, List.count_cons_of_ne hopen, List.count_cons_of_ne hclose]

/-- An opening bracket makes one more. -/
theorem add_depth_open (d : Nat) : d + depth ['<'] = (d + 1 : Nat) := by
  rw [depth_cons_open, depth_nil]
  omega

/-- A closing bracket makes one less. -/
theorem add_depth_close (d : Nat) : (d + 1 : Nat) + depth ['>'] = d := by
  rw [depth_cons_close, depth_nil]
  omega

/-- Other characters leave the depth as it is. -/
theorem add_depth_of_ne {c : Char} (hopen : c ≠ '<') (hclose : c ≠ '>') (d : Nat) :
    d + depth [c] = d := by
  rw [depth_cons_of_ne hopen hclose, depth_nil, Int.add_zero]

/-- Text without brackets has depth zero. -/
theorem depth_of_not_mem {cs : List Char} (hopen : '<' ∉ cs) (hclose : '>' ∉ cs) :
    depth cs = 0 := by
  rw [depth, List.count_eq_zero_of_not_mem hopen, List.count_eq_zero_of_not_mem hclose]
  rfl

/-- Balanced texts one after the other are balanced. -/
theorem Balanced.append {a b : List Char} (ha : Balanced a) (hb : Balanced b) :
    Balanced (a ++ b) := by
  constructor
  · intro before hbefore
    rcases List.prefix_or_prefix_of_prefix hbefore (List.prefix_append a b) with hinner | hinner
    · exact ha.nonneg before hinner
    · obtain ⟨rest, rfl⟩ := hinner
      have hrest := hb.nonneg rest ((List.prefix_append_right_inj a).mp hbefore)
      rw [depth_append, ha.closed]
      omega
  · rw [depth_append, ha.closed, hb.closed]
    rfl

/-- A text between texts of depth zero is balanced if the whole is. -/
theorem Balanced.middle {a cs b : List Char} (h : Balanced (a ++ cs ++ b)) (ha : depth a = 0)
    (hb : depth b = 0) : Balanced cs := by
  constructor
  · rintro before ⟨after, rfl⟩
    have hbefore := h.nonneg (a ++ before) ⟨after ++ b, by simp⟩
    rw [depth_append] at hbefore
    omega
  · have hclosed := h.closed
    rw [depth_append, depth_append] at hclosed
    omega

/-- Text without brackets is balanced. -/
theorem balanced_of_not_mem {cs : List Char} (hopen : '<' ∉ cs) (hclose : '>' ∉ cs) :
    Balanced cs := by
  refine ⟨fun before hbefore => ?_, depth_of_not_mem hopen hclose⟩
  have hdepth := depth_of_not_mem (mt (hbefore.subset ·) hopen) (mt (hbefore.subset ·) hclose)
  omega

/-! ## Pieces -/

/-- A balanced text without an outer comma. -/
structure IsPiece (cs : List Char) : Prop extends Balanced cs where
  /-- No comma stands outside all brackets. -/
  noComma : ¬OuterComma cs

/-- The pieces are balanced, have no outer commas, and make up the text when they are joined by
commas. -/
structure Divides (pieces : List (List Char)) (body : List Char) : Prop where
  /-- Joined by commas, the pieces are the text. -/
  joined : [','].intercalate pieces = body
  /-- Each piece is balanced and has no outer comma. -/
  isPiece : ∀ piece ∈ pieces, IsPiece piece

/-- A piece is divided into itself. -/
theorem IsPiece.divides {cs : List Char} (h : IsPiece cs) : Divides [cs] cs :=
  ⟨List.intercalate_singleton, List.forall_mem_singleton.mpr h⟩

/-- What is made up of pieces is balanced. -/
theorem Divides.balanced {pieces : List (List Char)} {body : List Char} (h : Divides pieces body) :
    Balanced body := by
  obtain ⟨rfl, hpieces⟩ := h
  have hcomma : Balanced [','] := balanced_of_not_mem (by decide) (by decide)
  induction pieces with
  | nil => exact balanced_of_not_mem (by simp) (by simp)
  | cons piece others ih =>
    obtain ⟨hpiece, hothers⟩ := List.forall_mem_cons.mp hpieces
    by_cases hlast : others = []
    · subst hlast
      rw [List.intercalate_singleton]
      exact hpiece.toBalanced
    · rw [List.intercalate_cons_of_ne_nil hlast]
      exact (hpiece.append hcomma).append (ih hothers)

/-- What the scan has read of a piece while `d` brackets are open. -/
structure Unfinished (d : Nat) (read : List Char) : Prop where
  /-- No bracket was closed that was not open. -/
  nonneg : ∀ before, before <+: read → 0 ≤ depth before
  /-- This many brackets are open. -/
  depth_eq : depth read = d
  /-- No comma has ended the piece. -/
  noComma : ¬OuterComma read

/-- Nothing is unfinished at the depth zero. -/
theorem unfinished_nil : Unfinished 0 [] := by
  refine ⟨fun before hbefore => ?_, rfl, ?_⟩
  · obtain rfl := List.prefix_nil.mp hbefore
    exact Int.le_refl 0
  · rintro ⟨before, after, hread, -⟩
    simp at hread

/-- A piece is finished when no bracket is open. -/
theorem Unfinished.isPiece {read : List Char} (h : Unfinished 0 read) : IsPiece read :=
  ⟨⟨h.nonneg, h.depth_eq⟩, h.noComma⟩

/-- One more character belongs to the piece unless it closes a bracket too many or is an outer
comma. The scan holds what it has read in reverse. -/
theorem Unfinished.cons {d d' : Nat} {piece : List Char} {c : Char}
    (h : Unfinished d piece.reverse) (hdepth : d + depth [c] = d') (hcomma : c = ',' → d ≠ 0) :
    Unfinished d' (c :: piece).reverse := by
  rw [List.reverse_cons]
  have htotal : depth (piece.reverse ++ [c]) = d' := by rw [depth_append, h.depth_eq, hdepth]
  refine ⟨fun before hbefore => ?_, htotal, ?_⟩
  · rcases List.prefix_concat_iff.mp hbefore with rfl | hinner
    · omega
    · exact h.nonneg before hinner
  · -- A comma at the end is outside of all brackets only if no bracket is open.
    rintro ⟨before, after, hread, hbefore⟩
    rcases List.eq_nil_or_concat after with rfl | ⟨inner, last, rfl⟩
    · obtain ⟨rfl, hc⟩ := List.append_inj' hread rfl
      have hopen := hcomma (List.singleton_inj.mp hc)
      have hzero := h.depth_eq
      omega
    · rw [List.concat_eq_append, ← List.cons_append, ← List.append_assoc] at hread
      exact h.noComma ⟨before, inner, (List.append_inj' hread rfl).1, hbefore⟩

/-- What is still to be read closes the `d` brackets that are open, and no others. -/
structure Closing (d : Nat) (rest : List Char) : Prop where
  /-- No bracket will be closed that is not open. -/
  nonneg : ∀ before, before <+: rest → 0 ≤ d + depth before
  /-- In the end no bracket is open. -/
  closed : d + depth rest = 0

/-- After one character, the rest closes the brackets that are open then. -/
theorem Closing.tail {d d' : Nat} {c : Char} {rest : List Char} (h : Closing d (c :: rest))
    (hdepth : d + depth [c] = d') : Closing d' rest := by
  have hcons (cs : List Char) : depth (c :: cs) = depth [c] + depth cs := depth_append [c] cs
  constructor
  · intro before hbefore
    have hthere := h.nonneg (c :: before) (List.cons_prefix_cons.mpr ⟨rfl, hbefore⟩)
    rw [hcons] at hthere
    omega
  · have hend := h.closed
    rw [hcons] at hend
    omega

/-- A balanced text closes what it opens. -/
theorem Balanced.closing {cs : List Char} (h : Balanced cs) : Closing 0 cs := by
  constructor
  · intro before hbefore
    have hnonneg := h.nonneg before hbefore
    omega
  · have hclosed := h.closed
    omega

end Brackets

/-! ## The scan -/

namespace TypeExpr

open Brackets

/-- The scan cuts off pieces, if what it has read so far belongs to one. -/
theorem isPiece_of_mem_splitBody {depth : Nat} {piece cs : List Char} {pieces : List (List Char)}
    (h : splitBody depth piece cs = some pieces) (hread : Unfinished depth piece.reverse) :
    ∀ p ∈ pieces, IsPiece p := by
  -- Each step keeps what has been read unfinished, with the depth that the scan counts.
  fun_induction splitBody depth piece cs generalizing pieces with
  | case1 piece =>
    cases h
    exact List.forall_mem_singleton.mpr hread.isPiece
  | case2 => cases h
  | case3 depth piece rest ih =>
    exact ih h (hread.cons (add_depth_open depth) fun hc => absurd hc (by decide))
  | case4 => cases h
  | case5 piece rest depth ih =>
    exact ih h (hread.cons (add_depth_close depth) fun hc => absurd hc (by decide))
  | case6 piece rest ih =>
    obtain ⟨others, hothers, rfl⟩ := Option.map_eq_some_iff.mp h
    exact List.forall_mem_cons.mpr ⟨hread.isPiece, ih hothers unfinished_nil⟩
  | case7 depth piece rest hdepth ih =>
    exact ih h (hread.cons (add_depth_of_ne (by decide) (by decide) depth) fun _ => hdepth)
  | case8 depth piece c rest hopen hclose hcomma ih =>
    exact ih h (hread.cons (add_depth_of_ne hopen hclose depth) fun hc => absurd hc hcomma)

/-- The scan goes through a piece to its end. -/
theorem splitBody_append (before after rest : List Char) (h : IsPiece (before ++ after)) :
    splitBody (depth before).toNat before.reverse (after ++ rest) =
      splitBody 0 (before ++ after).reverse rest := by
  induction after generalizing before with
  | nil =>
    rw [List.append_nil] at h ⊢
    rw [h.closed]
    rfl
  | cons c after ih =>
    have hnext : before ++ c :: after = (before ++ [c]) ++ after := by simp
    have hbefore := h.nonneg before (List.prefix_append _ _)
    have hstep := ih (before ++ [c]) (hnext ▸ h)
    rw [← hnext, List.reverse_append, List.reverse_singleton, List.singleton_append,
      depth_append] at hstep
    rw [← hstep, List.cons_append]
    -- The scan tells four kinds of characters apart.
    by_cases hopen : c = '<'
    · subst hopen
      rw [splitBody, depth_cons_open, depth_nil]
      congr 1
      omega
    · by_cases hclose : c = '>'
      · subst hclose
        have hinside := h.nonneg (before ++ ['>']) ⟨after, by simp⟩
        obtain ⟨d, hd⟩ : ∃ d : Nat, (depth before).toNat = d + 1 := by
          refine ⟨(depth before).toNat - 1, ?_⟩
          rw [depth_append, depth_cons_close, depth_nil] at hinside
          omega
        rw [hd, splitBody, depth_cons_close, depth_nil]
        congr 1
        omega
      · have hdepth : depth [c] = 0 := depth_cons_of_ne hopen hclose []
        rw [hdepth, Int.add_zero]
        by_cases hcomma : c = ','
        · subst hcomma
          have hinside : (depth before).toNat ≠ 0 := by
            intro hzero
            exact h.noComma ⟨before, after, rfl, by omega⟩
          rw [splitBody, if_neg hinside]
        · rw [splitBody]
          · exact hopen
          · exact hclose
          · exact hcomma

/-- The scan cuts a text exactly into its pieces. -/
theorem splitBody_eq_some_iff {body : List Char} {pieces : List (List Char)} :
    splitBody 0 [] body = some pieces ↔ pieces ≠ [] ∧ Divides pieces body := by
  constructor
  · intro h
    obtain ⟨hne, hjoined⟩ := intercalate_splitBody h
    exact ⟨hne, hjoined, isPiece_of_mem_splitBody h unfinished_nil⟩
  · rintro ⟨hne, rfl, hpieces⟩
    induction pieces with
    | nil => exact absurd rfl hne
    | cons piece others ih =>
      obtain ⟨hpiece, hothers⟩ := List.forall_mem_cons.mp hpieces
      have hscan (rest : List Char) := splitBody_append [] piece rest hpiece
      by_cases hlast : others = []
      · subst hlast
        simpa [splitBody] using hscan []
      · rw [List.intercalate_cons_of_ne_nil hlast, List.append_assoc]
        refine (hscan _).trans ?_
        rw [List.singleton_append, splitBody, if_pos rfl, ih hlast hothers]
        simp

instance (cs : List Char) : Decidable (IsPiece cs) :=
  decidable_of_iff (splitBody 0 [] cs = some [cs]) <| by
    rw [splitBody_eq_some_iff]
    exact ⟨fun h => h.2.isPiece cs List.mem_cons_self, fun h => ⟨List.cons_ne_nil _ _, h.divides⟩⟩

/-- The scan gets to the end of a text that closes all brackets that are open and no others. -/
theorem exists_splitBody {depth : Nat} {piece cs : List Char} (h : Closing depth cs) :
    ∃ pieces, splitBody depth piece cs = some pieces := by
  fun_induction splitBody depth piece cs with
  | case1 piece => exact ⟨_, rfl⟩
  | case2 depth piece hopen =>
    have hclosed := h.closed
    rw [depth_nil] at hclosed
    omega
  | case3 depth piece rest ih => exact ih (h.tail (add_depth_open depth))
  | case4 piece rest =>
    -- A bracket is closed while none is open.
    have hfirst := h.nonneg ['>'] (List.cons_prefix_cons.mpr ⟨rfl, List.nil_prefix⟩)
    rw [depth_cons_close, depth_nil] at hfirst
    omega
  | case5 piece rest depth ih => exact ih (h.tail (add_depth_close depth))
  | case6 piece rest ih =>
    obtain ⟨pieces, hpieces⟩ := ih (h.tail (add_depth_of_ne (by decide) (by decide) 0))
    exact ⟨_, congrArg (Option.map (piece.reverse :: ·)) hpieces⟩
  | case7 depth piece rest _ ih =>
    exact ih (h.tail (add_depth_of_ne (by decide) (by decide) depth))
  | case8 depth piece c rest hopen hclose _ ih =>
    exact ih (h.tail (add_depth_of_ne hopen hclose depth))

/-- A balanced text is divided at its outer commas in exactly one way. -/
theorem existsUnique_divides {body : List Char} (h : Balanced body) :
    ∃! pieces, pieces ≠ [] ∧ Divides pieces body := by
  obtain ⟨pieces, hpieces⟩ : ∃ pieces, splitBody 0 [] body = some pieces :=
    exists_splitBody h.closing
  refine ⟨pieces, splitBody_eq_some_iff.mp hpieces, fun others hothers => ?_⟩
  exact Option.some.inj ((splitBody_eq_some_iff.mpr hothers).symm.trans hpieces)

/-! ## Generic spellings -/

/-- A generic spelling: a head without opening brackets, and between brackets a balanced text of
which no piece is blank. -/
structure Generic (token head body : List Char) (pieces : List (List Char)) : Prop where
  /-- The body stands in brackets behind the head. -/
  spelled : token = head ++ '<' :: (body ++ ['>'])
  /-- The head is not empty. -/
  headed : head ≠ []
  /-- The first opening bracket ends the head. -/
  unopened : '<' ∉ head
  /-- The brackets of the body match. -/
  balanced : Balanced body
  /-- The pieces are what stands between the outer commas of the body. -/
  divided : pieces ≠ [] ∧ Divides pieces body
  /-- No piece is blank. -/
  filled : ∀ piece ∈ pieces, ¬Text.Blank piece

/-- The arguments are the pieces without the blanks around them. -/
theorem splitArgs_eq_some_iff {body : List Char} {args : List (List Char)} :
    splitArgs body = some args ↔
      ∃ pieces, (pieces ≠ [] ∧ Divides pieces body) ∧ (∀ piece ∈ pieces, ¬Text.Blank piece) ∧
        args = pieces.map Text.stripChars := by
  have hany (pieces : List (List Char)) : (pieces.map Text.stripChars).any (·.isEmpty) = true ↔
      ¬∀ piece ∈ pieces, ¬Text.Blank piece := by
    simp [← Text.stripChars_eq_nil_iff]
  unfold splitArgs
  constructor
  · intro h
    split at h
    · next pieces hpieces =>
      dsimp only at h
      split at h
      · cases h
      · next hfilled =>
        cases h
        exact ⟨pieces, splitBody_eq_some_iff.mp hpieces, not_not.mp (mt (hany pieces).mpr hfilled),
          rfl⟩
    · cases h
  · rintro ⟨pieces, hdivided, hfilled, rfl⟩
    rw [splitBody_eq_some_iff.mpr hdivided]
    exact if_neg fun hblank => (hany pieces).mp hblank hfilled

/-- A spelling is split exactly if it is generic, into its head and its pieces without the blanks
around them. -/
theorem splitGeneric_eq_some_iff {token head : List Char} {args : List (List Char)} :
    splitGeneric token = some (head, args) ↔
      ∃ before body pieces, Generic token before body pieces ∧
        head = Text.stripChars before ∧ args = pieces.map Text.stripChars := by
  constructor
  · intro h
    unfold splitGeneric at h
    split at h
    · next c before opened inside hbefore hopened =>
      split at h
      · next hlast =>
        obtain ⟨found, hfound, hpair⟩ := Option.map_eq_some_iff.mp h
        cases hpair
        obtain ⟨pieces, hdivided, hfilled, rfl⟩ := splitArgs_eq_some_iff.mp hfound
        have hbracket : opened = '<' := by
          have hhead := List.head?_dropWhile_not (· != '<') token
          simpa [hopened] using hhead
        have htoken : token = (c :: before) ++ '<' :: (inside.dropLast ++ ['>']) := by
          rw [List.dropLast_append_getLast? '>' hlast, ← hbracket, ← hopened, ← hbefore,
            List.takeWhile_append_dropWhile]
        refine ⟨c :: before, inside.dropLast, pieces, ⟨htoken, List.cons_ne_nil _ _, ?_,
          hdivided.2.balanced, hdivided, hfilled⟩, rfl, rfl⟩
        intro hmem
        rw [← hbefore] at hmem
        simpa using List.mem_takeWhile_imp hmem
      · cases h
    · cases h
  · rintro ⟨before, body, pieces, ⟨rfl, hheaded, hunopened, -, hdivided, hfilled⟩, rfl, rfl⟩
    have hplain : ∀ c ∈ before, (c != '<') = true := by
      intro c hc
      simpa using ne_of_mem_of_not_mem hc hunopened
    obtain ⟨c, rest, rfl⟩ := List.exists_cons_of_ne_nil hheaded
    have hargs := splitArgs_eq_some_iff.mpr ⟨pieces, hdivided, hfilled, rfl⟩
    rw [splitGeneric, List.takeWhile_append_of_pos hplain, List.dropWhile_append_of_pos hplain,
      List.takeWhile_cons_of_neg (by decide), List.dropWhile_cons_of_neg (by decide),
      List.append_nil]
    simp [hargs]

/-- The pieces of a generic spelling are the only ones that its body is made up of. -/
theorem Generic.unique {token head body : List Char} {pieces others : List (List Char)}
    (h : Generic token head body pieces) (hothers : Divides others body) : others = pieces := by
  obtain ⟨hne, hpieces⟩ := h.divided
  by_cases hnone : others = []
  · -- Nothing is joined to an empty body, which has an empty piece.
    subst hnone
    obtain rfl : body = [] := hothers.joined.symm
    have hempty : pieces = [[]] :=
      (existsUnique_divides h.balanced).unique h.divided
        ⟨List.cons_ne_nil _ _, unfinished_nil.isPiece.divides⟩
    subst hempty
    exact absurd (List.forall_mem_nil _) (h.filled [] List.mem_cons_self)
  · exact (existsUnique_divides h.balanced).unique ⟨hnone, hothers⟩ ⟨hne, hpieces⟩

/-- **The generic spellings are those of the grammar, and nothing of them is lost.** A spelling is
split exactly if it is a head without opening brackets followed by a balanced text in brackets none
of whose pieces is blank. The result is the head and the pieces, all without the blanks around them.
The pieces are the only balanced texts without outer commas that make up the inside of the brackets
when they are joined by commas. -/
theorem splitGeneric_follows_grammar (token : List Char) :
    (∀ head args, splitGeneric token = some (head, args) ↔
      ∃ before body pieces, Generic token before body pieces ∧
        head = Text.stripChars before ∧ args = pieces.map Text.stripChars) ∧
    (splitGeneric token = none ↔ ∀ before body pieces, ¬Generic token before body pieces) ∧
    (∀ before body pieces, Generic token before body pieces →
      ∀ others, Divides others body → others = pieces) ∧
    ∀ body, Balanced body → ∃! pieces, pieces ≠ [] ∧ Divides pieces body := by
  refine ⟨fun head args => splitGeneric_eq_some_iff, ?_, ?_, fun body => existsUnique_divides⟩
  · rw [Option.eq_none_iff_forall_ne_some]
    constructor
    · intro hnone before body pieces hgeneric
      exact hnone _ (splitGeneric_eq_some_iff.mpr ⟨before, body, pieces, hgeneric, rfl, rfl⟩)
    · intro hnone found hfound
      obtain ⟨before, body, pieces, hgeneric, -, -⟩ := splitGeneric_eq_some_iff.mp hfound
      exact hnone before body pieces hgeneric
  · intro before body pieces hgeneric others hothers
    exact hgeneric.unique hothers

/-- A closing bracket in the head does not count, and an inner comma separates nothing. -/
theorem splitGeneric_stray_close :
    splitGeneric "a> < b<c,d> ,e>".toList =
      some ("a>".toList, ["b<c,d>".toList, "e".toList]) ∧
    ∀ others, Divides others " b<c,d> ,e".toList →
      others = [" b<c,d> ".toList, "e".toList] := by
  have hscan : splitBody 0 [] " b<c,d> ,e".toList = some [" b<c,d> ".toList, "e".toList] := by
    decide
  have hdivided := splitBody_eq_some_iff.mp hscan
  have hgeneric : Generic "a> < b<c,d> ,e>".toList "a> ".toList " b<c,d> ,e".toList
      [" b<c,d> ".toList, "e".toList] :=
    ⟨by decide, by decide, by decide, hdivided.2.balanced, hdivided, by decide⟩
  obtain ⟨hsome, -, hunique, -⟩ := splitGeneric_follows_grammar "a> < b<c,d> ,e>".toList
  exact ⟨(hsome _ _).mpr ⟨_, _, _, hgeneric, by decide, by decide⟩, hunique _ _ _ hgeneric⟩

end TypeExpr

end ProtocolPages
