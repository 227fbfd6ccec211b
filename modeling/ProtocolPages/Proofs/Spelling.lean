import ProtocolPages.TypeExpr

/-!
# Where the parts of a spelling come from

Reading a spelling cuts it up and adds nothing. The pieces between the outer commas, put together
again, are what stood between the brackets; so each argument is a stretch of the spelling, and so is
each name that the type is made of.
-/

namespace ProtocolPages

/-- Stripping leaves a stretch of the characters. -/
theorem Text.isInfix_stripChars (cs : List Char) : Text.stripChars cs <:+: cs := by
  have hfront := List.dropWhile_suffix (l := cs) Text.isBlank
  have hback := List.dropWhile_suffix (l := (cs.dropWhile Text.isBlank).reverse) Text.isBlank
  have hkept : Text.stripChars cs <+: cs.dropWhile Text.isBlank := by
    have hreversed := List.reverse_prefix.mpr hback
    rwa [List.reverse_reverse] at hreversed
  exact hkept.isInfix.trans hfront.isInfix

/-- Each of several lists is a stretch of what they are joined to. -/
theorem infix_intercalate {α : Type} {separator part : List α} {parts : List (List α)}
    (h : part ∈ parts) : part <:+: separator.intercalate parts := by
  induction parts with
  | nil => cases h
  | cons first rest ih =>
    by_cases hrest : rest = []
    · subst hrest
      obtain rfl := List.mem_singleton.mp h
      exact List.intercalate_singleton ▸ List.infix_refl part
    · rw [List.intercalate_cons_of_ne_nil hrest]
      rcases List.mem_cons.mp h with rfl | hlater
      · rw [List.append_assoc]
        exact (List.prefix_append part _).isInfix
      · exact (ih hlater).trans (List.suffix_append _ _).isInfix

namespace TypeExpr

/-- The pieces between the outer commas are what they were cut from, and there is at least one. -/
theorem intercalate_splitBody {depth : Nat} {piece cs : List Char} {pieces : List (List Char)}
    (h : splitBody depth piece cs = some pieces) :
    pieces ≠ [] ∧ [','].intercalate pieces = piece.reverse ++ cs := by
  fun_induction splitBody depth piece cs generalizing pieces with
  | case1 piece =>
    cases h
    simp
  | case2 => cases h
  | case3 depth piece rest ih => simpa using ih h
  | case4 => cases h
  | case5 piece rest depth ih => simpa using ih h
  | case6 piece rest ih =>
    obtain ⟨others, hothers, rfl⟩ := Option.map_eq_some_iff.mp h
    obtain ⟨hne, hjoined⟩ := ih hothers
    refine ⟨List.cons_ne_nil _ _, ?_⟩
    rw [List.intercalate_cons_of_ne_nil hne, hjoined]
    simp
  | case7 depth piece rest _ ih => simpa using ih h
  | case8 depth piece c rest _ _ _ ih => simpa using ih h

/-- Each argument is a stretch of the inside of the brackets. -/
theorem infix_of_mem_splitArgs {body arg : List Char} {args : List (List Char)}
    (h : splitArgs body = some args) (harg : arg ∈ args) : arg <:+: body := by
  unfold splitArgs at h
  split at h
  · next pieces hpieces =>
    dsimp only at h
    split at h
    · cases h
    · cases h
      obtain ⟨piece, hpiece, rfl⟩ := List.mem_map.mp harg
      have hbody : piece <:+: body := by
        have hjoined := (intercalate_splitBody hpieces).2
        rw [List.reverse_nil, List.nil_append] at hjoined
        exact hjoined ▸ infix_intercalate hpiece
      exact (Text.isInfix_stripChars piece).trans hbody
  · cases h

/-- Each argument is a stretch of the spelling. -/
theorem infix_of_mem_splitGeneric {token head arg : List Char} {args : List (List Char)}
    (h : splitGeneric token = some (head, args)) (harg : arg ∈ args) : arg <:+: token := by
  unfold splitGeneric at h
  split at h
  · next c before opened inside _ hopened =>
    split at h
    · obtain ⟨found, hfound, hpair⟩ := Option.map_eq_some_iff.mp h
      cases hpair
      have hinside : inside <:+: token := by
        have hdropped := List.dropWhile_suffix (l := token) (· != '<')
        rw [hopened] at hdropped
        exact (List.suffix_cons opened inside).isInfix.trans hdropped.isInfix
      have hdropLast := List.IsPrefix.isInfix <| List.dropLast_prefix inside
      exact (infix_of_mem_splitArgs hfound harg).trans (hdropLast.trans hinside)
    · cases h
  · cases h

/-- The names and spellings that a type is made of. -/
def texts : TypeExpr → List String
  | basic name => [name]
  | named name => [name]
  | holder inner raw => [inner, raw]
  | list _ inner => inner.texts

/-- Each name of a type is a stretch of its spelling. -/
theorem infix_of_mem_texts {basics : List String} {raw : List Char} {s : String}
    (h : s ∈ (ofChars basics raw).texts) : s.toList <:+: raw := by
  have hstripped {cs : List Char} (hs : s = String.ofList (Text.stripChars cs)) :
      s.toList <:+: cs := by
    rw [hs, String.toList_ofList]
    exact Text.isInfix_stripChars cs
  fun_induction ofChars basics raw with
  | case1 raw name _ => exact hstripped (List.mem_singleton.mp h)
  | case2 raw name _ _ => exact hstripped (List.mem_singleton.mp h)
  | case3 raw name _ head kind arg hsplit _ _ _ ih =>
    have harg := infix_of_mem_splitGeneric hsplit (List.mem_singleton_self arg)
    exact (ih h).trans (harg.trans (Text.isInfix_stripChars raw))
  | case4 raw name _ head arg args hsplit _ _ =>
    rcases List.mem_cons.mp h with rfl | hlast
    · have harg := infix_of_mem_splitGeneric hsplit List.mem_cons_self
      rw [String.toList_ofList]
      exact harg.trans (Text.isInfix_stripChars raw)
    · exact hstripped (List.mem_singleton.mp hlast)
  | case5 => exact hstripped (List.mem_singleton.mp h)
  | case6 => exact hstripped (List.mem_singleton.mp h)

end TypeExpr

end ProtocolPages
