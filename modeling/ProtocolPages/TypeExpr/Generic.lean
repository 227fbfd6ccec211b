import ProtocolPages.Text.CharClass

/-!
# Generic spellings

A generic spelling is a head followed by arguments in angle brackets, such as `head<a, b<c>>`.
The arguments are separated by the commas that stand outside all inner brackets.
-/

namespace ProtocolPages.TypeExpr

/-- Split the inside of the brackets at its outer commas. `depth` counts the inner brackets that are
open and `piece` holds the current piece in reverse. There is no result if a bracket is closed that
was never opened, or if one stays open. -/
def splitBody (depth : Nat) (piece : List Char) : List Char → Option (List (List Char))
  | [] => if depth = 0 then some [piece.reverse] else none
  | '<' :: rest => splitBody (depth + 1) ('<' :: piece) rest
  | '>' :: rest =>
    match depth with
    | 0 => none
    | depth + 1 => splitBody depth ('>' :: piece) rest
  | ',' :: rest =>
    if depth = 0 then (splitBody 0 [] rest).map (piece.reverse :: ·)
    else splitBody depth (',' :: piece) rest
  | c :: rest => splitBody depth (c :: piece) rest

/-- The arguments between the brackets, each without surrounding blanks. There is no result if the
brackets do not match or an argument is blank. -/
def splitArgs (body : List Char) : Option (List (List Char)) :=
  match splitBody 0 [] body with
  | some pieces =>
    let args := pieces.map Text.stripChars
    if args.any (·.isEmpty) then none else some args
  | none => none

/-- Split a spelling into its head and its arguments. There is no result unless something stands
before the first opening bracket, the spelling ends with a closing one, and what stands between is
a list of arguments. -/
def splitGeneric (token : List Char) : Option (List Char × List (List Char)) :=
  match token.takeWhile (· != '<'), token.dropWhile (· != '<') with
  | c :: head, _ :: inside =>
    if inside.getLast? = some '>' then
      (splitArgs inside.dropLast).map (Text.stripChars (c :: head), ·)
    else none
  | _, _ => none

/-- No piece is longer than what it was cut from. -/
theorem length_le_of_mem_splitBody {depth : Nat} {piece cs : List Char} {pieces : List (List Char)}
    (h : splitBody depth piece cs = some pieces) {p : List Char} (hp : p ∈ pieces) :
    p.length ≤ piece.length + cs.length := by
  fun_induction splitBody depth piece cs generalizing pieces with
  | case1 piece =>
    simp only [Option.some.injEq] at h
    subst h
    simp_all
  | case2 => simp at h
  | case3 depth piece rest ih =>
    have := ih h hp
    simp only [List.length_cons] at this ⊢
    omega
  | case4 => simp at h
  | case5 piece rest depth ih =>
    have := ih h hp
    simp only [List.length_cons] at this ⊢
    omega
  | case6 piece rest ih =>
    obtain ⟨others, hothers, rfl⟩ := Option.map_eq_some_iff.mp h
    rcases List.mem_cons.mp hp with rfl | hp
    · simp only [List.length_reverse, List.length_cons]
      omega
    · have := ih hothers hp
      simp only [List.length_nil, List.length_cons] at this ⊢
      omega
  | case7 depth piece rest _ ih =>
    have := ih h hp
    simp only [List.length_cons] at this ⊢
    omega
  | case8 depth piece c rest _ _ _ ih =>
    have := ih h hp
    simp only [List.length_cons] at this ⊢
    omega

/-- No argument is longer than the inside of the brackets. -/
theorem length_le_of_mem_splitArgs {body arg : List Char} {args : List (List Char)}
    (h : splitArgs body = some args) (harg : arg ∈ args) : arg.length ≤ body.length := by
  unfold splitArgs at h
  split at h
  · next pieces hpieces =>
    dsimp only at h
    split at h
    · exact nomatch h
    · cases h
      obtain ⟨piece, hpiece, rfl⟩ := List.mem_map.mp harg
      have hstrip := Text.length_stripChars_le piece
      have hbody := length_le_of_mem_splitBody hpieces hpiece
      simp only [List.length_nil] at hbody
      omega
  · exact nomatch h

/-- An argument is shorter than the spelling by at least the two brackets and the head. -/
theorem length_add_three_le_of_mem_splitGeneric {token head arg : List Char}
    {args : List (List Char)} (h : splitGeneric token = some (head, args)) (harg : arg ∈ args) :
    arg.length + 3 ≤ token.length := by
  unfold splitGeneric at h
  split at h
  · next c before opened inside hbefore hopened =>
    split at h
    · next hlast =>
      obtain ⟨found, hfound, h⟩ := Option.map_eq_some_iff.mp h
      cases h
      have hinside : inside ≠ [] := by
        rintro rfl
        simp at hlast
      have hpos := List.length_pos_iff.mpr hinside
      have harg := length_le_of_mem_splitArgs hfound harg
      have htoken : (c :: before) ++ (opened :: inside) = token := by
        rw [← hbefore, ← hopened, List.takeWhile_append_dropWhile]
      have hlength := congrArg List.length htoken
      simp only [List.length_append, List.length_cons, List.length_dropLast] at hlength harg
      omega
    · exact nomatch h
  · exact nomatch h

end ProtocolPages.TypeExpr
