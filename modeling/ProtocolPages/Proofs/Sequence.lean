/-!
# Steps in sequence

Readers and renderers are sequences of steps that stop at the first failure. The facts of this file
take a sequence apart: when all of it succeeds, where it fails, and what happens to its error.
-/

namespace ProtocolPages

variable {ε ε' α β : Type}

/-- Steps in sequence succeed if each of them does. -/
theorem bind_eq_ok_iff {x : Except ε α} {f : α → Except ε β} {b : β} :
    (x >>= f) = .ok b ↔ ∃ a, x = .ok a ∧ f a = .ok b := by
  cases x with
  | error e => simp [Bind.bind, Except.bind]
  | ok a => simp [Bind.bind, Except.bind]

/-- A sequence of steps that stops does so at its first part or after it. -/
theorem bind_error_cases {x : Except ε α} {f : α → Except ε β} {e : ε}
    (h : (x >>= f) = .error e) : x = .error e ∨ ∃ a, x = .ok a ∧ f a = .error e := by
  cases x with
  | error e' => exact Or.inl (congrArg _ (Except.error.inj h))
  | ok a => exact Or.inr ⟨a, rfl, h⟩

/-- A step fails exactly if it does not succeed. -/
theorem exists_error_iff {x : Except ε α} : (∃ e, x = .error e) ↔ ¬∃ a, x = .ok a := by
  cases x <;> simp

/-- A step taken for each item succeeds if it succeeds for each of them. -/
theorem exists_mapM_eq_ok {f : α → Except ε β} {items : List α}
    (h : ∀ item ∈ items, ∃ b, f item = .ok b) : ∃ bs, items.mapM f = .ok bs := by
  induction items with
  | nil => exact ⟨[], rfl⟩
  | cons item rest ih =>
    obtain ⟨hitem, hrest⟩ := List.forall_mem_cons.mp h
    obtain ⟨b, hb⟩ := hitem
    obtain ⟨bs, hbs⟩ := ih hrest
    refine ⟨b :: bs, ?_⟩
    rw [List.mapM_cons, hb, hbs]
    rfl

/-- A step taken for each item has succeeded for each of them. -/
theorem exists_of_mapM_eq_ok {f : α → Except ε β} {items : List α} {bs : List β}
    (h : items.mapM f = .ok bs) {item : α} (hitem : item ∈ items) :
    ∃ b ∈ bs, f item = .ok b := by
  induction items generalizing bs with
  | nil => cases hitem
  | cons first rest ih =>
    rw [List.mapM_cons, bind_eq_ok_iff] at h
    obtain ⟨b, hfirst, h⟩ := h
    rw [bind_eq_ok_iff] at h
    obtain ⟨others, hrest, h⟩ := h
    obtain rfl : b :: others = bs := Except.ok.inj h
    rcases List.mem_cons.mp hitem with rfl | hlater
    · exact ⟨b, List.mem_cons_self, hfirst⟩
    · obtain ⟨c, hc, hstep⟩ := ih hrest hlater
      exact ⟨c, List.mem_cons_of_mem b hc, hstep⟩

/-- The results of a step taken for each item are known if the result of each step is. -/
theorem eq_map_of_mapM_eq_ok {f : α → Except ε β} {g : α → β} {items : List α} {bs : List β}
    (h : items.mapM f = .ok bs) (hg : ∀ item ∈ items, ∀ b, f item = .ok b → b = g item) :
    bs = items.map g := by
  induction items generalizing bs with
  | nil => exact (Except.ok.inj h).symm
  | cons first rest ih =>
    rw [List.mapM_cons, bind_eq_ok_iff] at h
    obtain ⟨b, hfirst, h⟩ := h
    rw [bind_eq_ok_iff] at h
    obtain ⟨others, hrest, h⟩ := h
    obtain rfl : b :: others = bs := Except.ok.inj h
    obtain ⟨hg, hothers⟩ := List.forall_mem_cons.mp hg
    rw [List.map_cons, hg b hfirst, ih hrest hothers]

/-- A list with an item that fails a condition has a first such item. -/
theorem exists_first_not {P : α → Prop} {items : List α}
    (h : ¬∀ x ∈ items, P x) :
    ∃ before x after, items = before ++ x :: after ∧ (∀ y ∈ before, P y) ∧ ¬P x := by
  induction items with
  | nil => exact absurd (by simp) h
  | cons x rest ih =>
    by_cases hx : P x
    · have hrest : ¬∀ y ∈ rest, P y := fun hall => h (List.forall_mem_cons.mpr ⟨hx, hall⟩)
      obtain ⟨before, y, after, rfl, hbefore, hy⟩ := ih hrest
      exact ⟨x :: before, y, after, rfl, List.forall_mem_cons.mpr ⟨hx, hbefore⟩, hy⟩
    · exact ⟨[], x, rest, rfl, by simp, hx⟩

/-- What happens to the error of steps in sequence happens to the error of each. -/
theorem mapError_bind (g : ε → ε') (x : Except ε α) (f : α → Except ε β) :
    (x >>= f).mapError g = x.mapError g >>= fun a => (f a).mapError g := by
  cases x <;> rfl

/-- What is returned has no error. -/
theorem mapError_pure (g : ε → ε') (a : α) : (pure a : Except ε α).mapError g = pure a := rfl

end ProtocolPages
