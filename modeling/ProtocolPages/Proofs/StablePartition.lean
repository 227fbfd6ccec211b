import ProtocolPages.Proofs.Division
import Mathlib.Data.List.Basic

/-!
# Dividing parameters is a stable partition

The groups that the parameters of a method are divided into can be read off the tags. A parameter is
a return value, or it carries the number one or the number two, and no other value will do, however
it compares with these. Nothing is lost and nothing is doubled when the groups are put together, and
within each group the order of declaration stays. If there is a parameter of no group, the first one
is reported and those behind it are never looked at.
-/

namespace ProtocolPages

/-- The number that stands for a direction. -/
def Direction.number : Direction → Int
  | request => 1
  | response => 2

/-- A tag stands for a direction exactly if it is the number of the direction. -/
theorem Direction.ofTag?_eq_some_iff {tag : Value} {direction : Direction} :
    ofTag? tag = some direction ↔ tag = .integer direction.number := by
  constructor
  · intro h
    rcases eq_of_ofTag? h with rfl | rfl
    · obtain rfl : .request = direction := Option.some.inj h
      rfl
    · obtain rfl : .response = direction := Option.some.inj h
      rfl
  · rintro rfl
    cases direction <;> rfl

namespace Parameter

/-- Whether the parameter is no return value and its tag is the given whole number. -/
def carries (number : Int) (p : Parameter) : Bool :=
  !p.isReturn &&
    match p.tag with
    | .integer n => n == number
    | _ => false

variable {p : Parameter}

/-- A parameter carries a number as its tag unless it is the return value. -/
theorem carries_iff {number : Int} :
    p.carries number = true ↔ p.isReturn = false ∧ p.tag = .integer number := by
  unfold carries
  cases htag : p.tag <;> simp

/-- A parameter that has a direction is a return value or carries the number of the direction. -/
theorem directed_iff_carries :
    p.Directed ↔ p.isReturn = true ∨ p.carries 1 = true ∨ p.carries 2 = true := by
  rw [carries_iff, carries_iff, Directed]
  cases p.isReturn <;> simp

/-- A parameter travels in a direction because it carries its number. -/
theorem travels_eq_carries (direction : Direction) (p : Parameter) :
    p.travels direction = p.carries direction.number := by
  rw [Bool.eq_iff_iff, carries_iff, ← Direction.ofTag?_eq_some_iff]
  simp only [travels, Bool.and_eq_true, Bool.not_eq_true', beq_iff_eq]

end Parameter

section Groups

variable {parameters : List Parameter}

/-- Among parameters that have a direction, those that are no return values carry one or two. -/
theorem perm_carries (h : ∀ p ∈ parameters, p.Directed) :
    (parameters.filter (·.carries 1) ++ parameters.filter (·.carries 2)).Perm
      (parameters.filter (!·.isReturn)) := by
  have hone : (parameters.filter (!·.isReturn)).filter (·.carries 1) =
      parameters.filter (·.carries 1) := by
    rw [List.filter_filter]
    refine List.filter_congr fun p _ => ?_
    cases hreturn : p.isReturn <;> simp [Parameter.carries, hreturn]
  have htwo : (parameters.filter (!·.isReturn)).filter (!·.carries 1) =
      parameters.filter (·.carries 2) := by
    rw [List.filter_filter]
    refine List.filter_congr fun p hp => ?_
    rcases Parameter.directed_iff_carries.mp (h p hp) with hreturn | hcarries | hcarries
    · simp [Parameter.carries, hreturn]
    · obtain ⟨hreturn, htag⟩ := Parameter.carries_iff.mp hcarries
      simp [Parameter.carries, hreturn, htag]
    · obtain ⟨hreturn, htag⟩ := Parameter.carries_iff.mp hcarries
      simp [Parameter.carries, hreturn, htag]
  have hsplit := List.filter_append_perm (·.carries 1) (parameters.filter (!·.isReturn))
  rwa [hone, htwo] at hsplit

/-- The three groups make up parameters that have a direction. -/
theorem perm_groups (h : ∀ p ∈ parameters, p.Directed) :
    (parameters.filter (·.carries 1) ++
      (parameters.filter (·.isReturn) ++ parameters.filter (·.carries 2))).Perm parameters :=
  calc
    List.Perm _ (parameters.filter (·.isReturn) ++
        (parameters.filter (·.carries 1) ++ parameters.filter (·.carries 2))) :=
      List.perm_append_comm_assoc ..
    List.Perm _ (parameters.filter (·.isReturn) ++ parameters.filter (!·.isReturn)) :=
      (perm_carries h).append_left _
    List.Perm _ parameters := List.filter_append_perm (·.isReturn) parameters

end Groups

/-- A method whose parameters all have a direction is divided by what they carry. -/
theorem MethodDeclaration.toMethod_eq_of_directed (protocol : Value) {m : MethodDeclaration}
    (h : m.Directed) :
    m.toMethod protocol = .ok ⟨m.name, m.parameters.filter (·.carries 1),
      m.parameters.filter (·.isReturn) ++ m.parameters.filter (·.carries 2)⟩ := by
  rw [toMethod_of_directed protocol h, divided]
  simp only [Parameter.travels_eq_carries, Direction.number]

/-- A method with a parameter that has no direction is refused for the first such parameter. -/
theorem MethodDeclaration.toMethod_of_undirected (protocol name : Value) {front : List Parameter}
    {q : Parameter} (hfront : ∀ p ∈ front, p.Directed) (hq : ¬q.Directed) (back : List Parameter) :
    toMethod protocol ⟨name, front ++ q :: back⟩ =
      .error ⟨q.tag, name, q.name, some protocol⟩ := by
  rw [toMethod, bucketParameters_of_undirected protocol name hfront hq back]
  rfl

/-- **Dividing the parameters of a method is a stable partition.** It succeeds exactly if the tag of
each parameter that is no return value is the whole number one or two. The request then has those
that carry one; the response has the return values, whatever their tags, and behind them those that
carry two, all in the order of their declaration, so that both together are the parameters up to
their order. In all other cases the first parameter without a direction is reported, whatever comes
behind it. -/
theorem toMethod_partitions_stably (protocol : Value) (m : MethodDeclaration) :
    ((∃ divided, m.toMethod protocol = .ok divided) ↔
      ∀ p ∈ m.parameters, p.isReturn = false → p.tag = .integer 1 ∨ p.tag = .integer 2) ∧
    (∀ divided, m.toMethod protocol = .ok divided →
      divided.name = m.name ∧
      divided.request = m.parameters.filter (·.carries 1) ∧
      divided.response =
        m.parameters.filter (·.isReturn) ++ m.parameters.filter (·.carries 2) ∧
      (divided.request ++ divided.response).Perm m.parameters) ∧
    (∀ e, m.toMethod protocol = .error e ↔ ∃ front q back, m.parameters = front ++ q :: back ∧
      (∀ p ∈ front, p.Directed) ∧ ¬q.Directed ∧ e = ⟨q.tag, m.name, q.name, some protocol⟩) ∧
    ∀ front q, (∀ p ∈ front, p.Directed) → ¬q.Directed → ∀ back,
      MethodDeclaration.toMethod protocol ⟨m.name, front ++ q :: back⟩ =
        .error ⟨q.tag, m.name, q.name, some protocol⟩ := by
  have hdirected : m.Directed ↔
      ∀ p ∈ m.parameters, p.isReturn = false → p.tag = .integer 1 ∨ p.tag = .integer 2 := by
    refine forall₂_congr fun p _ => ?_
    rw [Parameter.Directed]
    cases p.isReturn <;> simp
  have hundirected (front : List Parameter) (q : Parameter) (hfront : ∀ p ∈ front, p.Directed)
      (hq : ¬q.Directed) (back : List Parameter) :=
    MethodDeclaration.toMethod_of_undirected protocol m.name hfront hq back
  rw [← hdirected]
  by_cases hall : m.Directed
  · have hok := MethodDeclaration.toMethod_eq_of_directed protocol hall
    refine ⟨iff_of_true ⟨_, hok⟩ hall, fun divided hdivided => ?_, fun e => iff_of_false ?_ ?_,
      hundirected⟩
    · obtain rfl := Except.ok.inj (hok.symm.trans hdivided)
      exact ⟨rfl, rfl, rfl, perm_groups hall⟩
    · intro herror
      cases hok.symm.trans herror
    · rintro ⟨front, q, back, hparameters, -, hq, -⟩
      exact hq (hall q (by simp [hparameters]))
  · -- The first parameter without a direction decides.
    obtain ⟨front, q, back, hparameters, hfront, hq⟩ := exists_first_not hall
    have herror := hundirected front q hfront hq back
    rw [← hparameters] at herror
    refine ⟨iff_of_false ?_ hall, fun divided hdivided => ?_, fun e => ⟨fun he => ?_, ?_⟩,
      hundirected⟩
    · rintro ⟨divided, hdivided⟩
      cases herror.symm.trans hdivided
    · cases herror.symm.trans hdivided
    · have hreason := Except.error.inj (herror.symm.trans he)
      exact ⟨front, q, back, hparameters, hfront, hq, hreason.symm⟩
    · rintro ⟨front', q', back', hparameters', hfront', hq', rfl⟩
      have herror' := hundirected front' q' hfront' hq' back'
      rwa [← hparameters'] at herror'

/-- A method with parameters of every group in turn. -/
def shuffledMethod : MethodDeclaration :=
  ⟨.text "Register",
    [⟨.text "first", .text "uint32", .integer 2, false⟩,
      ⟨.text "input", .text "string", .integer 1, false⟩,
      ⟨.text "%retval%", .text "qresult", .boolean true, true⟩,
      ⟨.text "second", .text "uint32", .integer 2, false⟩,
      ⟨.text "key", .text "string", .integer 1, false⟩,
      ⟨.text "code", .text "uint32", .integer 1, true⟩]⟩

/-- The groups of the method, and what becomes of it when a number that is not whole and then one
beyond two are put in front of its last parameter. -/
theorem shuffledMethod_partition :
    (∃ divided, shuffledMethod.toMethod (.text "Auth") = .ok divided ∧
      divided.request =
        [⟨.text "input", .text "string", .integer 1, false⟩,
          ⟨.text "key", .text "string", .integer 1, false⟩] ∧
      divided.response =
        [⟨.text "%retval%", .text "qresult", .boolean true, true⟩,
          ⟨.text "code", .text "uint32", .integer 1, true⟩,
          ⟨.text "first", .text "uint32", .integer 2, false⟩,
          ⟨.text "second", .text "uint32", .integer 2, false⟩] ∧
      (divided.request ++ divided.response).Perm shuffledMethod.parameters) ∧
    MethodDeclaration.toMethod (.text "Auth") ⟨.text "Register", shuffledMethod.parameters.take 5 ++
        ⟨.text "odd", .text "uint32", .real (.ofRatio false 1 1), false⟩ ::
        ⟨.text "far", .text "uint32", .integer 3, false⟩ :: shuffledMethod.parameters.drop 5⟩ =
      .error ⟨.real (.ofRatio false 1 1), .text "Register", .text "odd", some (.text "Auth")⟩ := by
  have htags : ∀ p ∈ shuffledMethod.parameters, p.isReturn = false →
      p.tag = .integer 1 ∨ p.tag = .integer 2 := by
    simp [shuffledMethod]
  obtain ⟨hiff, hgroups, -, hfirst⟩ := toMethod_partitions_stably (.text "Auth") shuffledMethod
  obtain ⟨divided, hdivided⟩ := hiff.mpr htags
  obtain ⟨-, hrequest, hresponse, hperm⟩ := hgroups divided hdivided
  refine ⟨⟨divided, hdivided, hrequest, hresponse, hperm⟩, hfirst _ _ ?_ ?_ _⟩
  · simp [shuffledMethod, Parameter.Directed]
  · simp [Parameter.Directed]

end ProtocolPages
