import ProtocolPages.Proofs.Sequence
import ProtocolPages.Protocol

/-!
# Dividing parameters

The parameters of a method are divided in one pass. When each of them has a direction, the pass
succeeds, and each group holds the parameters of one direction in the order of their declaration. In
all other cases it fails.
-/

namespace ProtocolPages

/-- The parameter is a return value, or its tag is one of the two directions. -/
def Parameter.Directed (p : Parameter) : Prop :=
  p.isReturn = true ∨ p.tag = .integer 1 ∨ p.tag = .integer 2

/-- Whether the parameter travels in the given direction because of its tag. -/
def Parameter.travels (direction : Direction) (p : Parameter) : Bool :=
  !p.isReturn && Direction.ofTag? p.tag == some direction

/-- A parameter that has a direction belongs to exactly one of the three groups. -/
theorem Parameter.Directed.cases {p : Parameter} (h : p.Directed) :
    p.isReturn = true ∨
      (p.isReturn = false ∧ Direction.ofTag? p.tag = some .request) ∨
      (p.isReturn = false ∧ Direction.ofTag? p.tag = some .response) := by
  cases hreturn : p.isReturn with
  | true => exact Or.inl rfl
  | false =>
    rcases h with htrue | hone | htwo
    · simp [hreturn] at htrue
    · exact Or.inr (Or.inl ⟨rfl, by rw [hone]; rfl⟩)
    · exact Or.inr (Or.inr ⟨rfl, by rw [htwo]; rfl⟩)

/-- Parameters that all have a direction are divided into the groups of each direction, in order. -/
theorem bucketParameters_of_directed (protocol method : Value) {parameters : List Parameter}
    (h : ∀ p ∈ parameters, p.Directed) :
    bucketParameters protocol method parameters =
      .ok ⟨parameters.filter (·.travels .request), parameters.filter (·.isReturn),
        parameters.filter (·.travels .response)⟩ := by
  induction parameters with
  | nil => rfl
  | cons p rest ih =>
    have hrest := ih fun q hq => h q (List.mem_cons_of_mem p hq)
    rcases (h p List.mem_cons_self).cases with hreturn | ⟨hreturn, htag⟩ | ⟨hreturn, htag⟩
    · simp [bucketParameters, hrest, hreturn, Parameter.travels, Bind.bind, Except.bind,
        pure, Except.pure]
    · simp [bucketParameters, hrest, hreturn, htag, Parameter.travels, Bind.bind, Except.bind,
        pure, Except.pure]
    · simp [bucketParameters, hrest, hreturn, htag, Parameter.travels, Bind.bind, Except.bind,
        pure, Except.pure]

/-- Each parameter of the method has a direction. -/
def MethodDeclaration.Directed (m : MethodDeclaration) : Prop :=
  ∀ p ∈ m.parameters, p.Directed

/-- The method with its parameters grouped by direction. Return values come first in the response,
and each group keeps the order of declaration. -/
def MethodDeclaration.divided (m : MethodDeclaration) : Method where
  name := m.name
  request := m.parameters.filter (·.travels .request)
  response := m.parameters.filter (·.isReturn) ++ m.parameters.filter (·.travels .response)

/-- A method whose parameters all have a direction is divided by direction. -/
theorem MethodDeclaration.toMethod_of_directed (protocol : Value) {m : MethodDeclaration}
    (h : m.Directed) : m.toMethod protocol = .ok m.divided := by
  simp only [toMethod, bucketParameters_of_directed protocol m.name h, Bind.bind, Except.bind]
  rfl

/-- Methods whose parameters all have a direction are divided one by one. -/
theorem toMethods_of_directed (protocol : Value) {methods : List MethodDeclaration}
    (h : ∀ m ∈ methods, m.Directed) :
    toMethods protocol methods = .ok (methods.map MethodDeclaration.divided) := by
  induction methods with
  | nil => rfl
  | cons m rest ih =>
    have hfirst := MethodDeclaration.toMethod_of_directed protocol (h m List.mem_cons_self)
    have hrest := ih fun n hn => h n (List.mem_cons_of_mem m hn)
    simp only [toMethods, hfirst, hrest, Bind.bind, Except.bind]
    rfl

/-- A tag that stands for a direction is one of two whole numbers. -/
theorem Direction.eq_of_ofTag? {tag : Value} {direction : Direction}
    (h : ofTag? tag = some direction) : tag = .integer 1 ∨ tag = .integer 2 := by
  unfold ofTag? at h
  split at h
  · exact Or.inl rfl
  · exact Or.inr rfl
  · cases h

/-- Parameters that can be divided all have a direction. -/
theorem directed_of_bucketParameters {protocol method : Value} {parameters : List Parameter}
    {buckets : Buckets} (h : bucketParameters protocol method parameters = .ok buckets) :
    ∀ p ∈ parameters, p.Directed := by
  induction parameters generalizing buckets with
  | nil => simp
  | cons p rest ih =>
    rw [List.forall_mem_cons]
    simp only [bucketParameters] at h
    split at h
    · next hreturn =>
      obtain ⟨others, hothers, -⟩ := bind_eq_ok_iff.mp h
      exact ⟨Or.inl hreturn, ih hothers⟩
    · split at h
      · next htag =>
        obtain ⟨others, hothers, -⟩ := bind_eq_ok_iff.mp h
        exact ⟨Or.inr (Direction.eq_of_ofTag? htag), ih hothers⟩
      · next htag =>
        obtain ⟨others, hothers, -⟩ := bind_eq_ok_iff.mp h
        exact ⟨Or.inr (Direction.eq_of_ofTag? htag), ih hothers⟩
      · cases h

/-- Methods that can be divided have parameters with directions only. -/
theorem directed_of_toMethods {protocol : Value} {methods : List MethodDeclaration}
    {divided : List Method} (h : toMethods protocol methods = .ok divided) :
    ∀ m ∈ methods, m.Directed := by
  induction methods generalizing divided with
  | nil => simp
  | cons m rest ih =>
    obtain ⟨first, hfirst, h⟩ := bind_eq_ok_iff.mp h
    obtain ⟨others, hothers, -⟩ := bind_eq_ok_iff.mp h
    obtain ⟨buckets, hbuckets, -⟩ := bind_eq_ok_iff.mp hfirst
    exact List.forall_mem_cons.mpr ⟨directed_of_bucketParameters hbuckets, ih hothers⟩

/-- A parameter without a direction belongs to no group. -/
theorem Parameter.not_directed_iff {p : Parameter} :
    ¬p.Directed ↔ p.isReturn = false ∧ Direction.ofTag? p.tag = none := by
  constructor
  · intro h
    refine ⟨Bool.eq_false_iff.mpr fun hreturn => h (Or.inl hreturn), ?_⟩
    cases htag : Direction.ofTag? p.tag with
    | none => rfl
    | some direction => exact absurd (Or.inr (Direction.eq_of_ofTag? htag)) h
  · rintro ⟨hreturn, htag⟩ h
    rcases h.cases with htrue | ⟨-, hrequest⟩ | ⟨-, hresponse⟩
    · rw [hreturn] at htrue
      cases htrue
    · rw [htag] at hrequest
      cases hrequest
    · rw [htag] at hresponse
      cases hresponse

/-- The first parameter without a direction is reported, whatever comes behind it. -/
theorem bucketParameters_of_undirected (protocol method : Value) {front : List Parameter}
    {q : Parameter} (hfront : ∀ p ∈ front, p.Directed) (hq : ¬q.Directed) (back : List Parameter) :
    bucketParameters protocol method (front ++ q :: back) =
      .error ⟨q.tag, method, q.name, some protocol⟩ := by
  induction front with
  | nil =>
    obtain ⟨hreturn, htag⟩ := Parameter.not_directed_iff.mp hq
    simp [bucketParameters, hreturn, htag]
  | cons p front ih =>
    obtain ⟨hp, hothers⟩ := List.forall_mem_cons.mp hfront
    have hrest := ih hothers
    rcases hp.cases with hreturn | ⟨hreturn, htag⟩ | ⟨hreturn, htag⟩
    · simp [bucketParameters, hrest, hreturn, Bind.bind, Except.bind]
    · simp [bucketParameters, hrest, hreturn, htag, Bind.bind, Except.bind]
    · simp [bucketParameters, hrest, hreturn, htag, Bind.bind, Except.bind]

/-- The first method with such a parameter is the one that is reported. -/
theorem toMethods_of_undirected (protocol : Value) {earlier later : List MethodDeclaration}
    {m : MethodDeclaration} {front back : List Parameter} {q : Parameter}
    (hearlier : ∀ n ∈ earlier, n.Directed) (hm : m.parameters = front ++ q :: back)
    (hfront : ∀ p ∈ front, p.Directed) (hq : ¬q.Directed) :
    toMethods protocol (earlier ++ m :: later) =
      .error ⟨q.tag, m.name, q.name, some protocol⟩ := by
  induction earlier with
  | nil =>
    have hbuckets := bucketParameters_of_undirected protocol m.name hfront hq back
    simp only [List.nil_append, toMethods, MethodDeclaration.toMethod, hm, hbuckets, Bind.bind,
      Except.bind]
  | cons n earlier ih =>
    obtain ⟨hn, hothers⟩ := List.forall_mem_cons.mp hearlier
    have hfirst := MethodDeclaration.toMethod_of_directed protocol hn
    simp only [List.cons_append, toMethods, hfirst, ih hothers, Bind.bind, Except.bind]

/-- What dividing methods can come to: all parameters have a direction and the methods are divided,
or one has none and the division fails. -/
theorem toMethods_cases (protocol : Value) (methods : List MethodDeclaration) :
    ((∀ m ∈ methods, m.Directed) ∧
      toMethods protocol methods = .ok (methods.map MethodDeclaration.divided)) ∨
    ((¬∀ m ∈ methods, m.Directed) ∧ ∃ e, toMethods protocol methods = .error e) := by
  by_cases hdirected : ∀ m ∈ methods, m.Directed
  · exact Or.inl ⟨hdirected, toMethods_of_directed protocol hdirected⟩
  · refine Or.inr ⟨hdirected, exists_error_iff.mpr ?_⟩
    rintro ⟨divided, hdivided⟩
    exact hdirected (directed_of_toMethods hdivided)

end ProtocolPages
