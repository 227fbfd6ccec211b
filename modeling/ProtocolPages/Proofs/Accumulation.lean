import Mathlib.Algebra.Ring.Nat
import ProtocolPages.Proofs.ShownText

/-!
# What a builder accumulates

A builder keeps the texts that it was handed, in order, and skips the empty ones. So what is built
after any calls is what the calls contribute, one behind the other, and nothing that was stored can
be empty. The number of parts therefore tells whether there is any text, and is no greater than the
length of it.
-/

namespace ProtocolPages

/-- A call of a builder. -/
inductive BuilderCall where
  /-- Add a text. -/
  | append (s : String)
  /-- Start a new line. -/
  | line (s : String)
  /-- Add a table row. -/
  | row (cells : List String)
  /-- Add the head of a table. -/
  | tableHeader (titles : List String)
  /-- Ask for the text so far. -/
  | build
  deriving DecidableEq, Repr

namespace BuilderCall

/-- The text that a call contributes. -/
def text : BuilderCall → String
  | append s => s
  | line s => "\n" ++ s
  | row cells => "\n| " ++ " | ".intercalate cells ++ " |"
  | tableHeader titles =>
    "\n| " ++ " | ".intercalate titles ++ " |" ++
      ("\n| " ++ " | ".intercalate (titles.map fun _ => "---") ++ " |")
  | build => ""

/-- The texts that a call hands over, be they empty or not. -/
def pieces : BuilderCall → List String
  | append s => [s]
  | line s => ["\n", s]
  | row cells => ["\n", "| " ++ " | ".intercalate cells ++ " |"]
  | tableHeader titles =>
    ["\n", "| " ++ " | ".intercalate titles ++ " |",
      "\n", "| " ++ " | ".intercalate (titles.map fun _ => "---") ++ " |"]
  | build => []

/-- The texts of a call that are stored. -/
def parts (call : BuilderCall) : List String :=
  call.pieces.filter (· ≠ "")

/-- The pieces of a call make up its text. -/
theorem join_pieces (call : BuilderCall) : String.join call.pieces = call.text := by
  have hrow (s : String) : "\n" ++ ("| " ++ s) = "\n| " ++ s := (String.append_assoc).symm
  cases call with
  | append s => simp [pieces, text]
  | line s => simp [pieces, text]
  | row cells => simp [pieces, text, String.append_assoc, hrow]
  | tableHeader titles => simp [pieces, text, String.append_assoc, hrow]
  | build => rfl

end BuilderCall

/-- Empty texts do not show in what texts are joined to. -/
theorem join_filter_ne_empty (texts : List String) :
    String.join (texts.filter (· ≠ "")) = String.join texts := by
  induction texts with
  | nil => rfl
  | cons first rest ih =>
    by_cases hfirst : first = ""
    · rw [List.filter_cons_of_neg (by simp [hfirst]), ih, String.join_cons, hfirst,
        String.empty_append]
    · rw [List.filter_cons_of_pos (by simp [hfirst]), String.join_cons, String.join_cons, ih]

/-- Texts that are not empty are no more than the characters that they are joined to. -/
theorem length_le_length_join {texts : List String} (h : ∀ s ∈ texts, s ≠ "") :
    texts.length ≤ (String.join texts).length := by
  induction texts with
  | nil => exact Nat.zero_le _
  | cons first rest ih =>
    obtain ⟨hfirst, hrest⟩ := List.forall_mem_cons.mp h
    have hpos : first.length ≠ 0 := mt String.length_eq_zero_iff.mp hfirst
    have hothers := ih hrest
    rw [List.length_cons, String.join_cons, String.length_append]
    omega

namespace Builder

/-- The builder after a call. Asking for the text changes nothing. -/
def perform (b : Builder) : BuilderCall → Builder
  | .append s => b.append s
  | .line s => b.line s
  | .row cells => b.row cells
  | .tableHeader titles => b.tableHeader titles
  | .build => b

/-- The builder after calls, one after another. -/
def run (b : Builder) (calls : List BuilderCall) : Builder :=
  calls.foldl perform b

/-- Every stored part has text in it. -/
def Filled (b : Builder) : Prop :=
  ∀ part ∈ b.parts, part ≠ ""

/-- A text is stored unless it is empty. -/
theorem parts_append (b : Builder) (s : String) :
    (b.append s).parts = b.parts ++ [s].filter (· ≠ "") := by
  unfold append
  by_cases hs : s = ""
  · simp [hs]
  · simp [hs]

/-- A line is stored behind its line feed. -/
theorem parts_line (b : Builder) (s : String) :
    (b.line s).parts = b.parts ++ ["\n", s].filter (· ≠ "") := by
  have hfeed : ["\n", s].filter (· ≠ "") = "\n" :: [s].filter (· ≠ "") :=
    List.filter_cons_of_pos (by decide)
  rw [line, parts_append, hfeed, List.append_assoc, List.singleton_append]

/-- A call adds its parts at the end. -/
theorem parts_perform (b : Builder) (call : BuilderCall) :
    (b.perform call).parts = b.parts ++ call.parts := by
  cases call with
  | append s => exact b.parts_append s
  | line s => exact b.parts_line s
  | row cells => exact b.parts_line (rowText cells)
  | tableHeader titles =>
    have hdashes : List.replicate titles.length "---" = titles.map fun _ => "---" :=
      List.map_const'.symm
    have hpieces : (BuilderCall.tableHeader titles).pieces =
        ["\n", rowText titles] ++ ["\n", rowText (List.replicate titles.length "---")] := by
      rw [hdashes]
      rfl
    rw [BuilderCall.parts, hpieces, List.filter_append, ← List.append_assoc, ← parts_line,
      ← parts_line]
    rfl
  | build => exact (List.append_nil _).symm

/-- Calls add their parts one behind the other. -/
theorem parts_run (b : Builder) (calls : List BuilderCall) :
    (b.run calls).parts = b.parts ++ calls.flatMap BuilderCall.parts := by
  induction calls generalizing b with
  | nil => exact (List.append_nil _).symm
  | cons call rest ih =>
    have hstep : b.run (call :: rest) = (b.perform call).run rest := rfl
    rw [hstep, ih, parts_perform, List.flatMap_cons, List.append_assoc]

/-- No call stores an empty part. -/
theorem Filled.run {b : Builder} (h : b.Filled) (calls : List BuilderCall) :
    (b.run calls).Filled := by
  rw [Filled, parts_run]
  refine List.forall_mem_append.mpr ⟨h, fun part hpart => ?_⟩
  obtain ⟨call, -, hcall⟩ := List.mem_flatMap.mp hpart
  simpa using (List.mem_filter.mp hcall).2

/-- What is built after calls is what they contribute, behind what there was before. -/
theorem build_run (b : Builder) (calls : List BuilderCall) :
    (b.run calls).build = b.build ++ String.join (calls.map BuilderCall.text) := by
  have hparts (call : BuilderCall) : String.join call.parts = call.text := by
    rw [BuilderCall.parts, join_filter_ne_empty, BuilderCall.join_pieces]
  have hcalls : String.join (calls.flatMap BuilderCall.parts) =
      String.join (calls.map BuilderCall.text) := by
    induction calls with
    | nil => rfl
    | cons call rest ih =>
      rw [List.flatMap_cons, String.join_append, hparts, ih, List.map_cons, String.join_cons]
  rw [build, parts_run, String.join_append, hcalls, build]

/-- The parts after calls are counted call by call. -/
theorem size_run (b : Builder) (calls : List BuilderCall) :
    (b.run calls).size = b.size + (calls.map (·.parts.length)).sum := by
  rw [size, parts_run, List.length_append, List.length_flatMap, size]

/-- There are no more parts than characters. -/
theorem Filled.size_le {b : Builder} (h : b.Filled) : b.size ≤ b.build.length :=
  length_le_length_join h

/-- There is a part exactly if there is text. -/
theorem Filled.isEmpty_iff {b : Builder} (h : b.Filled) : b.isEmpty = false ↔ b.build ≠ "" := by
  have hsize := h.size_le
  constructor
  · intro hparts hbuild
    rw [hbuild, String.length_empty, Nat.le_zero, size, List.length_eq_zero_iff] at hsize
    rw [isEmpty, hsize] at hparts
    cases hparts
  · intro hbuild
    rw [isEmpty, List.isEmpty_eq_false_iff]
    intro hparts
    exact hbuild (by rw [build, hparts]; rfl)

end Builder

/-- **A builder accumulates faithfully.** After any calls every stored part has text in it, the text
is what the calls contribute one behind the other, and the number of parts is what the calls store
each on its own. There is a part exactly if there is text, and there are no more parts than
characters. Calls that follow add their own text and their own parts to it. -/
theorem builder_accumulates (calls more : List BuilderCall) :
    (Builder.empty.run calls).Filled ∧
    (Builder.empty.run calls).build = String.join (calls.map BuilderCall.text) ∧
    ((Builder.empty.run calls).isEmpty = false ↔ (Builder.empty.run calls).build ≠ "") ∧
    (Builder.empty.run calls).size =
      (calls.map fun call => (call.pieces.filter (· ≠ "")).length).sum ∧
    (Builder.empty.run calls).size ≤ (Builder.empty.run calls).build.length ∧
    ((Builder.empty.run calls).run more).build =
      (Builder.empty.run calls).build ++ (Builder.empty.run more).build ∧
    ((Builder.empty.run calls).run more).size =
      (Builder.empty.run calls).size + (Builder.empty.run more).size := by
  have hfilled : (Builder.empty.run calls).Filled :=
    Builder.Filled.run (List.forall_mem_nil _) calls
  have htext (calls : List BuilderCall) :
      (Builder.empty.run calls).build = String.join (calls.map BuilderCall.text) := by
    rw [Builder.build_run, Builder.build_empty, String.empty_append]
  have hsize (calls : List BuilderCall) :
      (Builder.empty.run calls).size = (calls.map (·.parts.length)).sum := by
    rw [Builder.size_run]
    exact Nat.zero_add _
  refine ⟨hfilled, htext calls, hfilled.isEmpty_iff, hsize calls, hfilled.size_le, ?_, ?_⟩
  · rw [Builder.build_run, htext more]
  · rw [Builder.size_run, hsize more]

example :
    (Builder.empty.run [.append "", .row [], .build, .line "", .tableHeader ["a", ""]]).parts =
      ["\n", "|  |", "\n", "\n", "| a |  |", "\n", "| --- | --- |"] := by decide

end ProtocolPages
