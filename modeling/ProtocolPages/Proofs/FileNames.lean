import ProtocolPages.Storage.Path
import Mathlib.Data.List.Basic

/-!
# Names of files

A name that is followed from a folder leads to a file right inside the folder, unless it holds a
slash or says nothing. Different names then lead to different files.
-/

namespace ProtocolPages.Path

/-- The path of a file right inside a folder. -/
def file (folder : Path) (name : String) : Path :=
  ⟨folder.root, folder.parts ++ [name]⟩

/-- A text without slashes is read as one name, or as none if it says nothing. -/
theorem ofString_of_no_slash {name : String} (h : '/' ∉ name.toList) :
    ofString name = ⟨.working, if name = "" ∨ name = "." then [] else [name]⟩ := by
  have hsplit : name.toList.splitOn '/' = [name.toList] := by
    refine List.splitOnP_eq_singleton fun c hc => ?_
    simpa using fun heq : c = '/' => h (heq ▸ hc)
  have hroot : rootOf name.toList = .working := by
    cases hchars : name.toList with
    | nil => rfl
    | cons c cs =>
      have hne : (c == '/') = false := by
        rw [hchars] at h
        simpa using fun heq : c = '/' => h (heq ▸ List.mem_cons_self)
      simp [rootOf, hne]
  have hempty : name.toList = [] ↔ name = "" := by simp
  have hdot : name.toList = ['.'] ↔ name = "." := by
    rw [← String.toList_inj]
    rfl
  rw [ofString, hroot, partsOf, hsplit]
  by_cases hnothing : name = "" ∨ name = "."
  · simp [hempty, hdot, hnothing]
  · simp [hempty, hdot, hnothing]

/-- A name without slashes that says something leads to a file right inside the folder. -/
theorem join_ofString {name : String} (folder : Path) (hslash : '/' ∉ name.toList)
    (hempty : name ≠ "") (hdot : name ≠ ".") : folder.join (ofString name) = folder.file name := by
  rw [ofString_of_no_slash hslash, if_neg (by simp [hempty, hdot])]
  rfl

/-- A name that says nothing leads to the folder itself. -/
theorem join_ofString_of_nothing {name : String} (folder : Path) (h : name = "" ∨ name = ".") :
    folder.join (ofString name) = folder := by
  have hslash : '/' ∉ name.toList := by
    rcases h with rfl | rfl <;> decide
  rw [ofString_of_no_slash hslash, if_pos h]
  simp [join]

end ProtocolPages.Path
