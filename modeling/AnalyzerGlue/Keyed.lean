/-!
# Lists with keys

A list in which each entry has a key serves as a map that remembers the order
in which keys were added.  `upsert` is the only way to add to it: an entry
takes the place of the one with its key, or else goes to the end
(`map_key_upsert`).
-/

namespace AnalyzerGlue

variable {α κ : Type} [DecidableEq κ]

/-- The first entry with a key. -/
def findKey? (key : α → κ) (wanted : κ) (entries : List α) : Option α :=
  entries.find? fun entry => decide (key entry = wanted)

/-- Replaces the first entry with the same key, or adds a new one at the end. -/
def upsert (key : α → κ) (entry : α) : List α → List α
  | [] => [entry]
  | first :: others =>
      if key first = key entry then entry :: others else first :: upsert key entry others

/-- What is found has the key it is looked up by. -/
theorem key_eq_of_findKey?_eq_some {key : α → κ} {wanted : κ} {entries : List α} {entry : α}
    (found : findKey? key wanted entries = some entry) : key entry = wanted := by
  have holds := List.find?_some found
  simpa using holds

/-- What is found is in the list. -/
theorem mem_of_findKey?_eq_some {key : α → κ} {wanted : κ} {entries : List α} {entry : α}
    (found : findKey? key wanted entries = some entry) : entry ∈ entries :=
  List.mem_of_find?_eq_some found

/-- The keys stay in place, and a new one comes last. -/
theorem map_key_upsert (key : α → κ) (entry : α) (entries : List α) :
    (upsert key entry entries).map key =
      if key entry ∈ entries.map key then entries.map key
      else entries.map key ++ [key entry] := by
  induction entries with
  | nil => simp [upsert]
  | cons first others ih =>
      by_cases same : key first = key entry
      · simp [upsert, same]
      · have differs : key entry ≠ key first := fun equation => same equation.symm
        simp only [upsert, same, if_false, List.map_cons, ih, List.mem_cons, differs,
          false_or]
        split <;> rfl

end AnalyzerGlue
