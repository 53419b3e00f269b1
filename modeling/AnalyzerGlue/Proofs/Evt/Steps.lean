import AnalyzerGlue.Evt.Chunk
import AnalyzerGlue.Evt.Cursor

/-!
# Steps of the scanner and of a cursor

How the scanner goes on from chunk to chunk, and how readers that are put
together act on a cursor.
-/

namespace AnalyzerGlue.Evt

/-! ## The scanner -/

namespace Scanner

variable {scanner behind : Scanner}

theorem all_of_next {scanned : Scanned} (read : scanner.next = (scanned, behind))
    (goesOn : scanned ≠ .finished) : scanner.all = (scanned, behind.line) :: behind.all := by
  rw [all, dif_neg (by rwa [read])]
  simp only [read]

theorem all_of_finished (read : scanner.next = (.finished, behind)) :
    scanner.all = [(.finished, behind.line)] := by
  rw [all, dif_pos (by rw [read]), read]

end Scanner

/-! ## Readers -/

namespace Reader

variable {α β : Type} {cursor moved : Cursor}

/-- A reader goes on from where the one before it ends. -/
theorem bind_of_eq_ok {first : Reader α} {second : α → Reader β} {value : α}
    (read : first cursor = .ok value moved) :
    (first >>= second) cursor = second value moved := by
  simp [bind, EStateM.bind, read]

theorem get_bind (second : Cursor → Reader β) : (get >>= second) cursor = second cursor cursor :=
  rfl

theorem set_bind (second : PUnit → Reader β) :
    (set moved >>= second) cursor = second ⟨⟩ moved :=
  rfl

theorem loop_of_done {round : α → Reader (Round α)} {state final : α}
    (read : round state cursor = .ok (.done final) moved) :
    loop round state cursor = .ok final moved := by
  rw [loop, read]

/-- A token that does not follow is not accepted. -/
theorem accept_of_after?_eq_none {token : String} (absent : cursor.after? token = none) :
    accept token cursor = .ok false cursor := by
  rw [accept, get_bind, absent]
  rfl

theorem accept_of_after?_eq_some {token : String} (present : cursor.after? token = some moved) :
    accept token cursor = .ok true moved := by
  rw [accept, get_bind, present]
  rfl

end Reader

end AnalyzerGlue.Evt
