import AnalyzerGlue.Declaration.Store
import AnalyzerGlue.Evt.Chunk
import AnalyzerGlue.Evt.Conditional
import AnalyzerGlue.Evt.Statement

/-!
# Loading glue sources

A source goes through three passes: conditional parts are left out, the text is
cut into chunks, and each chunk is read as a statement.  The first error ends
the loading, and nothing that was read before it is kept.
-/

namespace AnalyzerGlue

namespace Store

/-- Adds what a statement declares. -/
def addStatement (store : Store) : Evt.Statement → Store
  | .protocol analyzer => { store with protocols := store.protocols ++ [analyzer] }
  | .file analyzer => { store with files := store.files ++ [analyzer] }
  | .packet analyzer => { store with packets := store.packets ++ [analyzer] }
  | .event event => { store with events := store.events ++ [event] }
  | .imported decl => { store with imports := store.imports ++ [decl] }
  | .exported decl => { store with exports := store.exports ++ [decl] }

/-- Adds what one result of the scanner declares. -/
def addScanned (path : Path) (version : Nat) (store : Store) :
    Evt.Scanned → Except (Located EvtError) Store
  | .finished => .ok store
  | .error error line => .error (.reportedAt error ⟨path, line⟩)
  | .chunk chunk =>
      let location := ⟨path, chunk.line⟩
      match Evt.Statement.parse chunk.text location version with
      | .error error => .error (.reportedAt error location)
      | .ok statement => .ok (store.addStatement statement)

/-- Adds what some results of the scanner declare, up to the first error. -/
def addAll (path : Path) (version : Nat) (store : Store) :
    List Evt.Scanned → Except (Located EvtError) Store
  | [] => .ok store
  | first :: others =>
      match addScanned path version store first with
      | .error error => .error error
      | .ok next => addAll path version next others

/-- The declarations of a source. -/
def load (path : Path) (source : List Char) (version : Nat) :
    Except (Located EvtError) Store :=
  match ((Evt.Conditional.start version).filter path source).2 with
  | .error error => .error error
  | .ok text => addAll path version empty ((Evt.Scanner.start text).all.map Prod.fst)

end Store

end AnalyzerGlue
