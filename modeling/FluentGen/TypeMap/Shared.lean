import FluentGen.Emit.Basic
import FluentGen.Store.Basic
import FluentGen.TypeMap.Builtin
import FluentGen.TypeMap.Load

/-!
The type map that all parts of a run share. It is loaded when it is first asked for, with the
custom file that is named then, and stays until it is forgotten. A failure to load it leaves
nothing behind, so it may be tried again.
-/

namespace FluentGen.TypeMap

/-- What has been loaded. -/
structure Shared where
  loaded : Option TypeMap := none
  deriving DecidableEq, Repr, Inhabited

namespace Shared

/-- Loads the type map, with a custom file of the store on top. -/
def loadFrom (store : Store) : (custom : Option Path) → Emit TypeMap
  | none => .lift (acceptWith builtin none)
  | some path => do
    .log Log.debug ("Loading custom config " ++ path.text)
    let text ← .lift (store.text path)
    .lift (acceptWith builtin (some text))

/-- Asks for the type map. What has been loaded is given again, and a custom file that is named
then is ignored. -/
def ask (shared : Shared) (store : Store) (custom : Option Path) : Emit TypeMap :=
  match shared.loaded with
  | none => loadFrom store custom
  | some map => do
    match custom with
    | none => pure ()
    | some path =>
      .log Log.warning
        ("Ignoring custom config " ++ path.text ++ ", configuration already loaded")
    return map

/-- What is loaded after the type map has been asked for. -/
def afterAsking (shared : Shared) (answer : Emit TypeMap) : Shared :=
  match answer.result with
  | .ok map => ⟨some map⟩
  | .error _ => shared

end Shared

end FluentGen.TypeMap
