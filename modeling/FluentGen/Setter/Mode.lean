import FluentGen.Options.Basic

/-!
What an output mode means for the methods of a field.
-/

namespace FluentGen

/-- Whether the methods are templates, take several values, add them one by one, take them in
braces, and where they are written. -/
structure ModeTraits where
  template : Bool := false
  foreach : Bool := false
  foreachAdd : Bool := false
  initializerList : Bool := false
  header : Bool := false
  source : Bool := false
  deriving DecidableEq, Repr

/-- The traits of a mode. -/
def OutputMode.traits : OutputMode → ModeTraits
  | .skip => {}
  | .header => { header := true }
  | .source => { source := true }
  | .both => { header := true, source := true }
  | .template => { template := true, header := true }
  | .foreach => { template := true, foreach := true, header := true }
  | .foreachAdd => { template := true, foreach := true, foreachAdd := true, header := true }
  | .initializerList =>
    { template := true, foreach := true, foreachAdd := true, initializerList := true,
      header := true }

end FluentGen
