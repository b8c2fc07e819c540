import Graft.OrdinalMap
import Graft.Json.Decoder
import Graft.Json.Printer

/-!
Which attempt stands for which function. The window of a selection is its highest ordinal; a
selection for a window should name an attempt for each ordinal from one up to it.
-/

namespace Graft

open Json

abbrev Selection := OrdinalMap Nat

namespace Selection

/-- The highest ordinal with an attempt, and zero when there is none. -/
def window (selection : Selection) : Nat := selection.lastKey?.getD 0

/-- The ordinals from one up to the window that have no attempt. -/
def missing (selection : Selection) : List Nat :=
  (List.range' 1 (window selection)).filter fun ordinal => !selection.contains ordinal

def toJson (selection : Selection) : Json := ofOrdinalMap nat selection

def decode : Decoder Selection := .ordinalMap .u32

end Selection

end Graft
