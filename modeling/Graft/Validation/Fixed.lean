import Graft.Json.Decoder
import Graft.Variant.Merge
import Graft.Verdict.Codec

/-!
Verdicts by a list of rules: the first rule that fits a variant gives the verdict on it.
-/

namespace Graft

/-- A verdict for the variants that contain a text and, if a window is given, have that window. -/
structure VerdictRule where
  contains : String
  window : Option Nat
  verdict : Verdict
  deriving Repr, DecidableEq, Inhabited

/-- Reads a rule. A rule that names no text fits every text. -/
def VerdictRule.decode : Json.Decoder VerdictRule := fun value => do
  let window := (value.member? "window").getD .null
  return ⟨((value.member? "contains").bind Json.Decoder.string).getD "", ← Json.Decoder.nullable .u32 window,
    ← value.member? "verdict" >>= Verdict.decode⟩

structure VerdictRules where
  rules : List VerdictRule
  default : Verdict
  deriving Repr, DecidableEq, Inhabited

namespace VerdictRules

def fits (variant : Variant) (rule : VerdictRule) : Bool :=
  Text.contains rule.contains variant.text && rule.window.all (· == variant.window)

def verdict (rules : VerdictRules) (variant : Variant) : Verdict :=
  ((rules.rules.find? (fits variant)).map (·.verdict)).getD rules.default

end VerdictRules

end Graft
