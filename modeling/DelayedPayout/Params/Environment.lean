import DelayedPayout.Number.Numeral
import DelayedPayout.Params.Basic

/-!
Parameter sets from environment variables, for test networks. A variable that is absent or blank keeps
the standard value; all variables are read before any value is checked.
-/

namespace DelayedPayout

open Number Text

/-- The value of a parameter in an environment, which maps the names of variables to their texts. -/
def Param.read (environment : String → Option String) (p : Param) : Except Fault Int :=
  match environment p.environmentVariable with
  | none => .ok p.standard
  | some raw =>
    let body := strip isBlank raw.toList
    if body.isEmpty then .ok p.standard
    else match integer? body with
      | some n => do report [n]; return n
      | none => .error (.unreadableVariable p raw)

def Params.ofEnvironment (environment : String → Option String) : Except Fault Params := do
  let values ← Param.inOrder (Param.read environment)
  ofScalars fun p => .int (values p)

end DelayedPayout
