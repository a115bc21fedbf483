/-!
# Errors of evaluation and of contexts

The causes for which a flag has no value or a context is refused, and their wording.
-/

namespace FlagFanout

/-- Why a flag has no value or a context is refused. -/
inductive FlagError where
  | flagNotFound (key : String)
  | notReady
  | evaluation (key reason : String)
  | invalidAttribute (key : String)
  | serialization (reason : String)
  | internal (reason : String)
  deriving DecidableEq, Repr

/-- The wording of an error. -/
def FlagError.message : FlagError → String
  | flagNotFound key => "flag not found: " ++ key
  | notReady => "evaluation engine is not ready"
  | evaluation key reason => "evaluation of '" ++ key ++ "' failed: " ++ reason
  | invalidAttribute key =>
    "'" ++ key ++ "' has an invalid type, only 'string', 'number', and 'string[]' types are allowed"
  | serialization reason => "serialization error: " ++ reason
  | internal reason => "internal error: " ++ reason

end FlagFanout
