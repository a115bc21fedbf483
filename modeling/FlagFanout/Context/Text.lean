import FlagFanout.Context
import FlagFanout.Json.Reader

/-!
# Contexts from JSON text

A context is read from text in one go: the object first, then the kinds of its attributes, then
whatever follows it. A text that starts with another value is only looked at as far as needed to
tell that it is not an object.
-/

namespace FlagFanout.Context

/-- Why a text is not a context. -/
inductive TextError where
  | fault (fault : Json.Fault)
  /-- A value of another type, or an attribute of an unsupported kind. -/
  | data (error : Option FlagError)

/-- A value that is read only to see that it is none. -/
def refuse {α : Type} (read : Except Json.Fault α) : TextError :=
  match read with
  | .error f => .fault f
  | .ok _ => .data none

/-- Why a text that does not start with an object is refused. -/
def refuseOther : List Char → TextError
  | [] => .fault .ended
  | c :: rest =>
    if c = '[' then .data none
    else if c = 'n' || c = 't' || c = 'f' || c = '"' || c = '-' || c.isDigit then
      refuse (Json.readValue 1 (c :: rest))
    else .fault .malformed

/-- The context that a text writes. -/
def ofText (text : String) : Except TextError Context :=
  match Json.skipBlanks text.toList with
  | '\x7b' :: rest =>
    match Json.readValue Json.depthLimit ('\x7b' :: rest) with
    | .error f => .error (.fault f)
    | .ok (j, rest) =>
      match ofJson j with
      | .error .notAnObject => .error (.data none)
      | .error (.attribute e) => .error (.data (some e))
      | .ok c => if (Json.skipBlanks rest).isEmpty then .ok c else .error (.fault .malformed)
  | cs => .error (refuseOther cs)

end FlagFanout.Context
