import FlagFanout.Attribute
import FlagFanout.FlagError
import FlagFanout.KeyMap

/-!
# Evaluation contexts

A context holds the attributes of the user or request for whom flags are evaluated, one value per
key. Contexts are kept in key order, so nothing depends on the order in which attributes were
given. `Context.mergedWith` lays one context over another.
-/

namespace FlagFanout

/-- The attributes of a user or request. -/
structure Context where
  attributes : KeyMap String Attribute
  deriving Inhabited

namespace Context

/-- The context without attributes. -/
def empty : Context := ⟨.empty⟩

/-- The value of an attribute. -/
def get? (c : Context) (key : String) : Option Attribute := c.attributes.get? key

/-- The context with an attribute set, whatever was there before. -/
def withAttribute (c : Context) (key : String) (value : Attribute) : Context :=
  ⟨c.attributes.insert key value⟩

/-- Whether there are no attributes. -/
def isEmpty (c : Context) : Bool := c.attributes.isEmpty

/-- The context with every attribute of `top` laid on top. -/
def mergedWith (c top : Context) : Context := ⟨c.attributes.overlay top.attributes⟩

/-- Contexts are equal if they have the same keys with equal attributes. -/
protected def beq (c d : Context) : Bool := c.attributes.entries == d.attributes.entries

instance : BEq Context := ⟨Context.beq⟩

/-! ## JSON -/

/-- The object that is written for a context. -/
def toJson (c : Context) : Json :=
  .obj (c.attributes.toList.map fun e => (e.1, e.2.toJson))

/-- Why a value is not a context. -/
inductive ReadError where
  | notAnObject
  | attribute (error : FlagError)
  deriving DecidableEq, Repr

/-- The attributes of an object whose keys are in order: the first one of an unsupported kind is
reported. -/
def readAttributes : List (String × Json) → Except FlagError (List (String × Attribute))
  | [] => .ok []
  | (key, j) :: rest =>
    match Attribute.ofClient? j with
    | none => .error (.invalidAttribute key)
    | some a => (readAttributes rest).map ((key, a) :: ·)

/-- The context that the members of an object write. Of several attributes of an unsupported kind
the one with the smallest key is reported; of several members with one key the last counts. -/
def ofMembers (members : List (String × Json)) : Except FlagError Context :=
  (readAttributes (KeyMap.ofList members).toList).map fun l => ⟨.ofList l⟩

/-- The context that a JSON value writes. -/
def ofJson : Json → Except ReadError Context
  | .obj members => (ofMembers members).mapError .attribute
  | _ => .error .notAnObject

end Context

end FlagFanout
