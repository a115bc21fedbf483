import FlagFanout.Json.Value

/-!
# Records and tags in JSON

Types with named fields are read from objects, where unknown members are ignored. The same fields
may also be given by position, as the items of an array in the order of the type; then no item may
be left over. `Record.field?` tells what stands at a field.

A tag, one of a few fixed names, is a string, or an object with the tag as its only key and `null`
as its value.
-/

namespace FlagFanout.Json

/-- What is known of the fields of a record. -/
structure Record where
  /-- The fields that are given. -/
  given : List (String × Json)
  /-- Whether they were given by position. -/
  positional : Bool

/-- The fields of a record with the given field names. -/
def record? (names : List String) : Json → Option Record
  | obj members => some ⟨members, false⟩
  | arr items => if items.length ≤ names.length then some ⟨names.zip items, true⟩ else none
  | _ => none

namespace Record

/-- What stands at a field. -/
def field? (r : Record) (name : String) : Option Json := lastMember? name r.given

/-- A field that must be given. -/
def required {α : Type} (r : Record) (name : String) (read : Json → Option α) : Option α :=
  (r.field? name).bind read

/-- A field with a value to stand in for it. -/
def defaulted {α : Type} (r : Record) (name : String) (default : α) (read : Json → Option α) :
    Option α :=
  match r.field? name with
  | none => some default
  | some j => read j

/-- A value that may be `null`. -/
def nullable {α : Type} (read : Json → Option α) (j : Json) : Option (Option α) :=
  if j.isNull then some none else (read j).map some

/-- A field that may be `null`; by name it may also be left out. -/
def optional {α : Type} (r : Record) (name : String) (read : Json → Option α) :
    Option (Option α) :=
  match r.field? name with
  | none => if r.positional then none else some none
  | some j => nullable read j

end Record

/-- The name that a tag writes. -/
def tag? : Json → Option String
  | str s => some s
  | obj ((key, j) :: rest) =>
    if rest.all (·.1 = key) && ((lastMember? key ((key, j) :: rest)).any isNull) then some key
    else none
  | _ => none

end FlagFanout.Json
