import FlagFanout.Number.Binary64

/-!
# TOML values and tables

`Toml` is the tree of a TOML document. A table remembers how it came to be, because that decides
whether a later line may add to it: a table under its own header is complete but for subtables, a
table that was only needed on the way to another may still get a header, a table made by a dotted
key takes further dotted keys, and an inline table takes nothing more.

`Toml.descend` finds a table by its path, making what is missing on the way.
-/

namespace FlagFanout

/-- How a table came to be. -/
inductive TableKind where
  /-- Written inline. -/
  | inlined
  /-- Under a header of its own. -/
  | headed
  /-- On the way to the table of a header. -/
  | passed
  /-- On the way of a dotted key. -/
  | dotted
  deriving DecidableEq, Repr

/-- The tree of a TOML document. -/
inductive Toml where
  | text (s : String)
  | int (i : Int)
  | float (x : Binary64)
  | bool (b : Bool)
  /-- A date, a time or both; which one does not matter here. -/
  | moment
  | array (items : List Toml)
  | table (kind : TableKind) (members : List (String × Toml))
  /-- The tables under the headers of an array of tables. -/
  | tables (items : List (List (String × Toml)))
  deriving Inhabited

namespace Toml

/-- The members of a table. -/
abbrev Members := List (String × Toml)

/-- The member at a key. -/
def member? (key : String) (members : Members) : Option Toml :=
  (members.find? (·.1 = key)).map (·.2)

/-- The members with the one at `key` changed by `f`, which sees what is there; a new member
stands last. -/
def alter (key : String) (f : Option Toml → Option Toml) : Members → Option Members
  | [] => (f none).map fun v => [(key, v)]
  | (k, v) :: rest =>
    if k = key then (f (some v)).map fun v => (k, v) :: rest
    else (alter key f rest).map ((k, v) :: ·)

/-- The last item of a list changed, if there is one. -/
def alterLast {α : Type} (f : α → Option α) : List α → Option (List α)
  | [] => none
  | [a] => (f a).map ([·])
  | a :: rest => (alterLast f rest).map (a :: ·)

/-- The members with the table at a path changed by `f`, which sees how that table came to be.
Missing tables are made, of the kind `made`; a dotted key does not enter a table with a header. An
array of tables is entered at its last one. -/
def descend (made : TableKind) (f : TableKind → Members → Option Members) :
    List String → TableKind → Members → Option Members
  | [], kind, members => f kind members
  | key :: path, _, members =>
    members |> alter key fun
      | none => (descend made f path made []).map (table made)
      | some (table kind inner) =>
        if kind = .inlined || (made = .dotted && kind = .headed) then none
        else (descend made f path kind inner).map (table kind)
      | some (tables items) => (alterLast (descend made f path .headed) items).map tables
      | some _ => none

/-- The members with a value written at a key that was not taken. -/
def add (key : String) (v : Toml) (members : Members) : Option Members :=
  members |> alter key fun there => if there.isSome then none else some v

/-- The members with a value written at a path of keys. The tables of a dotted key are its own. -/
def addDotted (path : List String) (key : String) (v : Toml) (members : Members) :
    Option Members :=
  let put (kind : TableKind) (inner : Members) : Option Members :=
    if !path.isEmpty && kind ≠ .dotted then none else add key v inner
  descend .dotted put path .headed members

/-- The members with a table opened under a header. -/
def openTable (path : List String) (key : String) (members : Members) : Option Members :=
  descend .passed (fun _ inner => inner |> alter key fun
    | none => some (table .headed [])
    | some (table .passed there) => some (table .headed there)
    | some _ => none) path .headed members

/-- The members with one more table of an array opened under a header. -/
def openItem (path : List String) (key : String) (members : Members) : Option Members :=
  descend .passed (fun _ inner => inner |> alter key fun
    | none => some (tables [[]])
    | some (tables items) => some (tables (items ++ [[]]))
    | some _ => none) path .headed members

end Toml

end FlagFanout
