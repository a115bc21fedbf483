import FlagFanout.Toml.Scalar

/-!
# TOML documents

A document is a sequence of lines: a header opens a table, a pair writes a value into the table
opened last. `Toml.ofText?` reads a whole text and gives its tree, or `none` if it is not TOML 1.0
or writes something twice.
-/

namespace FlagFanout.Toml

/-! ## Values -/

/-- The items of an array from its first one on; there are no more than `bound`. -/
def readItems? (value : List Char → Option (Toml × List Char)) :
    Nat → List Char → Option (List Toml × List Char)
  | 0, _ => none
  | bound + 1, cs => do
    match ← skipFiller false cs with
    | ']' :: rest => return ([], rest)
    | cs =>
      let (v, rest) ← value cs
      match ← skipFiller false rest with
      | ']' :: rest => return ([v], rest)
      | ',' :: rest =>
        let (vs, rest) ← readItems? value bound rest
        return (v :: vs, rest)
      | _ => none

/-- A pair of a key and a value, and what follows it. -/
def readPair? (value : List Char → Option (Toml × List Char)) (cs : List Char) :
    Option (((List String × String) × Toml) × List Char) := do
  let (key, rest) ← readKey? cs
  let (v, rest) ← value (skipBlanks (← after? '=' rest))
  return ((key, v), rest)

/-- The pairs of an inline table from its first one on, written into the members; there are no more
than `bound`. -/
def readMembers? (value : List Char → Option (Toml × List Char)) :
    Nat → Members → List Char → Option (Members × List Char)
  | 0, _, _ => none
  | bound + 1, members, cs => do
    let (((path, key), v), rest) ← readPair? value cs
    let members ← addDotted path key v members
    match skipBlanks rest with
    | '\x7d' :: rest => return (members, rest)
    | ',' :: rest => readMembers? value bound members rest
    | _ => none

/-- A value within which arrays and inline tables nest less than `depth` deep. -/
def readValue? : Nat → List Char → Option (Toml × List Char)
  | 0, _ => none
  | depth + 1, cs =>
    match cs with
    | '[' :: rest =>
      if depth = 0 then none
      else (readItems? (readValue? depth) cs.length rest).map fun (vs, rest) => (array vs, rest)
    | '\x7b' :: rest =>
      if depth = 0 then none
      else
        match skipBlanks rest with
        | '\x7d' :: rest => some (table .inlined [], rest)
        | inside =>
          (readMembers? (readValue? depth) cs.length [] inside).map fun (members, rest) =>
            (table .inlined members, rest)
    | cs => readScalar? cs

/-! ## Lines -/

/-- The tree written so far, and the table that was opened last. -/
structure State where
  members : Members
  /-- The path of the table opened last, its own key included. -/
  current : List String

/-- The state after a pair: it is written into the table opened last. -/
def State.pair (s : State) (path : List String) (key : String) (v : Toml) : Option State := do
  let members ←
    descend .passed (fun _ inner => addDotted path key v inner) s.current .headed s.members
  return { s with members }

/-- One line that is not empty, and what follows it. -/
def readLine? (s : State) : List Char → Option (State × List Char)
  | '[' :: '[' :: rest => do
    let ((path, key), rest) ← readKey? rest
    let rest ← after? ']' (← after? ']' rest)
    return (⟨← openItem path key s.members, path ++ [key]⟩, ← endLine? rest)
  | '[' :: rest => do
    let ((path, key), rest) ← readKey? rest
    let rest ← after? ']' rest
    return (⟨← openTable path key s.members, path ++ [key]⟩, ← endLine? rest)
  | cs => do
    let (((path, key), v), rest) ← readPair? (readValue? depthLimit) cs
    return (← s.pair path key v, ← endLine? rest)

/-- All lines; there are no more than `bound`. -/
def readLines? : Nat → State → List Char → Option State
  | 0, _, _ => none
  | bound + 1, s, cs => do
    match ← skipFiller false cs with
    | [] => return s
    | cs =>
      let (s, rest) ← readLine? s cs
      readLines? bound s rest

/-- The members of the tree that a text writes. A byte order mark may stand first. -/
def ofText? (text : String) : Option Members := do
  let cs := match text.toList with
    | '\uFEFF' :: rest => rest
    | cs => cs
  let s ← readLines? (cs.length + 1) ⟨[], []⟩ cs
  return s.members

end FlagFanout.Toml
