/-! The values of a TOML document and the tables they are collected in.  A table remembers how it
came to be, because that decides who may still add to it. -/

namespace LogLift.Toml

/-- How a table came to be. -/
inductive Origin where
  /-- It was written between braces. -/
  | inline
  /-- It has a header of its own. -/
  | header
  /-- It is the parent of a table with a header. -/
  | implied
  /-- It is the parent of a dotted key. -/
  | dotted
  deriving Repr, DecidableEq

inductive Value where
  | string (text : String)
  | integer (value : Int)
  /-- A number with a fraction or an exponent, as written. -/
  | float (numeral : String)
  | boolean (value : Bool)
  /-- A date, a time, or both, as written. -/
  | moment (written : String)
  | array (items : List Value)
  /-- The tables with one repeated header. -/
  | tables (rows : List (List (String × Value)))
  | table (origin : Origin) (entries : List (String × Value))
  deriving Repr

/-- The keys of a table with their values, in the order of their first use. -/
abbrev Entries := List (String × Value)

/-- The entries with `value` in place of what `key` had. -/
def Entries.replace (key : String) (value : Value) (entries : Entries) : Entries :=
  entries.map fun entry => if entry.1 = key then (key, value) else entry

structure Table where
  origin : Origin
  entries : Entries

/-- The table under construction that `path` leads to, changed by `change`.  Tables that are
missing on the way are made, with the origin `made`.  A repeated header stands for its last
table.  There is no way through any other value, and none through an inline table; a dotted key
has no way through a table with a header either. -/
def Table.change? (made : Origin) (change : Table → Option Table) :
    (path : List String) → Table → Option Table
  | [], t => change t
  | key :: path, t =>
    match t.entries.lookup key with
    | none => do
      let child ← change? made change path ⟨made, []⟩
      return { t with entries := t.entries ++ [(key, .table child.origin child.entries)] }
    | some (.table origin entries) =>
      if origin = .inline ∨ (made = .dotted ∧ origin = .header) then none
      else do
        let child ← change? made change path ⟨origin, entries⟩
        return { t with entries := t.entries.replace key (.table child.origin child.entries) }
    | some (.tables rows) => do
      let child ← change? made change path ⟨.header, ← rows.getLast?⟩
      return { t with
        entries := t.entries.replace key (.tables (rows.dropLast ++ [child.entries])) }
    | some _ => none

/-- A table with one more key.  A key cannot be defined twice. -/
def Table.insert? (key : String) (value : Value) (t : Table) : Option Table :=
  if (t.entries.lookup key).isSome then none
  else some { t with entries := t.entries ++ [(key, value)] }

/-- A table in which the dotted key made of `parents` and `key` has a value.  The table that
`parents` lead to was made by dotted keys alone. -/
def Table.define? (parents : List String) (key : String) (value : Value) (t : Table) :
    Option Table :=
  t.change? .dotted (fun last =>
    if last.origin = .dotted ↔ parents ≠ [] then last.insert? key value else none) parents

/-- A table in which the header made of `parents` and `key` was read.  A header cannot be
repeated, but it may follow the headers of its children. -/
def Table.openHeader? (parents : List String) (key : String) (t : Table) : Option Table :=
  t.change? .implied (fun parent =>
    match parent.entries.lookup key with
    | none => parent.insert? key (.table .header [])
    | some (.table .implied entries) =>
      some { parent with entries := parent.entries.replace key (.table .header entries) }
    | some _ => none) parents

/-- A table in which the repeatable header made of `parents` and `key` was read once more. -/
def Table.openRow? (parents : List String) (key : String) (t : Table) : Option Table :=
  t.change? .implied (fun parent =>
    match parent.entries.lookup key with
    | none => parent.insert? key (.tables [[]])
    | some (.tables rows) =>
      some { parent with entries := parent.entries.replace key (.tables (rows ++ [[]])) }
    | some _ => none) parents

end LogLift.Toml
