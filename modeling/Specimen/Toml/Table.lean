import Specimen.Toml.Basic

/-!
# Assembling TOML tables

The lines of a document define its tables piecemeal: by headers, by the headers of
their sub-tables, and by dotted keys.  A table remembers how it came to be, because
that decides what may still be added to it.  No key may be defined twice.

## Main definitions

* `Draft` — a value or a table under construction.
* `Draft.update` — changes the table at a path, making the tables on the way.
* `Draft.addPair` — adds a key with a value.
* `Section` — a header and the pairs below it.
* `Toml.ofSections?` — the document that the sections define, unless they conflict.
* `Toml.ofPairs?` — the inline table of the given pairs, unless they conflict.
-/

namespace Specimen.Toml

/-- How a table came to be. -/
inductive Origin where
  /-- By its own header, as the document, or as an inline table. -/
  | header
  /-- By the header of a table inside it. -/
  | subheader
  /-- By a dotted key. -/
  | dotted
deriving DecidableEq

/-- A value or a table under construction. -/
inductive Draft where
  | value (v : Toml)
  | table (origin : Origin) (entries : List (String × Draft))
  /-- An array of tables, each with its own header. -/
  | tables (elements : List Draft)

namespace Draft

/-- The entries of a table under construction. -/
abbrev Entries := List (String × Draft)

/-- Changes the table at the end of a path.  Missing tables on the way are made, with
the given origin; of an array of tables the last one is meant.  A dotted key does not
lead through a table with a header of its own, and no path leads through a value. -/
def update (made : Origin) (change : Origin → Entries → Option Entries) :
    List String → Origin → Entries → Option Entries
  | [], origin, entries => change origin entries
  | key :: path, _, entries =>
    match Record.get? key entries with
    | none => do
      let inner ← update made change path made []
      return Record.insert key (.table made inner) entries
    | some (.value _) => none
    | some (.tables elements) =>
      match elements.getLast? with
      | some (.table origin inner) => do
        let inner ← update made change path origin inner
        return Record.insert key (.tables (elements.dropLast ++ [.table origin inner])) entries
      | _ => none
    | some (.table origin inner) =>
      if made = .dotted ∧ origin = .header then none
      else do
        let inner ← update made change path origin inner
        return Record.insert key (.table origin inner) entries

/-- A key path and the value that it is given. -/
abbrev Pair := List String × Toml

/-- Adds a pair to a table.  Dotted keys only add to tables that dotted keys made, and
a key must be new. -/
def addPair (entries : Entries) (pair : Pair) : Option Entries := do
  let key ← pair.1.getLast?
  let path := pair.1.dropLast
  update .dotted (fun origin entries =>
    if origin = .dotted ↔ path.isEmpty then none
    else if Record.contains key entries then none
    else some (Record.insert key (.value pair.2) entries)) path .header entries

/-- Adds pairs one after another. -/
def addPairs (entries : Entries) (pairs : List Pair) : Option Entries :=
  pairs.foldlM addPair entries

mutual

/-- The finished value. -/
def finish : Draft → Toml
  | .value v => v
  | .table _ entries => .table (finishEntries entries)
  | .tables elements => .array (finishElements elements)

/-- The finished entries of a table. -/
def finishEntries : List (String × Draft) → List (String × Toml)
  | [] => []
  | (key, draft) :: entries => (key, draft.finish) :: finishEntries entries

/-- The finished tables of an array. -/
def finishElements : List Draft → List Toml
  | [] => []
  | element :: elements => element.finish :: finishElements elements

end

end Draft

/-- A header and the pairs below it. -/
structure Section where
  /-- The header adds a table to an array of tables. -/
  isElement : Bool
  path : List String
  pairs : List Draft.Pair

/-- Adds the table of a section.  A table may have been made before by the headers of
tables inside it, but by nothing else. -/
def addSection (entries : Draft.Entries) (s : Section) : Option Draft.Entries := do
  let key ← s.path.getLast?
  Draft.update .subheader (fun _ entries =>
    match s.isElement, Record.get? key entries with
    | true, none => do
      let inner ← Draft.addPairs [] s.pairs
      return Record.insert key (.tables [.table .header inner]) entries
    | true, some (.tables elements) => do
      let inner ← Draft.addPairs [] s.pairs
      return Record.insert key (.tables (elements ++ [.table .header inner])) entries
    | false, none => do
      let inner ← Draft.addPairs [] s.pairs
      return Record.insert key (.table .header inner) entries
    | false, some (.table .subheader inner) => do
      let inner ← Draft.addPairs inner s.pairs
      return Record.insert key (.table .header inner) entries
    | _, _ => none) s.path.dropLast .header entries

/-- The entries of the document with the given pairs at its start and the given
sections behind them. -/
def ofSections? (pairs : List Draft.Pair) (sections : List Section) :
    Option (List (String × Toml)) := do
  let entries ← Draft.addPairs [] pairs
  let entries ← sections.foldlM addSection entries
  return Draft.finishEntries entries

/-- The inline table of the given pairs. -/
def ofPairs? (pairs : List Draft.Pair) : Option Toml := do
  return .table (Draft.finishEntries (← Draft.addPairs [] pairs))

end Specimen.Toml
