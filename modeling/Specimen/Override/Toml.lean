import Specimen.Override.Basic
import Specimen.Toml.Reader

/-!
# Overrides in TOML documents

A TOML document denotes overrides when its leaves are strings: a string is a spec, a
table is a tree.  A time is a leaf of a kind of its own; it counts as a tree with one
entry, which holds its text under a reserved name.  Nothing else may occur.

## Main definitions

* `Overrides.ofToml?` — the overrides that a TOML document denotes.
-/

namespace Specimen

namespace Override

/-- The reserved name under which a time holds its text. -/
def timeName : String := "$__toml_private_datetime"

mutual

/-- The override that a TOML value denotes. -/
def ofToml? : Toml → Option Override
  | .string text => some (.spec text)
  | .table entries => (ofEntries? entries).map .tree
  | .dateTime time => some (.tree [(timeName, .spec time.text)])
  | _ => none

/-- The overrides that the entries of a table denote. -/
def ofEntries? : List (String × Toml) → Option (List (String × Override))
  | [] => some []
  | (name, value) :: entries => do
    return (name, ← ofToml? value) :: (← ofEntries? entries)

end

end Override

/-- The overrides that a TOML document denotes. -/
def Overrides.ofToml? (text : String) : Option Overrides := do
  Override.ofEntries? (← Toml.read? text)

end Specimen
