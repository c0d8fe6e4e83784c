import Specimen.Json.Typed
import Specimen.Options.Basic
import Specimen.Toml.Reader

/-!
# Reading options

Options are read from JSON or from a TOML document.  Keys that name no option do not
matter, and options that are not given keep their defaults.

## Main definitions

* `Options.LoadError` — why options cannot be loaded.
* `Options.ofJson?` — the options that a JSON value denotes.
* `Options.ofToml` — the options that a TOML document denotes.
* `Options.load` — the options in the bytes of a file.
-/

namespace Specimen.Options

attribute [local instance (high)] instPowNat

/-- The key of the number of elements. -/
def elementCountKey : String := "element_count"

/-- The key of the window. -/
def windowKey : String := "window"

/-- The key of the strictness. -/
def strictKey : String := "strict_overrides"

/-- The key of the seed. -/
def seedKey : String := "seed"

/-- The options that a JSON value denotes. -/
def ofJson? (j : Json) : Option Options := do
  match ← Json.record? [elementCountKey, windowKey, strictKey, seedKey] j with
  | [elementCount, window, strict, seed] =>
    let elementCount ← Json.optional? (UInt64.ofNat default.elementCount) elementCount
    return {
      elementCount := elementCount.toNat
      window := ← Json.optional? default.window window
      strict := ← Json.optional? default.strict strict
      seed := ← Json.optional? default.seed seed }
  | _ => none

/-- Why options cannot be loaded. -/
inductive LoadError where
  /-- There is no file, or its bytes are no text. -/
  | unreadable
  /-- The text is no TOML document, or an option has a value of the wrong kind. -/
  | malformed
deriving DecidableEq, Repr

/-- A natural number below the limit. -/
def natural? (limit : Nat) : Toml → Option Nat
  | .integer n => if 0 ≤ n.toInt ∧ n.toInt < limit then some n.toInt.toNat else none
  | _ => none

/-- A truth value. -/
def boolean? : Toml → Option Bool
  | .boolean b => some b
  | _ => none

/-- The value under a key, or the default when the key is missing. -/
def entry? {α : Type} (read? : Toml → Option α) (default : α) (key : String)
    (entries : List (String × Toml)) : Option α :=
  match Record.get? key entries with
  | none => some default
  | some value => read? value

/-- The options in the entries of a TOML document. -/
def ofEntries? (entries : List (String × Toml)) : Option Options := do
  return {
    elementCount :=
      ← entry? (natural? (2 ^ (64 : Nat))) default.elementCount elementCountKey entries
    window := ← entry? (fun v => (natural? (2 ^ (32 : Nat)) v).map .ofNat) default.window windowKey
      entries
    strict := ← entry? boolean? default.strict strictKey entries
    seed := ← entry? (fun v => (natural? (2 ^ (64 : Nat)) v).map (some <| .ofNat ·)) default.seed
      seedKey entries }

/-- The options that a TOML document denotes. -/
def ofToml (text : String) : Except LoadError Options :=
  match (Toml.read? text).bind ofEntries? with
  | some o => .ok o
  | none => .error .malformed

/-- The options in the bytes of a file, which need not exist. -/
def load (content : Option ByteArray) : Except LoadError Options :=
  match content.bind String.fromUTF8? with
  | some text => ofToml text
  | none => .error .unreadable

end Specimen.Options
