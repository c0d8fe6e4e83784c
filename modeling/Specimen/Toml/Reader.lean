import Specimen.Toml.Scalar
import Specimen.Toml.Table

/-!
# Reading TOML documents

A document is a sequence of lines: blank ones, pairs of a key and a value, and headers
that say which table the pairs below them belong to.  A byte order mark may come first.

## Main definitions

* `Toml.readValue` — a value and the text behind it.
* `Toml.readLines` — the lines of a document.
* `Toml.read?` — the entries of the document that a text denotes.
-/

namespace Specimen.Toml

/-- How deep values may be nested, and how many parts a key may have. -/
def nestingLimit : Nat := 79

mutual

/-- A value and the text behind it.  The first argument bounds the number of steps, the
second one the depth of nesting. -/
def readValue : Nat → Nat → List Char → Option (Toml × List Char)
  | 0, _, _ => none
  | steps + 1, depth, cs =>
    match depth, cs with
    | 0, '[' :: _ => none
    | 0, '\x7b' :: _ => none
    | depth + 1, '[' :: rest =>
      (readItems steps depth rest).map fun (items, rest) => (.array items, rest)
    | depth + 1, '\x7b' :: rest =>
      match skipBlanks rest with
      | '\x7d' :: rest => some (.table [], rest)
      | rest => do
        let (pairs, rest) ← readPairs steps depth rest
        return (← ofPairs? pairs, rest)
    | _, cs => readScalar cs

/-- The items of an array, up to its closing bracket. -/
def readItems : Nat → Nat → List Char → Option (List Toml × List Char)
  | 0, _, _ => none
  | steps + 1, depth, cs => do
    match ← skipTrivia false cs with
    | ']' :: rest => return ([], rest)
    | cs =>
      let (item, rest) ← readValue steps depth cs
      match ← skipTrivia false rest with
      | ']' :: rest => return ([item], rest)
      | ',' :: rest =>
        let (items, rest) ← readItems steps depth rest
        return (item :: items, rest)
      | _ => none

/-- The pairs of an inline table, up to its closing brace. -/
def readPairs : Nat → Nat → List Char → Option (List Draft.Pair × List Char)
  | 0, _, _ => none
  | steps + 1, depth, cs => do
    let (path, rest) ← readKey nestingLimit cs
    let rest ← expect '=' rest
    let (value, rest) ← readValue steps depth (skipBlanks rest)
    match skipBlanks rest with
    | '\x7d' :: rest => return ([(path, value)], rest)
    | ',' :: rest =>
      let (pairs, rest) ← readPairs steps depth rest
      return ((path, value) :: pairs, rest)
    | _ => none

end

/-! ### Lines -/

/-- A line that is not blank. -/
inductive Line where
  /-- A header. -/
  | opening (isElement : Bool) (path : List String)
  | pair (path : List String) (value : Toml)

/-- A header and the text behind its line. -/
def readHeader (cs : List Char) : Option (Line × List Char) :=
  match cs with
  | '[' :: '[' :: rest => do
    let (path, rest) ← readKey nestingLimit rest
    let rest ← expect ']' rest
    let rest ← expect ']' rest
    return (.opening true path, ← endLine rest)
  | '[' :: rest => do
    let (path, rest) ← readKey nestingLimit rest
    let rest ← expect ']' rest
    return (.opening false path, ← endLine rest)
  | _ => none

/-- A pair and the text behind its line. -/
def readPair (cs : List Char) : Option (Line × List Char) := do
  let (path, rest) ← readKey nestingLimit cs
  let rest ← expect '=' rest
  let rest := skipBlanks rest
  let (value, rest) ← readValue (2 * rest.length + 2) nestingLimit rest
  return (.pair path value, ← endLine rest)

/-- The lines of a document that are not blank, at most the given number of lines. -/
def readLines : Nat → List Char → Option (List Line)
  | 0, cs => if cs.isEmpty then some [] else none
  | count + 1, cs =>
    match skipBlanks cs with
    | [] => some []
    | '#' :: rest => do readLines count (← endLine ('#' :: rest))
    | '\n' :: rest => readLines count rest
    | '\r' :: '\n' :: rest => readLines count rest
    | '[' :: rest => do
      let (line, rest) ← readHeader ('[' :: rest)
      return line :: (← readLines count rest)
    | rest => do
      let (line, rest) ← readPair rest
      return line :: (← readLines count rest)

/-- The pairs in front of the first header, and the sections behind it. -/
def groupLines (lines : List Line) : List Draft.Pair × List Section :=
  lines.foldr (fun line (pairs, sections) =>
    match line with
    | .pair path value => ((path, value) :: pairs, sections)
    | .opening isElement path => ([], ⟨isElement, path, pairs⟩ :: sections)) ([], [])

/-- What is left behind a byte order mark. -/
def skipMark : List Char → List Char
  | '\uFEFF' :: rest => rest
  | rest => rest

/-- The entries of the document that the text denotes. -/
def read? (text : String) : Option (List (String × Toml)) := do
  let lines ← readLines (text.length + 1) (skipMark text.toList)
  let (pairs, sections) := groupLines lines
  ofSections? pairs sections

end Specimen.Toml
