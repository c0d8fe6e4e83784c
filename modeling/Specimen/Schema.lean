import Specimen.Json.Typed
import Specimen.Options.Reader

/-!
# Schemas

The JSON schemas of the documents that this library reads.

## Main definitions

* `Schema.overrides` — the schema of overrides.
* `Schema.options` — the schema of options.
-/

namespace Specimen.Schema

/-- An object with the given members. -/
def object (members : List (String × Json)) : Json := .object (Record.ofList members)

/-- The draft that the schemas follow. -/
def draft : String × Json := ("$schema", .string "http://json-schema.org/draft-07/schema#")

/-- A type of JSON values. -/
def typed (name : String) : String × Json := ("type", .string name)

/-- A text for the reader of the schema. -/
def described (text : String) : String × Json := ("description", .string text)

/-- The least value, which is zero for every number here. -/
def nonnegative : String × Json := ("minimum", .number (.real .zero rfl))

/-- A natural number that is used when none is given. -/
def defaultNat (n : Nat) : String × Json := ("default", (Json.ofNat? n).getD .null)

/-! ### Overrides -/

/-- Members of any name, each of them an override. -/
def overrideMembers : String × Json :=
  ("additionalProperties", object [("$ref", .string "#/definitions/Override")])

/-- What an override is. -/
def overrideText : String :=
  "Per-field override: a spec string for scalar and primitive-array fields, " ++
  "or a nested tree for object and object-array fields."

/-- The schema of an override: a spec string, or an object of overrides. -/
def override : Json :=
  object
    [described overrideText,
     ("anyOf", .array [object [typed "string"], object [typed "object", overrideMembers]])]

/-- The schema of overrides. -/
def overrides : Json :=
  object
    [draft, ("title", .string "Map_of_Override"), typed "object", overrideMembers,
     ("definitions", object [("Override", override)])]

/-! ### Options -/

/-- The schema of the number of elements. -/
def elementCount : Json :=
  object
    [defaultNat Options.default.elementCount, ("format", .string "uint"), nonnegative,
     typed "integer",
     described ("Number of elements generated for every array-of-objects and " ++
       "array-of-primitives field.")]

/-- The schema of the seed, which may be null. -/
def seed : Json :=
  object
    [("default", .null), ("format", .string "uint64"), nonnegative,
     ("type", .array [.string "integer", .string "null"]),
     described "Seed for the default random source; a fresh seed is drawn when absent."]

/-- The schema of the strictness. -/
def strict : Json :=
  object
    [("default", .bool Options.default.strict), typed "boolean",
     described "Fail when an override names a field that is not in the template."]

/-- The schema of the window. -/
def window : Json :=
  object
    [defaultNat Options.default.window.toNat, ("format", .string "uint32"), nonnegative,
     typed "integer",
     described "Width of the range for `integer`, `decimal`, and one-sided specs."]

/-- The schema of options. -/
def options : Json :=
  object
    [draft, ("title", .string "FixtureOptions"), typed "object",
     described "Options for the population engine.",
     ("properties", object
       [(Options.elementCountKey, elementCount), (Options.seedKey, seed),
        (Options.strictKey, strict), (Options.windowKey, window)])]

end Specimen.Schema
