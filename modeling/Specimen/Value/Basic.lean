import Specimen.Binary64.Rounding
import Specimen.Date.Basic
import Specimen.Record

/-!
# Values

Templates and the specimens made from them are trees of the same type.  Objects are
records, so their fields are in name order and no name occurs twice.

## Main definitions

* `Value` — a tree of values.
* `Value.WellFormed` — every object in the tree is a record in order.
* `Value.withField` — adds a field to an object.
* `Value.get?`, `Value.asInteger?`, … — views of a value as one of its kinds.
-/

namespace Specimen

/-- A node of a template or of a specimen. -/
inductive Value where
  /-- A leaf whose kind is open; only an override can populate it. -/
  | null
  | bool (b : Bool)
  | integer (n : Int64)
  | decimal (x : Binary64)
  | text (s : String)
  | date (d : Date)
  | array (items : List Value)
  | object (fields : List (String × Value))

namespace Value

instance : Inhabited Value := ⟨.null⟩

/-- The object without fields. -/
def emptyObject : Value := .object []

/-! ### Equality -/

mutual

/-- Equality of values is decided node by node. -/
def decEq : (v w : Value) → Decidable (v = w)
  | .null, .null => isTrue rfl
  | .bool a, .bool b =>
    if h : a = b then isTrue (h ▸ rfl) else isFalse fun e => h (Value.bool.inj e)
  | .integer a, .integer b =>
    if h : a = b then isTrue (h ▸ rfl) else isFalse fun e => h (Value.integer.inj e)
  | .decimal a, .decimal b =>
    if h : a = b then isTrue (h ▸ rfl) else isFalse fun e => h (Value.decimal.inj e)
  | .text a, .text b =>
    if h : a = b then isTrue (h ▸ rfl) else isFalse fun e => h (Value.text.inj e)
  | .date a, .date b =>
    if h : a = b then isTrue (h ▸ rfl) else isFalse fun e => h (Value.date.inj e)
  | .array a, .array b =>
    match decEqItems a b with
    | isTrue h => isTrue (h ▸ rfl)
    | isFalse h => isFalse fun e => h (Value.array.inj e)
  | .object a, .object b =>
    match decEqFields a b with
    | isTrue h => isTrue (h ▸ rfl)
    | isFalse h => isFalse fun e => h (Value.object.inj e)
  | .null, .bool _ | .null, .integer _ | .null, .decimal _ | .null, .text _ | .null, .date _
  | .null, .array _ | .null, .object _ | .bool _, .null | .bool _, .integer _
  | .bool _, .decimal _ | .bool _, .text _ | .bool _, .date _ | .bool _, .array _
  | .bool _, .object _ | .integer _, .null | .integer _, .bool _ | .integer _, .decimal _
  | .integer _, .text _ | .integer _, .date _ | .integer _, .array _ | .integer _, .object _
  | .decimal _, .null | .decimal _, .bool _ | .decimal _, .integer _ | .decimal _, .text _
  | .decimal _, .date _ | .decimal _, .array _ | .decimal _, .object _ | .text _, .null
  | .text _, .bool _ | .text _, .integer _ | .text _, .decimal _ | .text _, .date _
  | .text _, .array _ | .text _, .object _ | .date _, .null | .date _, .bool _
  | .date _, .integer _ | .date _, .decimal _ | .date _, .text _ | .date _, .array _
  | .date _, .object _ | .array _, .null | .array _, .bool _ | .array _, .integer _
  | .array _, .decimal _ | .array _, .text _ | .array _, .date _ | .array _, .object _
  | .object _, .null | .object _, .bool _ | .object _, .integer _ | .object _, .decimal _
  | .object _, .text _ | .object _, .date _ | .object _, .array _ => isFalse nofun

/-- Equality of lists of values. -/
def decEqItems : (vs ws : List Value) → Decidable (vs = ws)
  | [], [] => isTrue rfl
  | [], _ :: _ => isFalse nofun
  | _ :: _, [] => isFalse nofun
  | v :: vs, w :: ws =>
    match decEq v w, decEqItems vs ws with
    | isTrue h, isTrue h' => isTrue (h ▸ h' ▸ rfl)
    | isFalse h, _ => isFalse fun e => h (List.cons.inj e).1
    | _, isFalse h => isFalse fun e => h (List.cons.inj e).2

/-- Equality of lists of fields. -/
def decEqFields : (fs gs : List (String × Value)) → Decidable (fs = gs)
  | [], [] => isTrue rfl
  | [], _ :: _ => isFalse nofun
  | _ :: _, [] => isFalse nofun
  | (a, v) :: fs, (b, w) :: gs =>
    if h : a = b then
      match decEq v w, decEqFields fs gs with
      | isTrue h', isTrue h'' => isTrue (h ▸ h' ▸ h'' ▸ rfl)
      | isFalse h', _ => isFalse fun e => h' (Prod.mk.inj (List.cons.inj e).1).2
      | _, isFalse h' => isFalse fun e => h' (List.cons.inj e).2
    else isFalse fun e => h (Prod.mk.inj (List.cons.inj e).1).1

end

instance : DecidableEq Value := decEq

/-! ### Order of fields -/

mutual

/-- Every object in the tree is a record in order. -/
def WellFormed : Value → Prop
  | .array items => WellFormedItems items
  | .object fields => Record.Sorted fields ∧ WellFormedFields fields
  | _ => True

/-- Every item is well formed. -/
def WellFormedItems : List Value → Prop
  | [] => True
  | item :: items => item.WellFormed ∧ WellFormedItems items

/-- Every field is well formed. -/
def WellFormedFields : List (String × Value) → Prop
  | [] => True
  | (_, value) :: fields => value.WellFormed ∧ WellFormedFields fields

end

/-! ### Building -/

/-- Adds a field to an object, replacing one of that name.  Other values have no
fields and stay as they are. -/
def withField (v : Value) (name : String) (value : Value) : Value :=
  match v with
  | .object fields => .object (Record.insert name value fields)
  | other => other

/-! ### Views -/

/-- The truth value. -/
def asBool? : Value → Option Bool
  | .bool b => some b
  | _ => none

/-- The integer. -/
def asInteger? : Value → Option Int64
  | .integer n => some n
  | _ => none

/-- The number as a double: a decimal itself, an integer rounded. -/
def asBinary64? : Value → Option Binary64
  | .integer n => some (.ofInt n.toInt)
  | .decimal x => some x
  | _ => none

/-- The text.  A date is not a text. -/
def asText? : Value → Option String
  | .text s => some s
  | _ => none

/-- The date. -/
def asDate? : Value → Option Date
  | .date d => some d
  | _ => none

/-- The items of an array. -/
def asArray? : Value → Option (List Value)
  | .array items => some items
  | _ => none

/-- The fields of an object. -/
def asObject? : Value → Option (List (String × Value))
  | .object fields => some fields
  | _ => none

/-- The field of an object with the given name. -/
def get? (name : String) (v : Value) : Option Value :=
  v.asObject?.bind (Record.get? name)

end Value

end Specimen
