import BlockPainting.Json.Reader

/-!
# Reading records from JSON

A record is given as an object or as an array of its fields in order. In an object, unknown members
are passed over and no field may come twice; an array must not be longer than the record.
-/

namespace BlockPainting

/-- The values given for the fields of a record. -/
structure RecordFields where
  values : List (Option Json)
  positional : Bool

namespace Json

/-- A natural number up to `limit`. -/
def nat? (limit : Nat) : Json → Option Nat
  | .number n => n.toNat limit
  | _ => none

def float? : Json → Option Float
  | .number n => n.toFloat
  | _ => none

def text? : Json → Option String
  | .string s => s
  | _ => none

def list? {α : Type} (item : Json → Option α) : Json → Option (List α)
  | .array js => js.mapM item
  | _ => none

def pair? {α : Type} (item : Json → Option α) : Json → Option (α × α)
  | .array [a, b] => do
    let a ← item a
    let b ← item b
    return (a, b)
  | _ => none

/-- A thing or `null`. -/
def nullable? {α : Type} (item : Json → Option α) : Json → Option (Option α)
  | .null => some none
  | j => (item j).map some

/-- The member with a key, of which there must not be two. -/
def member? (key : String) (members : List (Option String × Json)) : Option (Option Json) :=
  match members.filter fun m => m.1 = some key with
  | [] => some none
  | [m] => some (some m.2)
  | _ => none

/-- The values given for the fields with these names. -/
def record? (names : List String) : Json → Option RecordFields
  | .object members =>
    if members.all fun m => m.1.isSome then
      (names.mapM fun name => member? name members).map fun values => ⟨values, false⟩
    else none
  | .array items =>
    if items.length ≤ names.length then
      some ⟨items.map some ++ List.replicate (names.length - items.length) none, true⟩
    else none
  | _ => none

/-- A choice among names: the name, or an object with the name and `null`. -/
def name? : Json → Option String
  | .string s => s
  | .object [(some name, .null)] => some name
  | _ => none

end Json

namespace RecordFields

/-- The value of a field that must be given. -/
def required {α : Type} (r : RecordFields) (index : Nat) (item : Json → Option α) : Option α := do
  let j ← r.values.getD index none
  item j

/-- The value of a field that may be missing. -/
def withDefault {α : Type} (r : RecordFields) (index : Nat) (default : α)
    (item : Json → Option α) : Option α :=
  match r.values.getD index none with
  | none => some default
  | some j => item j

/-- The value of a field that may be `null`, or missing from an object. -/
def optional {α : Type} (r : RecordFields) (index : Nat) (item : Json → Option α) :
    Option (Option α) :=
  match r.values.getD index none with
  | none => if r.positional then none else some none
  | some j => Json.nullable? item j

end RecordFields

end BlockPainting
