import AsyncMarkers.Number.Double

/-!
# JSON values

A `Json` value keeps what its text said: the members of an object in order and with repetitions,
numbers apart by whether they were written as integers, and also literals that are well formed and
yet stand for nothing. Only whoever decodes such a literal refuses it, so a part of a value that
nobody decodes puts no demand on its numbers and strings.

The second half of the file holds the two shapes in which trees are written. A record is an object
or, positionally, an array (`Json.slots?`); a value of a sum type is the name of its case, or an
object with that name as its only key (`Json.variant?`).
-/

namespace AsyncMarkers

/-- A number. -/
inductive Json.Number where
  /-- One that was written as an integer and fits into 64 bits. -/
  | integer (value : Int)
  /-- Any other one. -/
  | double (value : Double)
  /-- One that is too large for a double, and stands for nothing. -/
  | tooLarge
deriving DecidableEq

/-- A JSON value. The text of a string or of a key is absent if its escapes name a surrogate that is
not half of a pair, since such a literal is well formed and yet stands for no text. -/
inductive Json where
  | null
  | bool (value : Bool)
  | number (value : Json.Number)
  | string (text : Option String)
  | array (items : List Json)
  | object (members : List (Option String × Json))

namespace Json

/-- The string value with the given text. -/
def text (s : String) : Json := .string (some s)

/-- The number value of a natural number. -/
def nat (n : Nat) : Json := .number (.integer n)

/-- The object with the given keys and values. -/
def record (members : List (String × Json)) : Json :=
  .object (members.map fun (key, value) => (some key, value))

/-- The object whose only key is the name of a case and whose value is the payload. -/
def tagged (name : String) (payload : Json) : Json := .object [(some name, payload)]

/-- The value of an optional part: `null` if it is absent. -/
def orNull (encode : α → Json) : Option α → Json
  | none => .null
  | some a => encode a

/-- The array of the encoded elements. -/
def list (encode : α → Json) (items : List α) : Json := .array (items.map encode)

mutual

/-- How deep arrays and objects are nested; a scalar has depth zero. -/
def depth : Json → Nat
  | .array items => depthOfItems items + 1
  | .object members => depthOfMembers members + 1
  | _ => 0

/-- The greatest depth of an array's items. -/
def depthOfItems : List Json → Nat
  | [] => 0
  | item :: items => max item.depth (depthOfItems items)

/-- The greatest depth of an object's values. -/
def depthOfMembers : List (Option String × Json) → Nat
  | [] => 0
  | (_, value) :: members => max value.depth (depthOfMembers members)

end

/-! ### Records -/

/-- When a field of a record may be left out. -/
inductive Presence where
  /-- Never. -/
  | required
  /-- In an object, but not in the positional form. -/
  | optional
  /-- In an object, and at the end of the positional form. -/
  | defaulted
deriving DecidableEq

/-- A field of a record: its key, and when it may be left out. -/
structure Field where
  key : String
  presence : Presence

/-- A field that may never be left out. -/
def Field.required (key : String) : Field := ⟨key, .required⟩

/-- A field that may be left out of an object. -/
def Field.optional (key : String) : Field := ⟨key, .optional⟩

/-- A field that may be left out of an object and at the end of the positional form. -/
def Field.defaulted (key : String) : Field := ⟨key, .defaulted⟩

/-- The values of the fields, in order, of a record in positional form. -/
def positional? : List Field → List Json → Option (List (Option Json))
  | [], [] => some []
  | [], _ :: _ => none
  | field :: fields, [] =>
    if field.presence = .defaulted then (positional? fields []).map (none :: ·) else none
  | _ :: fields, item :: items => (positional? fields items).map (some item :: ·)

/-- The value of one field of a record written as an object. A key that occurs twice is refused. -/
def member? (members : List (Option String × Json)) (field : Field) : Option (Option Json) :=
  match members.filter (·.1 == some field.key) with
  | [] => if field.presence = .required then none else some none
  | [(_, value)] => some (some value)
  | _ => none

/-- The values of the given fields of a record, in their order; `none` for a field that is left out.
Keys of an object that name no field are passed over. -/
def slots? (fields : List Field) : Json → Option (List (Option Json))
  | .array items => positional? fields items
  | .object members =>
    if members.all (·.1.isSome) then fields.mapM (member? members) else none
  | _ => none

/-! ### Cases -/

/-- The name of the case of a value of a sum type, and its payload if there is one. -/
def variant? : Json → Option (String × Option Json)
  | .string (some name) => some (name, none)
  | .object [(some name, payload)] => some (name, some payload)
  | _ => none

/-- The name of a case without payload: the name alone, or with `null` for its payload. The latter
opens an object, for which a level of nesting has to be left. -/
def bareCase? (levels : Nat) (j : Json) : Option String :=
  match j.variant? with
  | some (name, none) => some name
  | some (name, some .null) => if 0 < levels then some name else none
  | _ => none

/-! ### Scalars -/

/-- The items of an array. -/
def items? : Json → Option (List Json)
  | .array items => some items
  | _ => none

/-- The text of a string. -/
def text? : Json → Option String
  | .string s => s
  | _ => none

/-- A truth value. -/
def bool? : Json → Option Bool
  | .bool b => some b
  | _ => none

/-- A natural number below `bound`, written as an integer. -/
def natBelow? (bound : Nat) : Json → Option Nat
  | .number (.integer (.ofNat n)) => if n < bound then some n else none
  | _ => none

/-- A word of 32 bits, written as an integer. -/
def word32? (j : Json) : Option UInt32 := (natBelow? UInt32.size j).map UInt32.ofNat

/-- A number as a double. -/
def double? : Json → Option Double
  | .number (.integer z) => Double.ofInt? z
  | .number (.double x) => some x
  | _ => none

/-- The number value of a double. -/
def double (x : Double) : Json := .number (.double x)

/-- An optional part: `null` stands for its absence. -/
def option? (decode : Json → Option α) : Json → Option (Option α)
  | .null => some none
  | j => (decode j).map some

end Json

end AsyncMarkers
