import AsyncMarkers.Tree.Basic

/-!
# Markers

A marker is an identifier with the marker's name that no transformation has consumed yet. As an
argument it occurs by itself or wrapped in one of three shapes, and which of them occur in an
argument list decides what becomes of the call:

| shape    | kind    |
|----------|---------|
| `_`      | plain   |
| `!_`     | future  |
| `void _` | promise |
| `[_]`    | array   |

`planCall?` looks for the kinds in this order and plans for the first one that occurs.
-/

namespace AsyncMarkers

/-- The shape in which a marker occurs as an argument. -/
inductive MarkerKind where
  | plain
  | future
  | promise
  | array
deriving DecidableEq

/-- Whether an identifier is a marker. -/
def Identifier.isMarker (marker : String) (id : Identifier) : Bool := id.name == marker && !id.done

/-- Whether an expression is a marker by itself. -/
def Expression.isPlainMarker (marker : String) : Expression → Bool
  | .identifier _ id => id.isMarker marker
  | _ => false

/-- The shape in which an expression holds a marker, if it does. -/
def Expression.markerKind? (marker : String) : Expression → Option MarkerKind
  | .identifier _ id => if id.isMarker marker then some .plain else none
  | .unary _ .not argument => if argument.isPlainMarker marker then some .future else none
  | .unary _ .void argument => if argument.isPlainMarker marker then some .promise else none
  | .array _ [some element] => if element.isPlainMarker marker then some .array else none
  | _ => none

/-- Where in an argument list markers of a kind stand. -/
def markerPositions (marker : String) (kind : MarkerKind) (arguments : List Expression) :
    List Nat :=
  (List.range arguments.length).filter fun i =>
    arguments[i]?.any fun argument => argument.markerKind? marker == some kind

/-- Whether some argument is a plain marker. -/
def hasPlainMarker (marker : String) (arguments : List Expression) : Bool :=
  arguments.any (·.isPlainMarker marker)

/-- The first parameter that is a marker. -/
def markerParam? (marker : String) (params : List Identifier) : Option Nat :=
  params.findIdx? (·.isMarker marker)

/-- What becomes of a call, by the markers among its arguments. -/
inductive CallPlan where
  /-- One or two plain markers: wait for the result. -/
  | await (first : Nat) (second : Option Nat)
  | future (index : Nat)
  | promise (index : Nat)
  | array (index : Nat)
  /-- More than two plain markers. -/
  | tooMany (count : Nat)
deriving DecidableEq

/-- The plan for plain markers at the given positions. -/
def CallPlan.ofPlain? : List Nat → Option CallPlan
  | [] => none
  | [first] => some (.await first none)
  | [first, second] => some (.await first (some second))
  | positions => some (.tooMany positions.length)

/-- The plan for a call with the given arguments, if it has markers. -/
def planCall? (marker : String) (arguments : List Expression) : Option CallPlan :=
  (CallPlan.ofPlain? (markerPositions marker .plain arguments)).or <|
    ((markerPositions marker .future arguments).head?.map .future).or <|
    ((markerPositions marker .promise arguments).head?.map .promise).or <|
    (markerPositions marker .array arguments).head?.map .array

end AsyncMarkers
