import AsyncMarkers.Tree.Synthetic

/-!
# The support binding

Every transformed file declares one variable, bound to an export of the support module, and the
calls that a transformation makes up go through members of it:

* `await` waits for a future,
* `future_i_n` turns a function that takes a callback at position `i` among `n` other arguments into
  one that returns a future,
* `array` gives an array its asynchronous methods.
-/

namespace AsyncMarkers

/-- The variable that is bound to the support module. -/
structure Binding where
  name : String
deriving DecidableEq

namespace Binding

/-- A reference to the variable; it is done, so it is never taken for a marker. -/
def identifier (b : Binding) : Identifier := ⟨b.name, true⟩

/-- A member of the support module. -/
def member (b : Binding) (property : String) : Expression :=
  Synthetic.member (Synthetic.reference b.identifier) property

/-- The adapter for a callback at position `index` among `remaining` other arguments. -/
def future (b : Binding) (index remaining : Nat) : Expression :=
  b.member ("future_" ++ Nat.repr index ++ "_" ++ Nat.repr remaining)

/-- The function that waits for a future. -/
def await (b : Binding) : Expression := b.member "await"

/-- The adapter for arrays. -/
def array (b : Binding) : Expression := b.member "array"

/-- The declaration of the variable. -/
def declaration (b : Binding) (moduleName exportName : String) : Statement :=
  Synthetic.declare .var b.name
    (some (Synthetic.member
      (Synthetic.call (Synthetic.name "require") [Synthetic.string moduleName]) exportName))

/-- Whether a statement is the declaration of the variable, comments and its own span apart. The
spans inside it and the marks on its names count. -/
def isDeclaredBy (b : Binding) (moduleName exportName : String) : Statement → Bool
  | .variables _ .var [.mk id (some (.member outer (.call middle (.identifier inner callee)
      [.literal leaf (.string loaded)]) property))] =>
    id == ⟨b.name, false⟩ && outer == .synthetic && middle == .synthetic && inner == .synthetic &&
      leaf == .synthetic && callee == ⟨"require", false⟩ && loaded == moduleName &&
      property == ⟨exportName, false⟩
  | _ => false

end Binding

end AsyncMarkers
