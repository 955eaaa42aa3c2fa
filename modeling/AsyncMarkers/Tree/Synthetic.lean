import AsyncMarkers.Tree.Basic

/-!
# Synthetic nodes

The nodes that a transformation makes up: each carries the synthetic span, names that are not done
unless said otherwise, and no comments.
-/

namespace AsyncMarkers.Synthetic

/-! ### Expressions -/

/-- A reference to an identifier. -/
def reference (id : Identifier) : Expression := .identifier .synthetic id

/-- A reference to a name. -/
def name (s : String) : Expression := reference ⟨s, false⟩

/-- The literal `null`. -/
def null : Expression := .literal .synthetic .null

/-- A number literal. -/
def number (x : Double) : Expression := .literal .synthetic (.number x)

/-- A string literal. -/
def string (s : String) : Expression := .literal .synthetic (.string s)

/-- A truth value. -/
def boolean (b : Bool) : Expression := .literal .synthetic (.boolean b)

/-- `this` -/
def this : Expression := .this .synthetic

/-- An operator in front of its argument. -/
def unary (operator : UnaryOperator) (argument : Expression) : Expression :=
  .unary .synthetic operator argument

/-- An operator between its arguments. -/
def binary (operator : BinaryOperator) (left right : Expression) : Expression :=
  .binary .synthetic operator left right

/-- An array literal without holes. -/
def array (elements : List Expression) : Expression := .array .synthetic (elements.map some)

/-- `object.property` -/
def member (object : Expression) (property : String) : Expression :=
  .member .synthetic object ⟨property, false⟩

/-- `object[property]` -/
def index (object property : Expression) : Expression := .index .synthetic object property

/-- `callee(arguments)` -/
def call (callee : Expression) (arguments : List Expression) : Expression :=
  .call .synthetic callee arguments

/-- `new callee(arguments)` -/
def construct (callee : Expression) (arguments : List Expression) : Expression :=
  .construct .synthetic callee arguments

/-- An arrow function. -/
def arrow (f : Function) : Expression := .arrow .synthetic f

/-- A function expression. -/
def function (f : Function) : Expression := .function .synthetic f

/-! ### Statements -/

/-- An expression as a statement. -/
def statement (e : Expression) : Statement := .expression {} e

/-- `return result;` -/
def returning (result : Expression) : Statement := .return {} (some result)

/-- The declaration of one variable. -/
def declare (kind : VariableKind) (name : String) (init : Option Expression) : Statement :=
  .variables {} kind [.mk ⟨name, false⟩ init]

/-- The declaration of a function. -/
def declareFunction (f : Function) : Statement := .function {} f

/-- A block. -/
def block (statements : List Statement) : Statement := .block {} statements

end AsyncMarkers.Synthetic
