import AsyncMarkers.Tree.Basic

/-!
# Names of operators and keywords

The names under which operators, declaration keywords and comment kinds stand in the JSON form of a
tree, and how they are looked up.
-/

namespace AsyncMarkers

/-- The first of `values` that goes by the given name. -/
def byName? (values : List α) (nameOf : α → String) (name : String) : Option α :=
  values.find? fun value => nameOf value == name

namespace CommentKind

/-- Both kinds. -/
def all : List CommentKind := [.line, .block]

/-- The name of a kind. -/
def name : CommentKind → String
  | .line => "Line"
  | .block => "Block"

/-- The kind of a name, if there is one. -/
def ofName? : String → Option CommentKind := byName? all name

end CommentKind

namespace VariableKind

/-- All kinds. -/
def all : List VariableKind := [.var, .let, .const]

/-- The name of a kind. -/
def name : VariableKind → String
  | .var => "Var"
  | .let => "Let"
  | .const => "Const"

/-- The kind of a name, if there is one. -/
def ofName? : String → Option VariableKind := byName? all name

end VariableKind

namespace UnaryOperator

/-- All operators. -/
def all : List UnaryOperator := [.not, .void, .minus, .plus, .bitNot, .typeOf, .delete]

/-- The name of an operator. -/
def name : UnaryOperator → String
  | .not => "Not"
  | .void => "Void"
  | .minus => "Minus"
  | .plus => "Plus"
  | .bitNot => "BitNot"
  | .typeOf => "TypeOf"
  | .delete => "Delete"

/-- The operator of a name, if there is one. -/
def ofName? : String → Option UnaryOperator := byName? all name

end UnaryOperator

namespace BinaryOperator

/-- All operators. -/
def all : List BinaryOperator :=
  [.add, .subtract, .multiply, .divide, .modulo, .equal, .notEqual, .strictEqual, .strictNotEqual,
    .lessThan, .lessEqual, .greaterThan, .greaterEqual, .isIn, .instanceOf]

/-- The name of an operator. -/
def name : BinaryOperator → String
  | .add => "Add"
  | .subtract => "Subtract"
  | .multiply => "Multiply"
  | .divide => "Divide"
  | .modulo => "Modulo"
  | .equal => "Equal"
  | .notEqual => "NotEqual"
  | .strictEqual => "StrictEqual"
  | .strictNotEqual => "StrictNotEqual"
  | .lessThan => "LessThan"
  | .lessEqual => "LessEqual"
  | .greaterThan => "GreaterThan"
  | .greaterEqual => "GreaterEqual"
  | .isIn => "In"
  | .instanceOf => "InstanceOf"

/-- The operator of a name, if there is one. -/
def ofName? : String → Option BinaryOperator := byName? all name

end BinaryOperator

namespace LogicalOperator

/-- Both operators. -/
def all : List LogicalOperator := [.and, .or]

/-- The name of an operator. -/
def name : LogicalOperator → String
  | .and => "And"
  | .or => "Or"

/-- The operator of a name, if there is one. -/
def ofName? : String → Option LogicalOperator := byName? all name

end LogicalOperator

namespace AssignmentOperator

/-- All operators. -/
def all : List AssignmentOperator := [.assign, .addAssign, .subtractAssign]

/-- The name of an operator. -/
def name : AssignmentOperator → String
  | .assign => "Assign"
  | .addAssign => "AddAssign"
  | .subtractAssign => "SubtractAssign"

/-- The operator of a name, if there is one. -/
def ofName? : String → Option AssignmentOperator := byName? all name

end AssignmentOperator

end AsyncMarkers
