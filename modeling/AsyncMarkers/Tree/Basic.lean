import AsyncMarkers.Number.Double

/-!
# Syntax trees

The tree of a program of the scripting language that markers are written in: statements,
expressions and functions, each with the span of source text that it was parsed from. A node that no
source text stands behind carries the *synthetic* span, all zeros.

Spans and leading comments belong to the node itself, so they are arguments of its constructor, and
`Expression.span`, `Statement.info` and `Function.head` read them off. A member access with a name
(`a.b`) and one with a computed property (`a[b]`) are two constructors, as are a function with a
block for its body and one that consists of a single expression.
-/

namespace AsyncMarkers

/-! ### Spans and comments -/

/-- A place in a source text. -/
structure Position where
  line : UInt32 := 0
  column : UInt32 := 0
deriving DecidableEq, Inhabited

/-- A stretch of source text. -/
structure Span where
  start : Position := {}
  stop : Position := {}
deriving DecidableEq, Inhabited

/-- The span of a node that no source text stands behind. -/
def Span.synthetic : Span := {}

/-- A span within one line. -/
def Span.at (line column endColumn : UInt32) : Span := ⟨⟨line, column⟩, ⟨line, endColumn⟩⟩

/-- Whether a comment runs to the end of its line or to a closing mark. -/
inductive CommentKind where
  | line
  | block
deriving DecidableEq

/-- A comment, without its marks. -/
structure Comment where
  kind : CommentKind
  text : String
deriving DecidableEq

/-! ### Leaves -/

/-- A name in binding or reference position. It is `done` once a transformation has consumed or
produced it; a name that is done is never taken for a marker. -/
structure Identifier where
  name : String
  done : Bool := false
deriving DecidableEq

/-- A literal value. -/
inductive Literal where
  | null
  | boolean (value : Bool)
  | number (value : Double)
  | string (value : String)
deriving DecidableEq

/-- The keyword of a variable declaration. -/
inductive VariableKind where
  | var
  | «let»
  | const
deriving DecidableEq

/-- The operators with one operand. -/
inductive UnaryOperator where
  | not
  | void
  | minus
  | plus
  | bitNot
  | typeOf
  | delete
deriving DecidableEq

/-- The operators with two operands that are both evaluated. -/
inductive BinaryOperator where
  | add
  | subtract
  | multiply
  | divide
  | modulo
  | equal
  | notEqual
  | strictEqual
  | strictNotEqual
  | lessThan
  | lessEqual
  | greaterThan
  | greaterEqual
  | isIn
  | instanceOf
deriving DecidableEq

/-- The operators that may leave their second operand unevaluated. -/
inductive LogicalOperator where
  | and
  | or
deriving DecidableEq

/-- The operators that write to their first operand. -/
inductive AssignmentOperator where
  | assign
  | addAssign
  | subtractAssign
deriving DecidableEq

/-! ### Trees -/

/-- What a statement carries besides its parts. -/
structure StatementInfo where
  span : Span := .synthetic
  leadingComments : List Comment := []
deriving DecidableEq

/-- What a function carries besides its body. -/
structure FunctionHead where
  id : Option Identifier
  params : List Identifier
  span : Span := .synthetic
deriving DecidableEq

mutual

/-- An expression. -/
inductive Expression where
  | identifier (span : Span) (id : Identifier)
  | literal (span : Span) (value : Literal)
  | this (span : Span)
  /-- An array literal; an absent element is a hole. -/
  | array (span : Span) (elements : List (Option Expression))
  | object (span : Span) (properties : List Property)
  | function (span : Span) (function : Function)
  | arrow (span : Span) (function : Function)
  | unary (span : Span) (operator : UnaryOperator) (argument : Expression)
  | binary (span : Span) (operator : BinaryOperator) (left right : Expression)
  | logical (span : Span) (operator : LogicalOperator) (left right : Expression)
  | assignment (span : Span) (operator : AssignmentOperator) (target value : Expression)
  | conditional (span : Span) (test consequent alternate : Expression)
  /-- `object.property` -/
  | member (span : Span) (object : Expression) (property : Identifier)
  /-- `object[property]` -/
  | index (span : Span) (object property : Expression)
  | call (span : Span) (callee : Expression) (arguments : List Expression)
  /-- `new callee(arguments)` -/
  | construct (span : Span) (callee : Expression) (arguments : List Expression)
  | sequence (span : Span) (items : List Expression)
  | spread (span : Span) (argument : Expression)

/-- A property of an object literal, by the form of its key. -/
inductive Property where
  | named (key : Identifier) (value : Expression)
  | literal (key : Literal) (value : Expression)
  | computed (key value : Expression)

/-- A function, by the form of its body. -/
inductive Function where
  | block (head : FunctionHead) (statements : List Statement)
  /-- A function whose body is the expression it returns. -/
  | value (head : FunctionHead) (result : Expression)

/-- A statement. -/
inductive Statement where
  | expression (info : StatementInfo) (expression : Expression)
  | variables (info : StatementInfo) (kind : VariableKind) (declarators : List Declarator)
  | function (info : StatementInfo) (function : Function)
  | «return» (info : StatementInfo) (result : Option Expression)
  | ifElse (info : StatementInfo) (test : Expression) (consequent : Statement)
      (alternate : Option Statement)
  | while (info : StatementInfo) (test : Expression) (body : Statement)
  | block (info : StatementInfo) (statements : List Statement)
  | throw (info : StatementInfo) (thrown : Expression)
  | empty (info : StatementInfo)

/-- One variable of a declaration. -/
inductive Declarator where
  | mk (id : Identifier) (init : Option Expression)

end

/-- A whole source file. -/
structure Program where
  body : List Statement := []
  span : Span := .synthetic

/-! ### What nodes carry -/

/-- The span of an expression. -/
def Expression.span : Expression → Span
  | .identifier s _ | .literal s _ | .this s | .array s _ | .object s _ | .function s _
  | .arrow s _ | .unary s _ _ | .binary s _ _ _ | .logical s _ _ _ | .assignment s _ _ _
  | .conditional s _ _ _ | .member s _ _ | .index s _ _ | .call s _ _ | .construct s _ _
  | .sequence s _ | .spread s _ => s

/-- The same expression with another span. -/
def Expression.withSpan (s : Span) : Expression → Expression
  | .identifier _ id => .identifier s id
  | .literal _ value => .literal s value
  | .this _ => .this s
  | .array _ elements => .array s elements
  | .object _ properties => .object s properties
  | .function _ f => .function s f
  | .arrow _ f => .arrow s f
  | .unary _ op argument => .unary s op argument
  | .binary _ op left right => .binary s op left right
  | .logical _ op left right => .logical s op left right
  | .assignment _ op target value => .assignment s op target value
  | .conditional _ test consequent alternate => .conditional s test consequent alternate
  | .member _ base property => .member s base property
  | .index _ base property => .index s base property
  | .call _ callee arguments => .call s callee arguments
  | .construct _ callee arguments => .construct s callee arguments
  | .sequence _ items => .sequence s items
  | .spread _ argument => .spread s argument

/-- The span and the comments of a statement. -/
def Statement.info : Statement → StatementInfo
  | .expression i _ | .variables i _ _ | .function i _ | .return i _ | .ifElse i _ _ _
  | .while i _ _ | .block i _ | .throw i _ | .empty i => i

/-- The same statement with another span and other comments. -/
def Statement.withInfo (i : StatementInfo) : Statement → Statement
  | .expression _ e => .expression i e
  | .variables _ kind declarators => .variables i kind declarators
  | .function _ f => .function i f
  | .return _ result => .return i result
  | .ifElse _ test consequent alternate => .ifElse i test consequent alternate
  | .while _ test body => .while i test body
  | .block _ statements => .block i statements
  | .throw _ thrown => .throw i thrown
  | .empty _ => .empty i

/-- The same statement with another span. -/
def Statement.withSpan (s : Span) (statement : Statement) : Statement :=
  statement.withInfo { statement.info with span := s }

/-- The same statement with other leading comments. -/
def Statement.withComments (comments : List Comment) (statement : Statement) : Statement :=
  statement.withInfo { statement.info with leadingComments := comments }

/-- The name, the parameters and the span of a function. -/
def Function.head : Function → FunctionHead
  | .block head _ | .value head _ => head

/-- The same function with another head. -/
def Function.withHead (head : FunctionHead) : Function → Function
  | .block _ statements => .block head statements
  | .value _ result => .value head result

/-- The same function with another span. -/
def Function.withSpan (s : Span) (f : Function) : Function := f.withHead { f.head with span := s }

end AsyncMarkers
