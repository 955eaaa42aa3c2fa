import AsyncMarkers.Json.Value
import AsyncMarkers.Tree.Names

/-!
# Trees as JSON

The JSON form of a tree. Every field of a node is written, `null` standing for an absent part, save
that a name says that it is done only if it is, and a statement lists its leading comments only if
it has some.
-/

namespace AsyncMarkers

open Json

/-- A position as a value. -/
def Position.encode (p : Position) : Json :=
  record [("line", nat p.line.toNat), ("column", nat p.column.toNat)]

/-- A span as a value. -/
def Span.encode (s : Span) : Json := record [("start", s.start.encode), ("end", s.stop.encode)]

/-- A comment as a value. -/
def Comment.encode (c : Comment) : Json :=
  record [("kind", Json.text c.kind.name), ("value", Json.text c.text)]

/-- A name as a value. -/
def Identifier.encode (id : Identifier) : Json :=
  record (("name", text id.name) :: if id.done then [("done", .bool true)] else [])

/-- A literal as a value. -/
def Literal.encode : Literal → Json
  | .null => text "Null"
  | .boolean b => tagged "Boolean" (.bool b)
  | .number x => tagged "Number" (double x)
  | .string s => tagged "String" (text s)

/-- An expression, from its case and its span. -/
def encodeExpression (kind : Json) (span : Span) : Json :=
  record [("kind", kind), ("span", span.encode)]

/-- A statement, from its case, its span and its comments. -/
def encodeStatement (kind : Json) (info : StatementInfo) : Json :=
  record ([("kind", kind), ("span", info.span.encode)] ++
    match info.leadingComments with
    | [] => []
    | comments => [("leading_comments", list Comment.encode comments)])

/-- A function, from its head and its body. -/
def encodeFunction (head : FunctionHead) (body : Json) : Json :=
  record [("id", orNull Identifier.encode head.id), ("params", list Identifier.encode head.params),
    ("body", body), ("span", head.span.encode)]

mutual

/-- An expression as a value; both forms of member access share a case. -/
def Expression.encode : Expression → Json
  | .identifier s id => encodeExpression (tagged "Identifier" id.encode) s
  | .literal s value => encodeExpression (tagged "Literal" value.encode) s
  | .this s => encodeExpression (text "This") s
  | .array s elements => encodeExpression (tagged "Array" (.array (encodeElements elements))) s
  | .object s properties =>
    encodeExpression (tagged "Object" (.array (encodeProperties properties))) s
  | .function s f => encodeExpression (tagged "Function" f.encode) s
  | .arrow s f => encodeExpression (tagged "Arrow" f.encode) s
  | .unary s op argument =>
    encodeExpression (tagged "Unary"
      (record [("operator", text op.name), ("argument", argument.encode)])) s
  | .binary s op left right =>
    encodeExpression (tagged "Binary"
      (record [("operator", text op.name), ("left", left.encode), ("right", right.encode)])) s
  | .logical s op left right =>
    encodeExpression (tagged "Logical"
      (record [("operator", text op.name), ("left", left.encode), ("right", right.encode)])) s
  | .assignment s op target value =>
    encodeExpression (tagged "Assignment"
      (record [("operator", text op.name), ("target", target.encode), ("value", value.encode)])) s
  | .conditional s test consequent alternate =>
    encodeExpression (tagged "Conditional"
      (record [("test", test.encode), ("consequent", consequent.encode),
        ("alternate", alternate.encode)])) s
  | .member s base property =>
    encodeExpression (tagged "Member"
      (record [("object", base.encode), ("property", tagged "Identifier" property.encode)])) s
  | .index s base property =>
    encodeExpression (tagged "Member"
      (record [("object", base.encode), ("property", tagged "Computed" property.encode)])) s
  | .call s callee arguments =>
    encodeExpression (tagged "Call"
      (record [("callee", callee.encode), ("arguments", .array (encodeExpressions arguments))])) s
  | .construct s callee arguments =>
    encodeExpression (tagged "New"
      (record [("callee", callee.encode), ("arguments", .array (encodeExpressions arguments))])) s
  | .sequence s items => encodeExpression (tagged "Sequence" (.array (encodeExpressions items))) s
  | .spread s argument => encodeExpression (tagged "Spread" argument.encode) s

/-- Expressions in a row. -/
def encodeExpressions : List Expression → List Json
  | [] => []
  | e :: es => e.encode :: encodeExpressions es

/-- An expression that may be absent. -/
def encodeOptional : Option Expression → Json
  | none => .null
  | some e => e.encode

/-- The elements of an array, with null for a hole. -/
def encodeElements : List (Option Expression) → List Json
  | [] => []
  | e :: es => encodeOptional e :: encodeElements es

/-- A property as a value. -/
def Property.encode : Property → Json
  | .named key value => record [("key", tagged "Identifier" key.encode), ("value", value.encode)]
  | .literal key value => record [("key", tagged "Literal" key.encode), ("value", value.encode)]
  | .computed key value => record [("key", tagged "Computed" key.encode), ("value", value.encode)]

/-- Properties in a row. -/
def encodeProperties : List Property → List Json
  | [] => []
  | p :: ps => p.encode :: encodeProperties ps

/-- A function as a value. -/
def Function.encode : Function → Json
  | .block head statements =>
    encodeFunction head (tagged "Block" (.array (encodeStatements statements)))
  | .value head result => encodeFunction head (tagged "Expression" result.encode)

/-- A statement as a value. -/
def Statement.encode : Statement → Json
  | .expression i e => encodeStatement (tagged "Expression" e.encode) i
  | .variables i kind declarators =>
    encodeStatement (tagged "VariableDeclaration"
      (record [("kind", text kind.name),
        ("declarations", .array (encodeDeclarators declarators))])) i
  | .function i f => encodeStatement (tagged "FunctionDeclaration" f.encode) i
  | .return i result => encodeStatement (tagged "Return" (encodeOptional result)) i
  | .ifElse i test consequent alternate =>
    encodeStatement (tagged "If"
      (record [("test", test.encode), ("consequent", consequent.encode),
        ("alternate", encodeBranch alternate)])) i
  | .while i test body =>
    encodeStatement (tagged "While" (record [("test", test.encode), ("body", body.encode)])) i
  | .block i statements => encodeStatement (tagged "Block" (.array (encodeStatements statements))) i
  | .throw i thrown => encodeStatement (tagged "Throw" thrown.encode) i
  | .empty i => encodeStatement (text "Empty") i

/-- A branch that may be absent. -/
def encodeBranch : Option Statement → Json
  | none => .null
  | some s => s.encode

/-- Statements in a row. -/
def encodeStatements : List Statement → List Json
  | [] => []
  | s :: ss => s.encode :: encodeStatements ss

/-- A declarator as a value. -/
def Declarator.encode : Declarator → Json
  | .mk id init => record [("id", id.encode), ("init", encodeOptional init)]

/-- Declarators in a row. -/
def encodeDeclarators : List Declarator → List Json
  | [] => []
  | d :: ds => d.encode :: encodeDeclarators ds

end

/-- A program as a value. -/
def Program.encode (p : Program) : Json :=
  record [("body", .array (encodeStatements p.body)), ("span", p.span.encode)]

end AsyncMarkers
