import AsyncMarkers.Json.Reader
import AsyncMarkers.Tree.Names

/-!
# Trees from JSON

Decoders for trees. Each takes the number of *levels* that may still be opened: an array or an
object opens one, and what lies inside is decoded with one level less. Parts that are passed over,
because no field has their key, are not opened. A value that is already in memory is decoded with as
many levels as it is deep (`Json.decode?`), a text with at most `Json.maxLevels`
(`Json.decodeText?`).
-/

namespace AsyncMarkers

open Json (Field)

/-- How many levels of nesting a text may have. -/
def Json.maxLevels : Nat := 127

/-- Decodes a value that is in memory. -/
def Json.decode? (decoder : Nat → Json → Option α) (j : Json) : Option α := decoder j.depth j

/-- Decodes a text. -/
def Json.decodeText? (decoder : Nat → Json → Option α) (text : String) : Option α := do
  decoder Json.maxLevels (← Json.read? text)

/-! ### Leaves -/

/-- A list of decoded items. -/
def decodeList? (decoder : Nat → Json → Option α) : Nat → Json → Option (List α)
  | 0, _ => none
  | n + 1, j => do (← j.items?).mapM (decoder n)

/-- Reads a position. -/
def Position.decode? : Nat → Json → Option Position
  | 0, _ => none
  | _ + 1, j =>
    match j.slots? [.required "line", .required "column"] with
    | some [some line, some column] => do return ⟨← line.word32?, ← column.word32?⟩
    | _ => none

/-- Reads a span. -/
def Span.decode? : Nat → Json → Option Span
  | 0, _ => none
  | n + 1, j =>
    match j.slots? [.required "start", .required "end"] with
    | some [some start, some stop] => do
      return ⟨← Position.decode? n start, ← Position.decode? n stop⟩
    | _ => none

/-- A span that may be left out, and is then the synthetic one. -/
def Span.decodeSlot? (n : Nat) : Option Json → Option Span
  | none => some .synthetic
  | some j => Span.decode? n j

/-- Reads a comment. -/
def Comment.decode? : Nat → Json → Option Comment
  | 0, _ => none
  | n + 1, j =>
    match j.slots? [.required "kind", .required "value"] with
    | some [some kind, some value] => do
      return ⟨← CommentKind.ofName? (← kind.bareCase? n), ← value.text?⟩
    | _ => none

/-- Reads a name, which is not done unless it says so. -/
def Identifier.decode? : Nat → Json → Option Identifier
  | 0, _ => none
  | _ + 1, j =>
    match j.slots? [.required "name", .defaulted "done"] with
    | some [some name, none] => do return ⟨← name.text?, false⟩
    | some [some name, some done] => do return ⟨← name.text?, ← done.bool?⟩
    | _ => none

/-- A literal with a payload, by the name of its case. -/
def Literal.ofCase? (name : String) (payload : Json) : Option Literal :=
  match name with
  | "Boolean" => payload.bool?.map .boolean
  | "Number" => payload.double?.map .number
  | "String" => payload.text?.map .string
  | _ => none

/-- Reads a literal; only null has no payload. -/
def Literal.decode? (n : Nat) (j : Json) : Option Literal :=
  match j.bareCase? n with
  | some "Null" => some .null
  | _ =>
    match n, j.variant? with
    | _ + 1, some (name, some payload) => Literal.ofCase? name payload
    | _, _ => none

/-! ### Trees -/

mutual

/-- Reads an expression; of all cases only `This` has no payload. -/
def Expression.decode? : Nat → Json → Option Expression
  | 0, _ => none
  | n + 1, j =>
    match j.slots? [.required "kind", .defaulted "span"] with
    | some [some kind, span] => do
      let span ← Span.decodeSlot? n span
      match kind.bareCase? n with
      | some "This" => some (.this span)
      | _ =>
        match kind.variant? with
        | some (name, some payload) => Expression.ofCase? span n name payload
        | _ => none
    | _ => none

/-- An expression whose case has a payload; the object that holds the payload is still to be
opened. -/
def Expression.ofCase? (span : Span) : Nat → String → Json → Option Expression
  | 0, _, _ => none
  | n + 1, name, payload =>
    match name with
    | "Identifier" => (Identifier.decode? n payload).map (.identifier span)
    | "Literal" => (Literal.decode? n payload).map (.literal span)
    | "Array" =>
      match n with
      | 0 => none
      | m + 1 => do
        return .array span (← (← payload.items?).mapM (Json.option? (Expression.decode? m)))
    | "Object" =>
      match n with
      | 0 => none
      | m + 1 => do return .object span (← (← payload.items?).mapM (Property.decode? m))
    | "Function" => (Function.decode? n payload).map (.function span)
    | "Arrow" => (Function.decode? n payload).map (.arrow span)
    | "Unary" =>
      match n, payload.slots? [.required "operator", .required "argument"] with
      | m + 1, some [some op, some argument] => do
        return .unary span (← UnaryOperator.ofName? (← op.bareCase? m))
          (← Expression.decode? m argument)
      | _, _ => none
    | "Binary" =>
      match n, payload.slots? [.required "operator", .required "left", .required "right"] with
      | m + 1, some [some op, some left, some right] => do
        return .binary span (← BinaryOperator.ofName? (← op.bareCase? m))
          (← Expression.decode? m left) (← Expression.decode? m right)
      | _, _ => none
    | "Logical" =>
      match n, payload.slots? [.required "operator", .required "left", .required "right"] with
      | m + 1, some [some op, some left, some right] => do
        return .logical span (← LogicalOperator.ofName? (← op.bareCase? m))
          (← Expression.decode? m left) (← Expression.decode? m right)
      | _, _ => none
    | "Assignment" =>
      match n, payload.slots? [.required "operator", .required "target", .required "value"] with
      | m + 1, some [some op, some target, some value] => do
        return .assignment span (← AssignmentOperator.ofName? (← op.bareCase? m))
          (← Expression.decode? m target) (← Expression.decode? m value)
      | _, _ => none
    | "Conditional" =>
      match n, payload.slots? [.required "test", .required "consequent", .required "alternate"] with
      | m + 1, some [some test, some consequent, some alternate] => do
        return .conditional span (← Expression.decode? m test) (← Expression.decode? m consequent)
          (← Expression.decode? m alternate)
      | _, _ => none
    | "Member" =>
      match n, payload.slots? [.required "object", .required "property"] with
      | m + 1, some [some base, some property] => do
        let base ← Expression.decode? m base
        -- the case of the property opens a level of its own
        match m, property.variant? with
        | k + 1, some ("Identifier", some name) =>
          (Identifier.decode? k name).map (.member span base)
        | k + 1, some ("Computed", some key) => (Expression.decode? k key).map (.index span base)
        | _, _ => none
      | _, _ => none
    | "Call" =>
      match n, payload.slots? [.required "callee", .required "arguments"] with
      | m + 1, some [some callee, some arguments] => do
        let callee ← Expression.decode? m callee
        match m with
        | 0 => none
        | k + 1 => do
          return .call span callee (← (← arguments.items?).mapM (Expression.decode? k))
      | _, _ => none
    | "New" =>
      match n, payload.slots? [.required "callee", .required "arguments"] with
      | m + 1, some [some callee, some arguments] => do
        let callee ← Expression.decode? m callee
        match m with
        | 0 => none
        | k + 1 => do
          return .construct span callee (← (← arguments.items?).mapM (Expression.decode? k))
      | _, _ => none
    | "Sequence" =>
      match n with
      | 0 => none
      | m + 1 => do return .sequence span (← (← payload.items?).mapM (Expression.decode? m))
    | "Spread" => (Expression.decode? n payload).map (.spread span)
    | _ => none

/-- Reads a property, by the case of its key. -/
def Property.decode? : Nat → Json → Option Property
  | 0, _ => none
  | n + 1, j =>
    match j.slots? [.required "key", .required "value"] with
    | some [some key, some value] => do
      let value ← Expression.decode? n value
      match n, key.variant? with
      | m + 1, some ("Identifier", some name) => do
        return .named (← Identifier.decode? m name) value
      | m + 1, some ("Literal", some literal) => do
        return .literal (← Literal.decode? m literal) value
      | m + 1, some ("Computed", some key) => do
        return .computed (← Expression.decode? m key) value
      | _, _ => none
    | _ => none

/-- Reads a function, by the case of its body. -/
def Function.decode? : Nat → Json → Option Function
  | 0, _ => none
  | n + 1, j =>
    match j.slots? [.optional "id", .required "params", .required "body", .defaulted "span"] with
    | some [id, some params, some body, span] => do
      let head : FunctionHead := {
        id := ← (Json.option? (Identifier.decode? n) (id.getD .null))
        params := ← decodeList? Identifier.decode? n params
        span := ← Span.decodeSlot? n span }
      match n, body.variant? with
      | m + 1, some ("Block", some statements) =>
        match m with
        | 0 => none
        | k + 1 => do return .block head (← (← statements.items?).mapM (Statement.decode? k))
      | m + 1, some ("Expression", some result) => (Expression.decode? m result).map (.value head)
      | _, _ => none
    | _ => none

/-- Reads a statement; of all cases only `Empty` has no payload. -/
def Statement.decode? : Nat → Json → Option Statement
  | 0, _ => none
  | n + 1, j =>
    match j.slots? [.required "kind", .defaulted "span", .defaulted "leading_comments"] with
    | some [some kind, span, comments] => do
      let info : StatementInfo := {
        span := ← Span.decodeSlot? n span
        leadingComments := ← match comments with
          | none => some []
          | some comments => decodeList? Comment.decode? n comments }
      match kind.bareCase? n with
      | some "Empty" => some (.empty info)
      | _ =>
        match kind.variant? with
        | some (name, some payload) => Statement.ofCase? info n name payload
        | _ => none
    | _ => none

/-- A statement whose case has a payload; the object that holds the payload is still to be
opened. -/
def Statement.ofCase? (info : StatementInfo) : Nat → String → Json → Option Statement
  | 0, _, _ => none
  | n + 1, name, payload =>
    match name with
    | "Expression" => (Expression.decode? n payload).map (.expression info)
    | "VariableDeclaration" =>
      match n, payload.slots? [.required "kind", .required "declarations"] with
      | m + 1, some [some kind, some declarators] => do
        let kind ← VariableKind.ofName? (← kind.bareCase? m)
        match m with
        | 0 => none
        | k + 1 => do
          return .variables info kind (← (← declarators.items?).mapM (Declarator.decode? k))
      | _, _ => none
    | "FunctionDeclaration" => (Function.decode? n payload).map (.function info)
    | "Return" => (Json.option? (Expression.decode? n) payload).map (.return info)
    | "If" =>
      match n, payload.slots? [.required "test", .required "consequent", .optional "alternate"] with
      | m + 1, some [some test, some consequent, alternate] => do
        return .ifElse info (← Expression.decode? m test) (← Statement.decode? m consequent)
          (← Json.option? (Statement.decode? m) (alternate.getD .null))
      | _, _ => none
    | "While" =>
      match n, payload.slots? [.required "test", .required "body"] with
      | m + 1, some [some test, some body] => do
        return .while info (← Expression.decode? m test) (← Statement.decode? m body)
      | _, _ => none
    | "Block" =>
      match n with
      | 0 => none
      | m + 1 => do return .block info (← (← payload.items?).mapM (Statement.decode? m))
    | "Throw" => (Expression.decode? n payload).map (.throw info)
    | _ => none

/-- Reads a declarator. -/
def Declarator.decode? : Nat → Json → Option Declarator
  | 0, _ => none
  | n + 1, j =>
    match j.slots? [.required "id", .optional "init"] with
    | some [some id, init] => do
      return .mk (← Identifier.decode? n id)
        (← Json.option? (Expression.decode? n) (init.getD .null))
    | _ => none

end

/-- Reads a program. -/
def Program.decode? : Nat → Json → Option Program
  | 0, _ => none
  | n + 1, j =>
    match j.slots? [.required "body", .defaulted "span"] with
    | some [some body, span] => do
      return ⟨← decodeList? Statement.decode? n body, ← Span.decodeSlot? n span⟩
    | _ => none

end AsyncMarkers
