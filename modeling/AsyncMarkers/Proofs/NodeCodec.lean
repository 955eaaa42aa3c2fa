import AsyncMarkers.Proofs.JsonValue
import AsyncMarkers.Tree.Encode

/-!
# Leaves and nodes as JSON

A node is an object with its kind, and with a span and other things that do not depend on what it is
made of. The span alone has two levels more, so no node can be decoded with less than three
(`Expression.decode?_eq_none`); with three or more, what the node carries is decoded without fail,
and all that is left is its kind (`Expression.decode?_tagged`, `Statement.decode?_tagged`,
`Function.decode?_encodeFunction`).
-/

namespace AsyncMarkers

open Json

/-! ### Leaves -/

/-- The name of a kind or of an operator leads back to it, here and below. -/
theorem CommentKind.ofName?_name (k : CommentKind) : ofName? k.name = some k := by
  cases k <;> rfl

theorem VariableKind.ofName?_name (k : VariableKind) : ofName? k.name = some k := by
  cases k <;> rfl

theorem UnaryOperator.ofName?_name (op : UnaryOperator) : ofName? op.name = some op := by
  cases op <;> rfl

theorem BinaryOperator.ofName?_name (op : BinaryOperator) : ofName? op.name = some op := by
  cases op <;> rfl

theorem LogicalOperator.ofName?_name (op : LogicalOperator) : ofName? op.name = some op := by
  cases op <;> rfl

theorem AssignmentOperator.ofName?_name (op : AssignmentOperator) : ofName? op.name = some op := by
  cases op <;> rfl

/-- A position comes back from one level. -/
theorem Position.decode?_encode (p : Position) (n : Nat) :
    Position.decode? (n + 1) p.encode = some p := by
  simp [encode, decode?, List.lookup_cons]

/-- A span comes back from two levels, its own and that of its positions. -/
theorem Span.decode?_encode (s : Span) (n : Nat) : Span.decode? (n + 2) s.encode = some s := by
  simp [encode, decode?, List.lookup_cons, Position.decode?_encode]

/-- A comment comes back from one level. -/
theorem Comment.decode?_encode (c : Comment) (n : Nat) :
    Comment.decode? (n + 1) c.encode = some c := by
  simp [encode, decode?, List.lookup_cons, CommentKind.ofName?_name]

/-- A name that is not done does not say so, and is decoded as not done. -/
theorem Identifier.decode?_encode (id : Identifier) (n : Nat) :
    Identifier.decode? (n + 1) id.encode = some id := by
  obtain ⟨name, _ | _⟩ := id <;>
    simp [encode, decode?, List.lookup_cons, bool?]

/-- One level is also what it takes. -/
theorem Identifier.decode?_eq_some_iff (id : Identifier) {n : Nat} :
    Identifier.decode? n id.encode = some id ↔ 0 < n := by
  cases n with
  | zero => simp [decode?]
  | succ n => simp [decode?_encode]

/-- A span is two levels deep. -/
theorem Span.depth_encode (s : Span) : s.encode.depth = 2 := by
  simp [Span.encode, Position.encode, record, depth, depthOfMembers]

/-- A comment is one level deep. -/
theorem Comment.depth_encode (c : Comment) : c.encode.depth = 1 := by
  simp [Comment.encode, record, depth, depthOfMembers]

@[simp] theorem Identifier.depth_encode (id : Identifier) : id.encode.depth = 1 := by
  obtain ⟨name, _ | _⟩ := id <;> simp [Identifier.encode, record, depth, depthOfMembers]

/-- A name is told from the value that stands for no name. -/
theorem Identifier.encode_ne_null (id : Identifier) : id.encode ≠ .null := by
  simp [Identifier.encode, record]

/-- A number literal is the same after it has been respelled. -/
def Double.Legible (r : Respelling) (x : Double) : Prop :=
  double? (.number (r.number (.double x))) = some x

/-- The number in a literal, if it is one. -/
def Literal.numbers : Literal → List Double
  | .number x => [x]
  | _ => []

/-- A literal comes back exactly if it is no number, or a legible one. -/
theorem Literal.restored (r : Respelling) (v : Literal) :
    Restores r Literal.decode? v.encode v (∀ x ∈ v.numbers, x.Legible r) := by
  intro n
  cases v with
  -- null is the one literal without a payload
  | null => simp [Literal.encode, Literal.decode?, numbers]
  | boolean b =>
    cases n <;>
      simp [Literal.encode, Literal.decode?, bareCase?_tagged_of_ne_null, ofCase?, bool?, numbers]
  | number x =>
    cases n <;>
      simp [Literal.encode, Literal.decode?, bareCase?_tagged_of_ne_null, ofCase?, double, numbers,
        Double.Legible]
  | string s =>
    cases n <;>
      simp [Literal.encode, Literal.decode?, bareCase?_tagged_of_ne_null, ofCase?, numbers]

/-! ### Nodes and what all of them carry -/

/-- Where the kind and the span of an expression are found. -/
theorem slots?_encodeExpression (kind : Json) (span : Span) :
    slots? [.required "kind", .defaulted "span"] (encodeExpression kind span) =
      some [some kind, some span.encode] := rfl

/-- What stands in the slot for the comments of a statement. -/
def commentsSlot : List Comment → Option Json
  | [] => none
  | comments => some (list Comment.encode comments)

/-- Where the kind, the span and the comments of a statement are found. -/
theorem slots?_encodeStatement (kind : Json) (info : StatementInfo) :
    slots? [.required "kind", .defaulted "span", .defaulted "leading_comments"]
        (encodeStatement kind info) =
      some [some kind, some info.span.encode, commentsSlot info.leadingComments] := by
  -- the comments are left out if there are none
  obtain ⟨span, _ | ⟨comment, comments⟩⟩ := info <;> rfl

/-- Where the parts of a function are found. -/
theorem slots?_encodeFunction (head : FunctionHead) (body : Json) :
    slots? [.optional "id", .required "params", .required "body", .defaulted "span"]
        (encodeFunction head body) =
      some [some (orNull Identifier.encode head.id), some (list Identifier.encode head.params),
        some body, some head.span.encode] := rfl

/-- A span comes back from the slot that it stands in. -/
theorem Span.decodeSlot?_encode (s : Span) (n : Nat) :
    Span.decodeSlot? (n + 2) (some s.encode) = some s :=
  Span.decode?_encode s n

/-- With fewer levels, it does not. -/
theorem Span.decodeSlot?_eq_none (s : Span) {n : Nat} (h : n < 2) :
    Span.decodeSlot? n (some s.encode) = none := by
  rcases n with _ | _ | n
  · rfl
  · rfl
  · omega

/-- Three levels are needed for the span of an expression. -/
theorem Expression.decode?_eq_none {n : Nat} (h : n < 3) (kind : Json) (span : Span) :
    Expression.decode? n (encodeExpression kind span) = none := by
  cases n with
  | zero => rw [Expression.decode?]
  | succ n =>
    have h_span := span.decodeSlot?_eq_none (show n < 2 by omega)
    simp [Expression.decode?, slots?_encodeExpression, h_span]

/-- So they are for the span of a statement. -/
theorem Statement.decode?_eq_none {n : Nat} (h : n < 3) (kind : Json) (info : StatementInfo) :
    Statement.decode? n (encodeStatement kind info) = none := by
  cases n with
  | zero => rw [Statement.decode?]
  | succ n =>
    have h_span := info.span.decodeSlot?_eq_none (show n < 2 by omega)
    simp [Statement.decode?, slots?_encodeStatement, h_span]

/-- And so they are for the span of a function. -/
theorem Function.decode?_eq_none {n : Nat} (h : n < 3) (head : FunctionHead) (body : Json) :
    Function.decode? n (encodeFunction head body) = none := by
  cases n with
  | zero => rw [Function.decode?]
  | succ n =>
    rw [Function.decode?, slots?_encodeFunction]
    dsimp only
    -- whatever becomes of the name and the parameters, which are read first, the span is missing
    rw [head.span.decodeSlot?_eq_none (show n < 2 by omega)]
    exact Option.bind_eq_none_iff.2 fun _ _ => Option.bind_eq_none_iff.2 fun _ _ => rfl

/-- Behind its span, an expression with a payload is read by its case. -/
theorem Expression.decode?_tagged {name : String} (h : name ≠ "This") (n : Nat) (payload : Json)
    (span : Span) :
    Expression.decode? (n + 3) (encodeExpression (tagged name payload) span) =
      Expression.ofCase? span (n + 2) name payload := by
  simp only [Expression.decode?, slots?_encodeExpression, Span.decodeSlot?_encode,
    Option.bind_eq_bind, Option.bind_some]
  split
  · -- the one case without a payload has another name
    next h_case => exact absurd (bareCase?_tagged h_case).symm h
  · rfl

/-- The case without a payload is read as it is. -/
theorem Expression.decode?_this (n : Nat) (span : Span) :
    Expression.decode? (n + 3) (encodeExpression (Json.text "This") span) = some (.this span) := by
  simp [Expression.decode?, slots?_encodeExpression, Span.decodeSlot?_encode]

/-- Behind its span and its comments, a statement with a payload is read by its case. -/
theorem Statement.decode?_tagged {name : String} (h : name ≠ "Empty") (n : Nat) (payload : Json)
    (info : StatementInfo) :
    Statement.decode? (n + 3) (encodeStatement (tagged name payload) info) =
      Statement.ofCase? info (n + 2) name payload := by
  have h_comments (comments : List Comment) :=
    decodeList?_list (fun c => c.decode?_encode n) comments
  obtain ⟨span, _ | ⟨comment, comments⟩⟩ := info <;>
    simp only [Statement.decode?, slots?_encodeStatement, commentsSlot, Span.decodeSlot?_encode,
      Option.bind_eq_bind, Option.bind_some, h_comments] <;> split
  · next h_case => exact absurd (bareCase?_tagged h_case).symm h
  · rfl
  · next h_case => exact absurd (bareCase?_tagged h_case).symm h
  · rfl

/-- The case without a payload is read as it is. -/
theorem Statement.decode?_empty (n : Nat) (info : StatementInfo) :
    Statement.decode? (n + 3) (encodeStatement (Json.text "Empty") info) = some (.empty info) := by
  have h_comments (comments : List Comment) :=
    decodeList?_list (fun c => c.decode?_encode n) comments
  obtain ⟨span, _ | ⟨comment, comments⟩⟩ := info <;>
    simp [Statement.decode?, slots?_encodeStatement, commentsSlot, Span.decodeSlot?_encode,
      h_comments]

/-- Behind its head, a function is read by the form of its body. -/
theorem Function.decode?_encodeFunction (n : Nat) (head : FunctionHead) (body : Json) :
    Function.decode? (n + 3) (encodeFunction head body) =
      match n + 2, body.variant? with
      | m + 1, some ("Block", some statements) =>
        match m with
        | 0 => none
        | k + 1 => do return .block head (← (← statements.items?).mapM (Statement.decode? k))
      | m + 1, some ("Expression", some result) => (Expression.decode? m result).map (.value head)
      | _, _ => none := by
  have h_params := decodeList?_list (fun c => c.decode?_encode n) head.params
  -- a function may have no name, which is written down as such
  have h_id : option? (Identifier.decode? (n + 2)) (orNull Identifier.encode head.id) =
      some head.id := by
    cases head.id with
    | none => rfl
    | some id => rw [orNull, option?_of_ne_null id.encode_ne_null, id.decode?_encode (n + 1)]; rfl
  rw [Function.decode?, slots?_encodeFunction]
  dsimp only [Option.getD_some]
  rw [h_id, h_params, Span.decodeSlot?_encode]
  rfl

/-- An expression is three levels deep at least, and one level deeper than its kind. -/
theorem depth_encodeExpression_le {kind : Json} {span : Span} {n : Nat} :
    (encodeExpression kind span).depth ≤ n ↔ 3 ≤ n ∧ kind.depth < n := by
  cases n with
  | zero => simp [encodeExpression]
  | succ n =>
    simp [encodeExpression, Span.depth_encode]
    omega

/-- A statement is three levels deep at least, and one level deeper than its kind. -/
theorem depth_encodeStatement_le {kind : Json} {info : StatementInfo} {n : Nat} :
    (encodeStatement kind info).depth ≤ n ↔ 3 ≤ n ∧ kind.depth < n := by
  -- comments are no deeper than a span
  have h_comments (comments : List Comment) : (list Comment.encode comments).depth ≤ 2 :=
    depth_list_le (fun c => Nat.le_of_eq c.depth_encode) comments
  cases n with
  | zero => simp [encodeStatement]
  | succ n =>
    obtain ⟨span, _ | ⟨comment, comments⟩⟩ := info
    · simp [encodeStatement, Span.depth_encode]
      omega
    · have h_comments := h_comments (comment :: comments)
      simp [encodeStatement, Span.depth_encode]
      omega

/-- A function is three levels deep at least, and one level deeper than its body. -/
theorem depth_encodeFunction_le {head : FunctionHead} {body : Json} {n : Nat} :
    (encodeFunction head body).depth ≤ n ↔ 3 ≤ n ∧ body.depth < n := by
  -- neither the name nor the parameters are deeper than a span
  have h_id : (orNull Identifier.encode head.id).depth ≤ 1 := by
    cases head.id with
    | none => simp [orNull]
    | some id => simp [orNull]
  have h_params : (list Identifier.encode head.params).depth ≤ 2 :=
    depth_list_le (fun id => Nat.le_of_eq id.depth_encode) head.params
  cases n with
  | zero => simp [encodeFunction]
  | succ n =>
    simp [encodeFunction, Span.depth_encode]
    omega

/-! ### Encoded lists -/

/-- A list is encoded by encoding its members, here and below. -/
theorem encodeExpressions_eq (es : List Expression) :
    encodeExpressions es = es.map Expression.encode := by
  induction es with
  | nil => rfl
  | cons e es ih => rw [encodeExpressions, ih, List.map_cons]

/-- An expression that may be missing is encoded as itself or as nothing. -/
theorem encodeOptional_eq (e : Option Expression) :
    encodeOptional e = orNull Expression.encode e := by
  cases e <;> rfl

theorem encodeElements_eq (es : List (Option Expression)) :
    encodeElements es = es.map encodeOptional := by
  induction es with
  | nil => rfl
  | cons e es ih => rw [encodeElements, ih, List.map_cons]

theorem encodeProperties_eq (ps : List Property) :
    encodeProperties ps = ps.map Property.encode := by
  induction ps with
  | nil => rfl
  | cons p ps ih => rw [encodeProperties, ih, List.map_cons]

/-- So is a branch that may be missing. -/
theorem encodeBranch_eq (s : Option Statement) : encodeBranch s = orNull Statement.encode s := by
  cases s <;> rfl

theorem encodeStatements_eq (ss : List Statement) :
    encodeStatements ss = ss.map Statement.encode := by
  induction ss with
  | nil => rfl
  | cons s ss ih => rw [encodeStatements, ih, List.map_cons]

theorem encodeDeclarators_eq (ds : List Declarator) :
    encodeDeclarators ds = ds.map Declarator.encode := by
  induction ds with
  | nil => rfl
  | cons d ds ih => rw [encodeDeclarators, ih, List.map_cons]

/-- An expression is told from the value that stands for none. -/
theorem Expression.encode_ne_null (e : Expression) : e.encode ≠ .null := by
  cases e <;> simp [Expression.encode, encodeExpression, record]

/-- So is a statement. -/
theorem Statement.encode_ne_null (s : Statement) : s.encode ≠ .null := by
  cases s <;> simp [Statement.encode, encodeStatement, record]

end AsyncMarkers
