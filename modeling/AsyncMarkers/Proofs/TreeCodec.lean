import AsyncMarkers.Proofs.NodeCodec
import AsyncMarkers.Proofs.Subtree
import AsyncMarkers.Selection

/-!
# Decoding undoes encoding

What has been encoded can be decoded, and is what it was. This is shown at once for values that have
been respelled: a tree comes back if and only if there are as many levels as its value has, and its
number literals are the same after they have been respelled (`Subtree.restored`,
`Program.restored`).

The induction is over the parts of a node (`Subtree.parts_induction`), with one case for each form
that an expression, a function or a statement can have. Nothing is lost if nothing is respelled, so
decoding undoes encoding (`Json.decode?_undoes_encode`).
-/

namespace AsyncMarkers

open Json

/-! ### Respelled trees -/

/-- The number in the key of a property. -/
def Property.numbers : Property → List Double
  | .literal key _ => key.numbers
  | _ => []

/-- The numbers that stand in a node, and not in its parts. -/
def Subtree.numbers : Subtree → List Double
  | .expression (.literal _ value) => value.numbers
  | .expression (.object _ properties) => properties.flatMap Property.numbers
  | _ => []

/-- The number literals of a program. -/
def Program.numbers (p : Program) : List Double := p.listing.flatMap Subtree.numbers

/-- Every number literal of a tree is the same after it has been respelled. -/
def Subtree.Legible (r : Respelling) (t : Subtree) : Prop :=
  t.Everywhere fun node => ∀ x ∈ node.numbers, x.Legible r

/-- A tree comes back exactly if there are enough levels and its number literals are legible. -/
def Subtree.Restored (r : Respelling) : Subtree → Prop
  | .statement s => Restores r Statement.decode? s.encode s ((Subtree.statement s).Legible r)
  | .function g => Restores r Function.decode? g.encode g ((Subtree.function g).Legible r)
  | .expression e => Restores r Expression.decode? e.encode e ((Subtree.expression e).Legible r)

section Trees

variable {r : Respelling}

/-- A tree is legible if the numbers in its node are, and its parts are. -/
theorem Subtree.legible_iff {t : Subtree} :
    t.Legible r ↔ (∀ x ∈ t.numbers, x.Legible r) ∧ ∀ part ∈ t.parts, part.Legible r :=
  everywhere_iff

/-- Positions are small natural numbers, so a span stays as it is. -/
theorem Span.respell_encode (s : Span) : s.encode.respell r = s.encode := by
  simp [Span.encode, Position.encode, nat, r.number_nat, UInt32.toNat_lt_size]

/-- A comment is made of texts that are there, so it stays as it is. -/
theorem Comment.respell_encode (c : Comment) : c.encode.respell r = c.encode := by
  simp [Comment.encode]

/-- So does a name. -/
theorem Identifier.respell_encode (id : Identifier) : id.encode.respell r = id.encode := by
  obtain ⟨name, _ | _⟩ := id <;> simp [Identifier.encode]

/-- Of an expression, only the kind can change. -/
theorem respell_encodeExpression (kind : Json) (span : Span) :
    (encodeExpression kind span).respell r = encodeExpression (kind.respell r) span := by
  simp [encodeExpression, Span.respell_encode]

/-- Of a statement, only the kind can change. -/
theorem respell_encodeStatement (kind : Json) (info : StatementInfo) :
    (encodeStatement kind info).respell r = encodeStatement (kind.respell r) info := by
  obtain ⟨span, _ | ⟨comment, comments⟩⟩ := info <;>
    simp [encodeStatement, Span.respell_encode, Json.list, Function.comp_def,
      Comment.respell_encode]

/-- Of a function, only the body can change. -/
theorem respell_encodeFunction (head : FunctionHead) (body : Json) :
    (encodeFunction head body).respell r = encodeFunction head (body.respell r) := by
  obtain ⟨_ | id, params, span⟩ := head <;>
    simp [encodeFunction, Span.respell_encode, Json.list, Function.comp_def,
      Identifier.respell_encode, orNull]

/-- A value that is three levels deep and one level deeper than `kind`. -/
theorem restores_of_kind {α : Type} {decode? : Nat → Json → Option α} {j kind : Json} {a : α}
    {legible : Prop} (h_none : ∀ n < 3, decode? n (j.respell r) = none)
    (h_depth : ∀ n, j.depth ≤ n ↔ 3 ≤ n ∧ kind.depth < n)
    (h : ∀ m, decode? (m + 3) (j.respell r) = some a ↔ kind.depth ≤ m + 2 ∧ legible) :
    Restores r decode? j a legible := by
  intro n
  rw [h_depth]
  -- with less than three levels, nothing is read at all
  by_cases h_n : n < 3
  · rw [h_none n h_n]
    simp [Nat.not_le.2 h_n]
  · obtain ⟨m, rfl⟩ : ∃ m, n = m + 3 := ⟨n - 3, by omega⟩
    rw [h m]
    exact and_congr_left fun _ => by omega

/-- An expression comes back if its kind does, with one level less. -/
theorem Expression.restores_of_kind {kind : Json} {span : Span} {e : Expression} {legible : Prop}
    (h : ∀ m, Expression.decode? (m + 3) (encodeExpression (kind.respell r) span) = some e ↔
      kind.depth ≤ m + 2 ∧ legible) :
    Restores r Expression.decode? (encodeExpression kind span) e legible := by
  refine AsyncMarkers.restores_of_kind ?_ (fun n => depth_encodeExpression_le) ?_ <;>
    rw [respell_encodeExpression]
  · exact fun n h_n => Expression.decode?_eq_none h_n _ span
  · exact h

/-- A statement comes back if its kind does, with one level less. -/
theorem Statement.restores_of_kind {kind : Json} {info : StatementInfo} {s : Statement}
    {legible : Prop}
    (h : ∀ m, Statement.decode? (m + 3) (encodeStatement (kind.respell r) info) = some s ↔
      kind.depth ≤ m + 2 ∧ legible) :
    Restores r Statement.decode? (encodeStatement kind info) s legible := by
  refine AsyncMarkers.restores_of_kind ?_ (fun n => depth_encodeStatement_le) ?_ <;>
    rw [respell_encodeStatement]
  · exact fun n h_n => Statement.decode?_eq_none h_n _ info
  · exact h

/-- A function comes back if its body does, with one level less. -/
theorem Function.restores_of_body {body : Json} {head : FunctionHead} {g : Function}
    {legible : Prop}
    (h : ∀ m, Function.decode? (m + 3) (encodeFunction head (body.respell r)) = some g ↔
      body.depth ≤ m + 2 ∧ legible) :
    Restores r Function.decode? (encodeFunction head body) g legible := by
  refine AsyncMarkers.restores_of_kind ?_ (fun n => depth_encodeFunction_le) ?_ <;>
    rw [respell_encodeFunction]
  · exact fun n h_n => Function.decode?_eq_none h_n head _
  · exact h

/-- An expression comes back if its payload does, with the two objects around that opened. -/
theorem Expression.restores_of_case {name : String} (h_name : name ≠ "This") {payload : Json}
    {span : Span} {e : Expression} {p q : Prop}
    (h : Restores r (fun n => Expression.ofCase? span (n + 1) name) payload e p) (h_q : p ↔ q) :
    Restores r Expression.decode? (encodeExpression (tagged name payload) span) e q := by
  refine Expression.restores_of_kind fun m => ?_
  rw [respell_tagged, Expression.decode?_tagged h_name, depth_tagged, Nat.add_le_add_iff_right]
  exact h.congr h_q (m + 1)

/-- A statement comes back if its payload does, with the two objects around that opened. -/
theorem Statement.restores_of_case {name : String} (h_name : name ≠ "Empty") {payload : Json}
    {info : StatementInfo} {s : Statement} {p q : Prop}
    (h : Restores r (fun n => Statement.ofCase? info (n + 1) name) payload s p) (h_q : p ↔ q) :
    Restores r Statement.decode? (encodeStatement (tagged name payload) info) s q := by
  refine Statement.restores_of_kind fun m => ?_
  rw [respell_tagged, Statement.decode?_tagged h_name, depth_tagged, Nat.add_le_add_iff_right]
  exact h.congr h_q (m + 1)

/-- The span of a program takes two levels. -/
theorem Span.restored (s : Span) :
    Restores r (fun n j => Span.decodeSlot? n (some j)) s.encode s True := by
  intro n
  rw [s.respell_encode, s.depth_encode, and_true]
  by_cases h_n : n < 2
  · simp [s.decodeSlot?_eq_none h_n, Nat.not_le.2 h_n]
  · obtain ⟨m, rfl⟩ : ∃ m, n = m + 2 := ⟨n - 2, by omega⟩
    simp [s.decodeSlot?_encode]

/-- A name comes back from one level. -/
theorem Identifier.restored (id : Identifier) :
    Restores r Identifier.decode? id.encode id True := by
  intro n
  rw [id.respell_encode, id.decode?_eq_some_iff, id.depth_encode, and_true, Nat.succ_le_iff]

/-- An expression that may be missing comes back if its part does. -/
theorem optional_restored {e : Option Expression} (ih : ∀ part ∈ optionalParts e, part.Restored r) :
    Restores r (fun n => Json.option? (Expression.decode? n)) (encodeOptional e) e
      (∀ part ∈ optionalParts e, part.Legible r) := by
  -- the part is there exactly if the expression is
  have h_parts {P : Subtree → Prop} :
      (∀ part ∈ optionalParts e, P part) ↔ ∀ a ∈ e, P (.expression a) := by
    cases e <;> simp [optionalParts]
  rw [h_parts] at ih ⊢
  rw [encodeOptional_eq]
  exact option?_restores Expression.encode_ne_null ih

/-- A branch that may be missing comes back if its part does. -/
theorem branch_restored {s : Option Statement} (ih : ∀ part ∈ branchParts s, part.Restored r) :
    Restores r (fun n => Json.option? (Statement.decode? n)) (encodeBranch s) s
      (∀ part ∈ branchParts s, part.Legible r) := by
  have h_parts {P : Subtree → Prop} :
      (∀ part ∈ branchParts s, P part) ↔ ∀ a ∈ s, P (.statement a) := by
    cases s <;> simp [branchParts]
  rw [h_parts] at ih ⊢
  rw [encodeBranch_eq]
  exact option?_restores Statement.encode_ne_null ih

/-- Expressions come back if each of them does. -/
theorem expressions_restored {es : List Expression}
    (ih : ∀ part ∈ es.map Subtree.expression, part.Restored r) :
    Restores r (decodeList? Expression.decode?) (.array (encodeExpressions es)) es
      (∀ part ∈ es.map Subtree.expression, part.Legible r) := by
  rw [List.forall_mem_map] at ih ⊢
  exact list_restores (encodeExpressions_eq es) ih

/-- Statements come back if each of them does. -/
theorem statements_restored {ss : List Statement}
    (ih : ∀ part ∈ ss.map Subtree.statement, part.Restored r) :
    Restores r (decodeList? Statement.decode?) (.array (encodeStatements ss)) ss
      (∀ part ∈ ss.map Subtree.statement, part.Legible r) := by
  rw [List.forall_mem_map] at ih ⊢
  exact list_restores (encodeStatements_eq ss) ih

-- the parts of a node are written out for each form
attribute [local simp] Subtree.numbers Subtree.parts Expression.parts Function.parts
  Statement.parts

/-- The value of a property is read first, and then its key, which stands in an object of its
own. -/
theorem Property.restored {p : Property} (ih : ∀ part ∈ p.parts, part.Restored r) :
    Restores r Property.decode? p.encode p
      ((∀ x ∈ p.numbers, x.Legible r) ∧ ∀ part ∈ p.parts, part.Legible r) := by
  -- the three kinds of keys are told apart by their tags
  cases p with
  | named key value =>
    have h_value := ih (.expression value) (.head _)
    refine .congr (by simp [numbers, parts]) (.record₂
      (f := fun value key => Property.named key value) (fun h => (Property.named.inj h).symm)
      h_value (key.restored.tagged "Identifier") (.swap _ _ _) rfl ?_)
    rintro (_ | n) <;> rfl
  | literal key value =>
    have h_value := ih (.expression value) (.head _)
    refine .congr (by simp [numbers, parts, and_comm]) (.record₂
      (f := fun value key => Property.literal key value) (fun h => (Property.literal.inj h).symm)
      h_value ((key.restored r).tagged "Literal") (.swap _ _ _) rfl ?_)
    rintro (_ | n) <;> rfl
  | computed key value =>
    have h_key := ih (.expression key) (.head _)
    have h_value := ih (.expression value) (.tail _ (.head _))
    refine .congr (by simp [numbers, parts, and_comm]) (.record₂
      (f := fun value key => Property.computed key value) (fun h => (Property.computed.inj h).symm)
      h_value (h_key.tagged "Computed") (.swap _ _ _) rfl ?_)
    rintro (_ | n) <;> rfl

/-- A declaration comes back if its initial value does. -/
theorem Declarator.restored {d : Declarator} (ih : ∀ part ∈ d.parts, part.Restored r) :
    Restores r Declarator.decode? d.encode d (∀ part ∈ d.parts, part.Legible r) := by
  obtain ⟨id, init⟩ := d
  refine .congr (iff_of_eq (true_and _)) (.record₂ Declarator.mk.inj id.restored
    (optional_restored ih) (.refl _) rfl fun n => rfl)

/-- An expression comes back if its parts do: by its case, it is made of one thing that is read as
it stands, of the items of an array, or of the members of a record. -/
theorem Expression.restored (e : Expression) (ih : ∀ part ∈ e.parts, part.Restored r) :
    (Subtree.expression e).Restored r := by
  rw [Subtree.Restored, Subtree.legible_iff]
  cases e with
  | identifier s id =>
    exact Expression.restores_of_case (by decide)
      (id.restored.map fun _ _ h => (Expression.identifier.inj h).2) (by simp)
  | literal s v =>
    exact Expression.restores_of_case (by decide)
      ((v.restored r).map fun _ _ h => (Expression.literal.inj h).2) (by simp)
  | this s => exact Expression.restores_of_kind fun m => by simp [Expression.decode?_this]
  | array s elements =>
    simp only [Subtree.parts, Expression.parts, List.forall_mem_flatMap] at ih ⊢
    have h_elements := list_restores (encodeElements_eq elements) fun e h_e =>
      optional_restored (ih e h_e)
    exact Expression.restores_of_case (by decide) (h_elements.ofList
      (fun _ _ h => (Expression.array.inj h).2) rfl fun _ => rfl) (by simp)
  | object s properties =>
    simp only [Subtree.numbers, Subtree.parts, Expression.parts, List.forall_mem_flatMap] at ih ⊢
    have h_properties := list_restores (encodeProperties_eq properties) fun p h_p =>
      Property.restored (ih p h_p)
    exact Expression.restores_of_case (by decide) (h_properties.ofList
      (fun _ _ h => (Expression.object.inj h).2) rfl fun _ => rfl) (by simp [imp_and, forall_and])
  | function s g =>
    have h_function := ih (.function g) (.head _)
    exact Expression.restores_of_case (by decide)
      (h_function.map fun _ _ h => (Expression.function.inj h).2) (by simp)
  | arrow s g =>
    have h_function := ih (.function g) (.head _)
    exact Expression.restores_of_case (by decide)
      (h_function.map fun _ _ h => (Expression.arrow.inj h).2) (by simp)
  | unary s op argument =>
    have h_argument := ih (.expression argument) (.head _)
    exact Expression.restores_of_case (by decide) (.record₂ (fun h => (Expression.unary.inj h).2)
      (name_restores op.ofName?_name) h_argument (.refl _) rfl fun _ => rfl) (by simp)
  | binary s op left right =>
    have h_left := ih (.expression left) (.head _)
    have h_right := ih (.expression right) (.tail _ (.head _))
    exact Expression.restores_of_case (by decide) (.record₃ (fun h => (Expression.binary.inj h).2)
      (name_restores op.ofName?_name) h_left h_right rfl fun _ => rfl) (by simp)
  | logical s op left right =>
    have h_left := ih (.expression left) (.head _)
    have h_right := ih (.expression right) (.tail _ (.head _))
    exact Expression.restores_of_case (by decide) (.record₃ (fun h => (Expression.logical.inj h).2)
      (name_restores op.ofName?_name) h_left h_right rfl fun _ => rfl) (by simp)
  | assignment s op target value =>
    have h_target := ih (.expression target) (.head _)
    have h_value := ih (.expression value) (.tail _ (.head _))
    exact Expression.restores_of_case (by decide) (.record₃
      (fun h => (Expression.assignment.inj h).2) (name_restores op.ofName?_name) h_target h_value
      rfl fun _ => rfl) (by simp)
  | conditional s test consequent alternate =>
    have h_test := ih (.expression test) (.head _)
    have h_then := ih (.expression consequent) (.tail _ (.head _))
    have h_else := ih (.expression alternate) (.tail _ (.tail _ (.head _)))
    exact Expression.restores_of_case (by decide) (.record₃
      (fun h => (Expression.conditional.inj h).2) h_test h_then h_else rfl fun _ => rfl) (by simp)
  | member s base property =>
    have h_base := ih (.expression base) (.head _)
    refine Expression.restores_of_case (by decide) (.record₂ (fun h => (Expression.member.inj h).2)
      h_base (property.restored.tagged "Identifier") (.refl _) rfl ?_) (by simp)
    -- the property stands in an object of its own, which takes a level
    rintro (_ | n)
    · rfl
    · exact congrArg (Option.bind _) (funext fun _ => Option.map_eq_bind)
  | index s base property =>
    have h_base := ih (.expression base) (.head _)
    have h_property := ih (.expression property) (.tail _ (.head _))
    refine Expression.restores_of_case (by decide) (.record₂ (fun h => (Expression.index.inj h).2)
      h_base (h_property.tagged "Computed") (.refl _) rfl ?_) (by simp)
    rintro (_ | n)
    · rfl
    · exact congrArg (Option.bind _) (funext fun _ => Option.map_eq_bind)
  | call s callee arguments =>
    obtain ⟨h_callee, h_arguments⟩ := List.forall_mem_cons.1 ih
    refine Expression.restores_of_case (by decide) (.record₂ (fun h => (Expression.call.inj h).2)
      h_callee (expressions_restored h_arguments) (.refl _) rfl ?_) (by simp)
    rintro (_ | n) <;> rfl
  | construct s callee arguments =>
    obtain ⟨h_callee, h_arguments⟩ := List.forall_mem_cons.1 ih
    refine Expression.restores_of_case (by decide) (.record₂
      (fun h => (Expression.construct.inj h).2) h_callee (expressions_restored h_arguments)
      (.refl _) rfl ?_) (by simp)
    rintro (_ | n) <;> rfl
  | sequence s items =>
    exact Expression.restores_of_case (by decide) ((expressions_restored ih).ofList
      (fun _ _ h => (Expression.sequence.inj h).2) rfl fun _ => rfl) (by simp)
  | spread s argument =>
    have h_argument := ih (.expression argument) (.head _)
    exact Expression.restores_of_case (by decide)
      (h_argument.map fun _ _ h => (Expression.spread.inj h).2) (by simp)

/-- A function comes back if its parts do. -/
theorem Function.restored (g : Function) (ih : ∀ part ∈ g.parts, part.Restored r) :
    (Subtree.function g).Restored r := by
  rw [Subtree.Restored, Subtree.legible_iff]
  cases g with
  | block head statements =>
    -- the statements are read two levels further down, so the list is taken apart by hand
    have h_statements := mapM_restores (List.forall_mem_map.1 ih)
    refine Function.restores_of_body fun m => ?_
    rw [Function.decode?_encodeFunction]
    simp [encodeStatements_eq, Option.bind_eq_some_iff, h_statements]
  | value head result =>
    have h_result := ih (.expression result) (.head _)
    refine Function.restores_of_body fun m => ?_
    rw [Function.decode?_encodeFunction]
    simp [h_result (m + 1)]

/-- A statement comes back if its parts do. -/
theorem Statement.restored (s : Statement) (ih : ∀ part ∈ s.parts, part.Restored r) :
    (Subtree.statement s).Restored r := by
  rw [Subtree.Restored, Subtree.legible_iff]
  -- a case with several fields is read as a record, any other one as what it holds
  cases s with
  | expression info e =>
    have h_e := ih (.expression e) (.head _)
    exact Statement.restores_of_case (by decide)
      (h_e.map fun _ _ h => (Statement.expression.inj h).2) (by simp)
  | «variables» info kind declarators =>
    simp only [Subtree.parts, Statement.parts, List.forall_mem_flatMap] at ih ⊢
    have h_declarators := list_restores (encodeDeclarators_eq declarators) fun d h_d =>
      Declarator.restored (ih d h_d)
    refine Statement.restores_of_case (by decide) (.record₂ (fun h => (Statement.variables.inj h).2)
      (name_restores kind.ofName?_name) h_declarators (.refl _) rfl ?_) (by simp)
    rintro (_ | n) <;> rfl
  | function info g =>
    have h_function := ih (.function g) (.head _)
    exact Statement.restores_of_case (by decide)
      (h_function.map fun _ _ h => (Statement.function.inj h).2) (by simp)
  | «return» info result =>
    exact Statement.restores_of_case (by decide)
      ((optional_restored ih).map fun _ _ h => (Statement.return.inj h).2) (by simp)
  | ifElse info test consequent alternate =>
    have h_test := ih (.expression test) (.head _)
    have h_then := ih (.statement consequent) (.tail _ (.head _))
    have h_else := branch_restored fun part h_part => ih part (.tail _ (.tail _ h_part))
    exact Statement.restores_of_case (by decide) (.record₃ (fun h => (Statement.ifElse.inj h).2)
      h_test h_then h_else rfl fun _ => rfl) (by simp)
  | «while» info test body =>
    have h_test := ih (.expression test) (.head _)
    have h_body := ih (.statement body) (.tail _ (.head _))
    exact Statement.restores_of_case (by decide) (.record₂ (fun h => (Statement.while.inj h).2)
      h_test h_body (.refl _) rfl fun _ => rfl) (by simp)
  | block info statements =>
    exact Statement.restores_of_case (by decide) ((statements_restored ih).ofList
      (fun _ _ h => (Statement.block.inj h).2) rfl fun _ => rfl) (by simp)
  | throw info thrown =>
    have h_thrown := ih (.expression thrown) (.head _)
    exact Statement.restores_of_case (by decide)
      (h_thrown.map fun _ _ h => (Statement.throw.inj h).2) (by simp)
  | empty info => exact Statement.restores_of_kind fun m => by simp [Statement.decode?_empty]

/-- A tree comes back from its respelled value if and only if there are enough levels and its number
literals are legible. -/
theorem Subtree.restored (r : Respelling) (t : Subtree) : t.Restored r := by
  induction t using Subtree.parts_induction with
  | step t ih =>
    cases t with
    | statement s => exact s.restored ih
    | function g => exact g.restored ih
    | expression e => exact e.restored ih

/-- The numbers of a program are those of its statements. -/
theorem Program.legible_iff {p : Program} :
    (∀ x ∈ p.numbers, x.Legible r) ↔ ∀ s ∈ p.body, (Subtree.statement s).Legible r := by
  rw [Program.numbers, List.forall_mem_flatMap]
  exact Program.forall_listing_iff

/-- A program comes back from its respelled value if and only if there are enough levels and its
number literals are legible. -/
theorem Program.restored (r : Respelling) (p : Program) :
    Restores r Program.decode? p.encode p (∀ x ∈ p.numbers, x.Legible r) := by
  rw [Program.legible_iff]
  obtain ⟨body, span⟩ := p
  have h_body := list_restores (encodeStatements_eq body) fun s _ =>
    (Subtree.statement s).restored r
  exact .congr (iff_of_eq (and_true _)) (.record₂ Program.mk.inj h_body span.restored (.refl _) rfl
    fun _ => rfl)

end Trees

/-! ### Decoding undoes encoding -/

/-- Every value is what decoding makes of it when it has been encoded, and no two values are encoded
alike. -/
def Json.Undoes {α : Type} (decode? : Nat → Json → Option α) (encode : α → Json) : Prop :=
  (∀ a, Json.decode? decode? (encode a) = some a) ∧ Function.Injective encode

/-- If each value comes back from its own, no two values can have one. -/
theorem Json.undoes_of_decode? {α : Type} {decode? : Nat → Json → Option α} {encode : α → Json}
    (h : ∀ a, decode? (encode a).depth (encode a) = some a) : Json.Undoes decode? encode := by
  refine ⟨h, fun a b h_eq => Option.some.inj ?_⟩
  calc some a = decode? (encode a).depth (encode a) := (h a).symm
    _ = decode? (encode b).depth (encode b) := by rw [h_eq]
    _ = some b := h b

/-- Where nothing is respelled, restoring is undoing. -/
theorem Json.undoes_of_restores {α : Type} {decode? : Nat → Json → Option α} {encode : α → Json}
    {legible : α → Prop} (h : ∀ a, Restores .id decode? (encode a) a (legible a))
    (h_legible : ∀ a, legible a) : Json.Undoes decode? encode := by
  refine Json.undoes_of_decode? fun a => ?_
  have h_a := (h a (encode a).depth).2 ⟨Nat.le_refl _, h_legible a⟩
  rwa [Json.respell_id] at h_a

/-- Where a fixed number of levels is enough, there are so many. -/
theorem Json.undoes_of_levels {α : Type} {decode? : Nat → Json → Option α} {encode : α → Json}
    {levels : Nat} (h : ∀ a n, decode? (n + levels) (encode a) = some a)
    (h_depth : ∀ a, levels ≤ (encode a).depth) : Json.Undoes decode? encode := by
  refine Json.undoes_of_decode? fun a => ?_
  obtain ⟨n, h_n⟩ := Nat.exists_eq_add_of_le' (h_depth a)
  rw [h_n]
  exact h a n

/-- A number that is not respelled is legible. -/
theorem Double.legible_id (x : Double) : x.Legible .id := rfl

/-- And so is a tree. -/
theorem Subtree.legible_id (t : Subtree) : t.Legible .id := fun _ _ x _ => x.legible_id

/-- Trees come back if nothing is respelled. -/
theorem Subtree.restored_id (t : Subtree) : t.Restored .id := t.restored .id

theorem SourceKind.ofName?_name (k : SourceKind) : ofName? k.name = some k := by
  cases k <;> rfl

/-- A file descriptor comes back from one level. -/
theorem FileDescriptor.decode?_encode (d : FileDescriptor) (n : Nat) :
    FileDescriptor.decode? (n + 1) d.encode = some d := by
  obtain ⟨_ | name, _ | kind⟩ := d <;>
    simp [encode, decode?, List.lookup_cons, orNull, option?_of_ne_null, SourceKind.ofName?_name]

/-- A configuration comes back from two levels, its own and that of its list of methods. -/
theorem Config.decode?_encode (c : Config) (n : Nat) :
    Config.decode? (n + 2) c.encode = some c := by
  have h_methods : decodeList? (fun _ => Json.text?) (n + 1) (list Json.text c.arrayMethods) =
      some c.arrayMethods :=
    decodeList?_list Json.text?_text c.arrayMethods
  simp [encode, decode?, List.lookup_cons, textSlot?, h_methods]

/-- Decoding undoes encoding, for all that is kept as JSON: programs and their parts, file
descriptors and configurations. Hence no two of them have one value. -/
theorem Json.decode?_undoes_encode :
    Json.Undoes Program.decode? Program.encode ∧
      Json.Undoes Statement.decode? Statement.encode ∧
      Json.Undoes Expression.decode? Expression.encode ∧
      Json.Undoes Function.decode? Function.encode ∧
      Json.Undoes Span.decode? Span.encode ∧
      Json.Undoes FileDescriptor.decode? FileDescriptor.encode ∧
      Json.Undoes Config.decode? Config.encode := by
  refine ⟨?_, ?_, ?_, ?_, ?_, ?_, ?_⟩
  · exact Json.undoes_of_restores (Program.restored .id) fun p x _ => x.legible_id
  · exact Json.undoes_of_restores (fun s => (Subtree.statement s).restored_id)
      fun s => Subtree.legible_id _
  · exact Json.undoes_of_restores (fun e => (Subtree.expression e).restored_id)
      fun e => Subtree.legible_id _
  · exact Json.undoes_of_restores (fun g => (Subtree.function g).restored_id)
      fun g => Subtree.legible_id _
  · exact Json.undoes_of_levels Span.decode?_encode fun s => Nat.le_of_eq s.depth_encode.symm
  · exact Json.undoes_of_levels FileDescriptor.decode?_encode fun d =>
      Nat.pos_of_ne_zero depth_record_ne_zero
  · exact Json.undoes_of_levels Config.decode?_encode fun c =>
      Nat.not_le.1 (by simp [Config.encode, Json.list])

end AsyncMarkers
