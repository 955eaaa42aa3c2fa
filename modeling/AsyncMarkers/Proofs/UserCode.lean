import AsyncMarkers.Proofs.NormalForm
import AsyncMarkers.Proofs.Reading
import AsyncMarkers.Proofs.Verdict

/-!
# No user code is lost, duplicated or reordered

The rules take markers out of argument lists, wrap calls, receivers and bodies of functions in code
that is made up, and mark parameters as done. All the rest of a file is still there afterwards, once
and in the same order (`Session.transform_keeps_user_code`).

What the rest is, is said by a reading (`Context.userCode`): it writes down names, literals, keys
and properties with their spans and marks, and leaves out the marker, the binding and the members of
the support module. The proof is for any reading that is *blind* to what the rules do
(`Reading.Blind`). Such a reading is left the same by each change of a call
(`Reading.Blind.ofExpression_transformCall`), and so by the replacement loop; by the completion of a
function (`Reading.Blind.ofFunction_complete`); and then, by induction along the walk, by a visit
(`Reading.Blind.ofSubtree_visit`).
-/

namespace AsyncMarkers

/-- A reading is blind if it writes nothing down for what the rules take out and put in, and does
not tell a parameter that is done from one that is not. -/
structure Reading.Blind {τ : Type} (r : Reading τ) (ctx : Context) : Prop where
  /-- Statements that are made up have no comments. -/
  info : ∀ span, r.info ⟨span, []⟩ = []
  /-- The function that is made up around a body has no name and no parameters. -/
  arrow : r.head ⟨none, [], .synthetic⟩ = []
  done : ∀ head index param, head.params[index]? = some param →
    r.head { head with params := head.params.set index { param with done := true } } = r.head head
  marker : ∀ span id, id.name = ctx.marker → r.name span id = []
  binding : ∀ span id, id.name = ctx.binding.name → r.name span id = []
  null : ∀ span, r.literal span .null = []
  await : r.property ⟨"await", false⟩ = []
  array : r.property ⟨"array", false⟩ = []
  future : ∀ i n, r.property ⟨"future_" ++ Nat.repr i ++ "_" ++ Nat.repr n, false⟩ = []

namespace Reading.Blind

variable {τ : Type} {r : Reading τ} {ctx : Context}

/-! ### Calls -/

/-- Nothing is read off a member of the support module. -/
theorem ofExpression_member (h : r.Blind ctx) {property : String}
    (h_property : r.property ⟨property, false⟩ = []) :
    r.ofExpression (ctx.binding.member property) = [] := by
  rw [Binding.member, Synthetic.member, Synthetic.reference, ofExpression, ofExpression,
    h.binding _ _ rfl, h_property, List.append_nil]

/-- Nothing is read off a marker. -/
theorem ofExpression_marker (h : r.Blind ctx) {e : Expression}
    (h_marker : (e.markerKind? ctx.marker).isSome) : r.ofExpression e = [] := by
  obtain ⟨s, id, h_id, h_shape⟩ := Expression.marker_cases h_marker
  -- a marker is a name that is not written down, or has one below it with nothing else around it
  have h_name : r.ofExpression (.identifier s id) = [] := by
    simp only [Identifier.isMarker, Bool.and_eq_true, beq_iff_eq] at h_id
    exact h.marker s id h_id.1
  rcases h_shape with rfl | ⟨s', rfl | rfl | rfl⟩
  · exact h_name
  · rw [ofExpression, h_name]
  · rw [ofExpression, h_name]
  · rw [ofExpression, ofElements, ofElements, ofOptional, h_name, List.append_nil]

/-- Taking out markers does not change what is read off an argument list. -/
theorem ofExpressions_stripped (h : r.Blind ctx) {es es' : List Expression}
    (h_stripped : Stripped ctx.marker es es') : r.ofExpressions es' = r.ofExpressions es := by
  rw [ofExpressions_eq, ofExpressions_eq]
  exact (h_stripped.flatMap_eq fun e he => h.ofExpression_marker he).symm

/-- A receiver reads the same when it is adapted. -/
theorem ofExpression_adaptCallee (h : r.Blind ctx) (callee : Expression) :
    r.ofExpression (ctx.adaptCallee callee) = r.ofExpression callee := by
  rcases ctx.adaptCallee_cases callee with ⟨-, h_eq⟩ | ⟨s, receiver, property, rfl, -, h_eq⟩
  · rw [h_eq]
  · have h_array : r.ofExpression ctx.binding.array = [] := h.ofExpression_member h.array
    have h_receiver : r.ofExpression (ctx.adaptReceiver receiver) = r.ofExpression receiver := by
      rw [Context.adaptReceiver, ofExpression, ofExpressions, ofExpressions, h_array,
        List.nil_append, List.append_nil]
    rw [h_eq, ofExpression, h_receiver, ofExpression]

/-- A substituted call reads as the callee and the arguments that are left. -/
theorem ofExpression_substitute (h : r.Blind ctx) (span : Span) (callee : Expression)
    (arguments : List Expression) (s : Substitution) :
    r.ofExpression (ctx.substitute span callee arguments s) =
      r.ofExpression callee ++ r.ofExpressions (s.rest arguments) := by
  -- all that is made up around the callee is read as nothing
  have h_future : r.ofExpression (ctx.futureCall span callee s.first (s.rest arguments)) =
      r.ofExpression callee ++ r.ofExpressions (s.rest arguments) := by
    have h_adapter : r.ofExpression (ctx.binding.future s.first (s.rest arguments).length) = [] :=
      h.ofExpression_member (h.future _ _)
    rw [Context.futureCall, Synthetic.call, ofExpression, ofExpression, ofExpressions,
      ofExpressions, h_adapter, List.nil_append, List.append_nil]
  have h_await : r.ofExpression ctx.binding.await = [] := h.ofExpression_member h.await
  rw [Context.substitute]
  split
  · rw [ofExpression, ofExpressions, ofExpressions, h_await, h_future, List.nil_append,
      List.append_nil]
  · exact h_future

/-- A call reads the same after the call rule has changed it. -/
theorem ofExpression_transformCall (h : r.Blind ctx) {span : Span} {callee : Expression}
    {arguments : List Expression} {change : Change Expression}
    (h_change : ctx.transformCall (.call span callee arguments) = .ok change) :
    r.ofExpression change.node = r.ofExpression (.call span callee arguments) := by
  -- the callee is read first in both forms, so the order stays
  rcases Context.transformCall_cases h_change with ⟨-, h_node, -⟩ | ⟨s, h_sub, h_node, -⟩
  · rw [h_node, ofExpression, h.ofExpression_adaptCallee, ofExpression]
  · rw [h_node, h.ofExpression_substitute, h.ofExpression_adaptCallee,
      h.ofExpressions_stripped (Context.stripped_rest h_sub), ofExpression]

/-! ### Functions -/

/-- A completion reads as the body that it holds. -/
theorem ofStatement_completion (h : r.Blind ctx) {param : Identifier}
    (h_param : param.name = ctx.marker) (statements : List Statement) :
    r.ofStatement (completion param statements) = r.ofStatements statements := by
  -- the body is the only thing inside the completion that is not made up
  simp only [completion, Synthetic.statement, Synthetic.call, Synthetic.reference, Synthetic.null,
    Synthetic.arrow, ofStatement, ofExpression, ofExpressions, ofFunction]
  rw [h.info, h.marker _ _ h_param, h.null, h.arrow]
  simp only [List.nil_append, List.append_nil]

/-- A function reads as its head and the statements that its body comes down to. -/
theorem ofFunction_eq (h : r.Blind ctx) (f : Function) :
    r.ofFunction f = r.head f.head ++ r.ofStatements f.statements := by
  cases f with
  | block head statements => rfl
  | value head result =>
    have h_return : r.ofStatement ((Synthetic.returning result).withSpan result.span) =
        r.ofExpression result := by
      show r.info ⟨result.span, []⟩ ++ r.ofExpression result = r.ofExpression result
      rw [h.info, List.nil_append]
    rw [Function.statements, ofStatements, ofStatements, h_return, List.append_nil]
    rfl

/-- A function reads the same when it is completed. -/
theorem ofFunction_complete (h : r.Blind ctx) (f : Function) :
    r.ofFunction (ctx.complete f).node = r.ofFunction f := by
  -- what is set to done is the parameter's mark, which is not read
  rcases ctx.complete_cases f with ⟨-, h_eq⟩ | ⟨index, param, h_at, h_marker, h_eq, -⟩
  · rw [h_eq]
  · have h_name : ({ param with done := true } : Identifier).name = ctx.marker := by
      simp only [Identifier.isMarker, Bool.and_eq_true, beq_iff_eq] at h_marker
      exact h_marker.1
    rw [h_eq, Context.completeThrough, ofFunction, h.done _ _ _ h_at, ofStatements, ofStatements,
      h.ofStatement_completion h_name, List.append_nil, ← h.ofFunction_eq]

/-! ### The walk -/

section Rules

variable {g : Engine} (h : r.Blind g.context) (h_rules : g.rules = Rule.all)

include h h_rules

/-- A node reads the same after its hook. -/
theorem ofSubtree_hook {t : Subtree} (h_hook : (g.visitor.hook t).failure = none) :
    r.ofSubtree (g.visitor.hook t).value = r.ofSubtree t := by
  cases t with
  | statement s => rfl
  | function f =>
    rw [Engine.hook_function_value h_rules]
    exact h.ofFunction_complete f
  | expression e =>
    refine Context.Steps.preserves ?_ (Engine.settle_steps h_rules h_hook)
    intro span callee arguments change h_change
    exact h.ofExpression_transformCall h_change

/-- A tree reads the same after its visit. -/
theorem ofSubtree_visit {t : Subtree} (h_visit : (g.visitor.visit t).failure = none) :
    r.ofSubtree (g.visitor.visit t).value = r.ofSubtree t := by
  -- each node reads as before when its hook is through, and its parts are visited after that
  induction t using g.visitor.visit_induction with
  | step t ih =>
    obtain ⟨h_hook, h_parts⟩ := g.visitor.visit_failure_eq_none.1 h_visit
    rw [g.visitor.visit_value h_visit, ← h.ofSubtree_hook h_rules h_hook]
    refine ofSubtree_mapParts fun part h_part => ?_
    rw [Visitor.results_apply]
    exact ih part h_part (h_parts part h_part)

/-- Statements read the same after their visits. -/
theorem ofStatements_results {statements : List Statement}
    (h_visits : ∀ s ∈ statements, (g.visitor.visit (.statement s)).failure = none) :
    r.ofStatements (statements.map g.visitor.results.statement) = r.ofStatements statements := by
  refine ofStatements_map fun part h_part => ?_
  obtain ⟨s, hs, rfl⟩ := List.mem_map.1 h_part
  rw [Visitor.results_apply]
  exact h.ofSubtree_visit h_rules (h_visits s hs)

end Rules

end Reading.Blind

/-! ### The reading of user code -/

/-- What is written down of user code. -/
inductive UserToken where
  /-- A name that is an expression. -/
  | name (span : Span) (id : Identifier)
  | literal (span : Span) (value : Literal)
  | this (span : Span)
  | variable (id : Identifier)
  | function (id : Identifier)
  | parameter (name : String)
  | key (id : Identifier)
  | literalKey (value : Literal)
  | property (id : Identifier)
deriving DecidableEq

/-- Whether a name has the form `future_i_n` of the adapters for callbacks, with digits for `i` and
`n`. -/
def isFutureName (name : String) : Bool :=
  match name.toList with
  | 'f' :: 'u' :: 't' :: 'u' :: 'r' :: 'e' :: '_' :: rest =>
    match rest.dropWhile Char.isDigit with
    | '_' :: digits =>
      !(rest.takeWhile Char.isDigit).isEmpty && !digits.isEmpty && digits.all Char.isDigit
    | _ => false
  | _ => false

/-- User code, from left to right: all names but the marker and the binding, all literals but
`null`, and all properties but those of the support module. -/
def Context.userCode (ctx : Context) : Reading UserToken where
  info _ := []
  declared id := [.variable id]
  head head := head.id.toList.map .function ++ head.params.map fun param => .parameter param.name
  name span id :=
    if id.name = ctx.marker ∨ id.name = ctx.binding.name then [] else [.name span id]
  literal span value := if value = .null then [] else [.literal span value]
  this span := [.this span]
  key id := [.key id]
  literalKey value := [.literalKey value]
  property id :=
    if id.name = "await" ∨ id.name = "array" ∨ isFutureName id.name = true then []
    else [.property id]

/-- The names of the adapters for callbacks have the form that is left out. -/
theorem isFutureName_future (i n : Nat) :
    isFutureName ("future_" ++ Nat.repr i ++ "_" ++ Nat.repr n) = true := by
  -- a numeral is made of digits, and of one at least
  have h_digits (k : Nat) : ∀ c ∈ Nat.toDigits 10 k, Char.isDigit c = true :=
    fun c hc => Nat.isDigit_of_mem_toDigits (by decide) (by decide) hc
  have h_nonempty (k : Nat) : (Nat.toDigits 10 k).isEmpty = false := by
    rw [List.isEmpty_eq_false_iff]
    exact Nat.toDigits_ne_nil
  have h_text : ("future_" ++ Nat.repr i ++ "_" ++ Nat.repr n).toList =
      'f' :: 'u' :: 't' :: 'u' :: 'r' :: 'e' :: '_' ::
        (Nat.toDigits 10 i ++ '_' :: Nat.toDigits 10 n) := by
    simp [Nat.toList_repr]
  -- the first numeral ends where the underscore is, since that is no digit
  have h_drop : (Nat.toDigits 10 i ++ '_' :: Nat.toDigits 10 n).dropWhile Char.isDigit =
      '_' :: Nat.toDigits 10 n := by
    rw [List.dropWhile_append_of_pos (h_digits i), List.dropWhile_cons_of_neg (by decide)]
  have h_take : (Nat.toDigits 10 i ++ '_' :: Nat.toDigits 10 n).takeWhile Char.isDigit =
      Nat.toDigits 10 i := by
    rw [List.takeWhile_append_of_pos (h_digits i), List.takeWhile_cons_of_neg (by decide),
      List.append_nil]
  simp only [isFutureName, h_text, h_drop, h_take, h_nonempty, Bool.not_false, Bool.true_and,
    List.all_eq_true]
  exact h_digits n

/-- The reading of user code sees nothing of what the rules do. -/
theorem Context.userCode_blind (ctx : Context) : ctx.userCode.Blind ctx where
  info _ := rfl
  arrow := rfl
  done head index param h_at := by
    have h_names : (head.params.set index { param with done := true }).map
        (fun param => UserToken.parameter param.name) =
          head.params.map fun param => .parameter param.name := by
      -- position by position: only one parameter is replaced, by one with the same name
      ext i : 1
      rw [List.getElem?_map, List.getElem?_map, List.getElem?_set]
      by_cases h_eq : index = i
      · obtain ⟨h_lt, -⟩ := List.getElem?_eq_some_iff.1 h_at
        rw [if_pos h_eq, if_pos h_lt, ← h_eq, h_at]
        rfl
      · rw [if_neg h_eq]
    simp only [userCode, h_names]
  marker _ id h := if_pos (.inl h)
  binding _ id h := if_pos (.inr h)
  null _ := rfl
  await := rfl
  array := rfl
  future i n := if_pos (.inr (.inr (isFutureName_future i n)))

/-- Comments and spans of statements are no user code. -/
theorem Context.userCode_withInfo (ctx : Context) (s : Statement) (info : StatementInfo) :
    ctx.userCode.ofStatement (s.withInfo info) = ctx.userCode.ofStatement s := by
  cases s <;> rfl

/-- A program behind the declaration is the declaration, unless the program had it, and statements
with the user code of the program. -/
theorem Context.declaredBody_split (ctx : Context) (p : Program) :
    ∃ comments rest,
      ctx.declaredBody p = (if ctx.isDeclared p then [] else [ctx.declaration comments]) ++ rest ∧
      ctx.userCode.ofStatements rest = ctx.userCode.ofStatements p.body := by
  -- comments may have moved to the declaration, and they are not read
  have h_info (statements : List Statement) :
      ctx.userCode.ofStatements (statements.map (·.withInfo {})) =
        ctx.userCode.ofStatements statements := by
    induction statements with
    | nil => rfl
    | cons s statements ih =>
      rw [List.map_cons, Reading.ofStatements, userCode_withInfo, ih, Reading.ofStatements]
  obtain ⟨comments, own, h_body, h_own⟩ := ctx.declaredBody_eq p
  exact ⟨comments, own, h_body, by rw [← h_info own, h_own, h_info]⟩

/-- **No user code is lost, duplicated or reordered.** What comes of a file that is transformed is
the declaration, unless the file had it, and behind it statements with the user code of the file. -/
theorem Session.transform_keeps_user_code {s : Session} (h_rules : s.rules = Rule.all)
    {file : FileDescriptor} (h_selected : s.selects file = true) {sink : Sink} {p : Program}
    {output : Output} (h : (s.transform sink p file).1.result = .ok output) :
    let ctx : Context := ⟨file, s.config⟩
    ∃ comments rest,
      output.program.body = (if ctx.isDeclared p then [] else [ctx.declaration comments]) ++ rest ∧
      ctx.userCode.ofStatements rest = ctx.userCode.ofStatements p.body := by
  intro ctx
  obtain ⟨h_run, rfl⟩ := (Session.transform_result_eq_ok h_selected).1 h
  obtain ⟨comments, rest, h_split, h_rest⟩ := ctx.declaredBody_split p
  have h_visits := (Engine.run_failure_eq_none h_rules).1 h_run
  rw [show (s.engine file).context.declaredBody p = _ from h_split] at h_visits
  -- the declaration is visited like all statements, which leaves it as it is
  refine ⟨comments, rest.map (s.engine file).visitor.results.statement, ?_, ?_⟩
  · have h_body : ((s.engine file).run p).value.body =
        (ctx.declaredBody p).map (s.engine file).visitor.results.statement := by
      rw [Engine.run_value h_rules h_run]
      rfl
    have h_kept : (s.engine file).visitor.results.statement (ctx.declaration comments) =
        ctx.declaration comments :=
      Engine.results_declaration h_rules (Binding.isDeclaredBy_iff.2 ⟨_, rfl⟩)
    rw [h_body, h_split, List.map_append]
    split
    · rfl
    · rw [List.map_singleton, h_kept]
  · rw [← h_rest]
    refine ctx.userCode_blind.ofStatements_results (g := s.engine file) h_rules ?_
    exact fun statement h_mem => h_visits statement (List.mem_append_right _ h_mem)

/-- In `function f(a, _) { return this.items.map_(g(a, !_), _); }` the body moves into an arrow
function, the receiver into an adapter and the callees into others; what the user has written is
read in the same order behind the declaration. -/
theorem Session.transform_keeps_user_code_nested :
    let s : Session := addMarkerRules { config := {}, selector := .always }
    let name (n : String) : Expression := .identifier (.at 2 0 1) ⟨n, false⟩
    let inner : Expression :=
      .call (.at 2 20 28) (name "g") [name "a", .unary (.at 2 25 27) .not (name "_")]
    let receiver : Expression := .member (.at 2 7 17) (.this (.at 2 7 11)) ⟨"items", false⟩
    let outer : Expression :=
      .call (.at 2 7 32) (.member (.at 2 7 22) receiver ⟨"map_", false⟩) [inner, name "_"]
    let f : Function := .block ⟨some ⟨"f", false⟩, [⟨"a", false⟩, ⟨"_", false⟩], .synthetic⟩
      [.return {} (some outer)]
    ∃ output comments rest,
      (s.transform .collected ⟨[.function {} f], .synthetic⟩ {}).1.result = .ok output ∧
      output.program.body = Context.declaration ⟨{}, {}⟩ comments :: rest ∧
      (Context.userCode ⟨{}, {}⟩).ofStatements rest =
        [.function ⟨"f", false⟩, .parameter "a", .parameter "_", .this (.at 2 7 11),
          .property ⟨"items", false⟩, .property ⟨"map_", false⟩, .name (.at 2 0 1) ⟨"g", false⟩,
          .name (.at 2 0 1) ⟨"a", false⟩] := by
  intro s name inner receiver outer f
  have h_rules : s.rules = Rule.all := Session.addMarkerRules_rules rfl
  have h_selected : s.selects {} = true := rfl
  obtain ⟨output, h_output⟩ := Session.transform_ok_of_no_offence h_rules h_selected
    (p := ⟨[.function {} f], .synthetic⟩) (by decide) .collected
  obtain ⟨comments, rest, h_body, h_rest⟩ :=
    Session.transform_keeps_user_code h_rules h_selected h_output
  -- what is read of the output is what is read of the input, which can be evaluated
  exact ⟨output, comments, rest, h_output, h_body, h_rest.trans (by decide)⟩

end AsyncMarkers
