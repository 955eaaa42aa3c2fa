import AsyncMarkers.Proofs.NormalForm

/-!
# Sums over the nodes of a tree, along a run

A *weight* puts a number on every node, and `Weight.total` sums these numbers up over all nodes of
some trees. What is counted in a run, and how a tree changes in it, are both statements about such
sums.

* **Made-up code.** A weight is *regular* (`Weight.Regular`) if all nodes that no rule has anything
  to do with weigh the same, and all markers weigh the same. The code that the rules put around the
  user's code is then easily weighed: an adapted callee (`Weight.Regular.total_adaptCallee`), a
  substituted call (`Weight.Regular.total_substitute`), a completed function
  (`Weight.Regular.total_completeThrough`). Only calls have to be looked at one by one.
* **Balances.** A balance is a relation between a sum before some changes, what these count, and the
  sum after them, that holds of changes one after another and of changes side by side as soon as it
  holds of each of them. What is in balance for the hook at every node is so for a whole visit
  (`Engine.visit_balance`), and for a run (`Engine.run_balance`).

In a visit the nodes below a node are visited after the node itself. The sum after a visit is
therefore taken with a weight of its own, which may differ from that of the sum before: what a rule
has still to do at a node (`before`) is nothing once the node has been passed, while the size of a
node (`after`) is there to stay.
-/

namespace AsyncMarkers

/-- A number for every node. -/
abbrev Weight := Subtree → Nat

namespace Weight

/-- The sum of the weights of some nodes. -/
def sum (w : Weight) : List Subtree → Nat
  | [] => 0
  | n :: ns => w n + w.sum ns

/-- The sum of the weights of all nodes of some trees. -/
def total (w : Weight) (ts : List Subtree) : Nat := w.sum (ts.flatMap Subtree.listing)

/-- Weights can be summed up one by one. -/
theorem sum_add (w w' : Weight) (ns : List Subtree) :
    sum (fun n => w n + w' n) ns = w.sum ns + w'.sum ns := by
  induction ns with
  | nil => rfl
  | cons n ns ih =>
    rw [sum, ih, sum, sum]
    omega

/-- A sum is zero only if every weight in it is. -/
theorem sum_eq_zero_iff (w : Weight) (ns : List Subtree) : w.sum ns = 0 ↔ ∀ n ∈ ns, w n = 0 := by
  induction ns with
  | nil => simp [sum]
  | cons n ns ih => rw [sum, Nat.add_eq_zero_iff, ih, List.forall_mem_cons]

/-- One for every node with a property. -/
def counting (q : Subtree → Bool) : Weight := fun n => if q n then 1 else 0

/-- Counting the nodes with a property is summing up ones. -/
theorem sum_counting (q : Subtree → Bool) (ns : List Subtree) :
    (counting q).sum ns = ns.countP q := by
  induction ns with
  | nil => rfl
  | cons n ns ih => rw [sum, ih, List.countP_cons, Nat.add_comm, counting]

section Sums

variable (w : Weight)

/-- Sums over two lists of nodes add up. -/
theorem sum_append (ns ns' : List Subtree) : w.sum (ns ++ ns') = w.sum ns + w.sum ns' := by
  induction ns with
  | nil => exact (Nat.zero_add _).symm
  | cons n ns ih => rw [List.cons_append, sum, ih, sum, Nat.add_assoc]

@[simp] theorem total_nil : w.total [] = 0 := rfl

/-- Sums over two lists of trees add up. -/
theorem total_append (ts ts' : List Subtree) : w.total (ts ++ ts') = w.total ts + w.total ts' := by
  rw [total, List.flatMap_append, sum_append]
  rfl

/-- Where nodes weigh nothing, trees weigh nothing. -/
theorem total_zero (ts : List Subtree) : total (fun _ => 0) ts = 0 := by
  have h_sum (ns : List Subtree) : sum (fun _ => 0) ns = 0 := by
    induction ns with
    | nil => rfl
    | cons n ns ih => rw [sum, ih]
  exact h_sum _

/-- The sum over a list of trees is that over the first one and that over the others. -/
theorem total_cons (t : Subtree) (ts : List Subtree) :
    w.total (t :: ts) = w.total [t] + w.total ts := by
  rw [← total_append, List.singleton_append]

/-- The sum over a tree is the weight of the node on top and the sum over its parts. -/
theorem total_singleton (t : Subtree) : w.total [t] = w t + w.total t.parts := by
  rw [total, List.flatMap_singleton, Subtree.listing_eq, sum]
  rfl

/-- The sum over some arguments is that over the first one and that over the others. -/
theorem total_expressions_cons (e : Expression) (es : List Expression) :
    w.total ((e :: es).map .expression) = w.total [.expression e] + w.total (es.map .expression) :=
  w.total_cons _ _

/-- The sum over the nodes of a program is that over its statements. -/
theorem sum_listing (p : Program) : w.sum p.listing = w.total (p.body.map .statement) := by
  rw [Program.listing_eq]
  rfl

/-- The sum over a call is its own weight and the sums over its callee and its arguments. -/
theorem total_call (span : Span) (callee : Expression) (arguments : List Expression) :
    w.total [.expression (.call span callee arguments)] =
      w (.expression (.call span callee arguments)) +
        (w.total [.expression callee] + w.total (arguments.map .expression)) := by
  rw [total_singleton, Subtree.parts, Expression.parts, total_cons]

variable {w}

/-- Spans and comments of statements weigh nothing. -/
theorem total_withInfo (h : ∀ s s', w (.statement s) = w (.statement s')) (s : Statement)
    (info : StatementInfo) : w.total [.statement (s.withInfo info)] = w.total [.statement s] := by
  rw [total_singleton, total_singleton, h _ s, Subtree.parts, Subtree.parts,
    Statement.parts_withInfo]

/-- Spans and comments weigh nothing in any statement of a list. -/
theorem total_withoutInfo (h : ∀ s s', w (.statement s) = w (.statement s'))
    (statements : List Statement) :
    w.total ((statements.map (·.withInfo {})).map .statement) =
      w.total (statements.map .statement) := by
  induction statements with
  | nil => rfl
  | cons s statements ih =>
    rw [List.map_cons, List.map_cons, total_cons, total_withInfo h, ih, List.map_cons, ← total_cons]

end Sums

end Weight

/-! ### Regular weights -/

/-- What is counted for the declaration. -/
theorem Context.declarationCount_eq (ctx : Context) (p : Program) :
    ctx.declarationCount p = { declarations := if ctx.isDeclared p then 0 else 1 } := by
  unfold declarationCount
  split <;> rfl

/-- What is counted for a change of a call. -/
theorem Context.transformCall_counts {ctx : Context} {span : Span} {callee : Expression}
    {arguments : List Expression} {change : Change Expression}
    (h : ctx.transformCall (.call span callee arguments) = .ok change) :
    change.counts.declarations = 0 ∧ change.counts.functions = 0 ∧
      change.counts.receivers = if ctx.needsAdapter callee then 1 else 0 := by
  rcases transformCall_cases h with ⟨-, -, -, h_counts⟩ | ⟨s, -, -, -, h_counts⟩ <;>
  · rw [h_counts, adaptation_counts]
    exact ⟨rfl, rfl, rfl⟩

/-- Plain nodes that are no markers. -/
inductive Context.Inert (ctx : Context) : Subtree → Prop
  | statement (s : Statement) : Inert ctx (.statement s)
  | function {f : Function} : f.head.params = [] → Inert ctx (.function f)
  | expression {e : Expression} : e.offeredAs = none → e.isPlainMarker ctx.marker = false →
    Inert ctx (.expression e)
  | call {callee : Expression} {arguments : List Expression} (span : Span) :
    ctx.arrayReceiver? callee = none → planCall? ctx.marker arguments = none →
    Inert ctx (.expression (.call span callee arguments))

/-- All nodes that no rule has anything to do with weigh the same, and so do all markers. -/
structure Weight.Regular (w : Weight) (ctx : Context) (inert marker : Nat) : Prop where
  of_inert : ∀ n, ctx.Inert n → w n = inert
  of_marker : ∀ s id, id.isMarker ctx.marker = true → w (.expression (.identifier s id)) = marker

namespace Weight.Regular

variable {w : Weight} {ctx : Context} {inert marker : Nat}

/-- A member of the support module has two nodes. -/
theorem total_member (h : w.Regular ctx inert marker) (property : String) :
    w.total [.expression (ctx.binding.member property)] = 2 * inert := by
  have h_member : w (.expression (ctx.binding.member property)) = inert :=
    h.of_inert _ (.expression rfl rfl)
  have h_name : w (.expression (Synthetic.reference ctx.binding.identifier)) = inert := by
    -- the reference to the binding is done
    refine h.of_inert _ (.expression rfl ?_)
    simp [Synthetic.reference, Binding.identifier, Expression.isPlainMarker, Identifier.isMarker]
  -- below the member there is only the name of the binding
  have h_parts : (Subtree.expression (ctx.binding.member property)).parts =
      [.expression (Synthetic.reference ctx.binding.identifier)] := rfl
  rw [total_singleton, h_member, h_parts, total_singleton, h_name]
  show inert + (inert + 0) = 2 * inert
  omega

/-- A call of a member of the support module adds two nodes to the call itself and its argument. -/
theorem total_adapter (h : w.Regular ctx inert marker) (span : Span) (property : String)
    (e : Expression) :
    w.total [.expression (.call span (ctx.binding.member property) [e])] =
      w (.expression (.call span (ctx.binding.member property) [e])) + 2 * inert +
        w.total [.expression e] := by
  rw [total_call, h.total_member, List.map_singleton, Nat.add_assoc]

/-- Adapting the receiver in a callee adds the adapter. -/
theorem total_adaptCallee (h : w.Regular ctx inert marker) (callee : Expression) :
    w.total [.expression (ctx.adaptCallee callee)] = w.total [.expression callee] +
      if ctx.needsAdapter callee then
        (ctx.arrayReceiver? callee).elim 0 (fun r => w (.expression (ctx.adaptReceiver r))) +
          2 * inert
      else 0 := by
  rcases ctx.adaptCallee_cases callee with
    ⟨h_needs, h_eq⟩ | ⟨s, receiver, property, rfl, h_needs, h_eq⟩
  · rw [h_eq, h_needs]
    rfl
  · -- the receiver is that of an array method, which is what the weight of an adapter depends on
    have h_receiver : ctx.arrayReceiver? (.member s receiver property) = some receiver := by
      simp only [Context.needsAdapter, Bool.and_eq_true] at h_needs
      exact Context.arrayReceiver?_eq_some.2 ⟨s, property, rfl, h_needs.1⟩
    have h_member (base : Expression) : w.total [.expression (.member s base property)] =
        inert + w.total [.expression base] := by
      rw [total_singleton, h.of_inert _ (.expression rfl rfl)]
      rfl
    rw [h_eq, h_member, h_member, if_pos h_needs, h_receiver]
    show _ + w.total [.expression (.call receiver.span (ctx.binding.member "array") [receiver])] = _
    rw [h.total_adapter]
    show _ = _ + (w (.expression (.call receiver.span (ctx.binding.member "array") [receiver])) + _)
    omega

/-- A substituted call adds an adapter around its callee and, if it is waited for, a call around the
whole of it. -/
theorem total_substitute (h : w.Regular ctx inert marker) (span : Span) (callee : Expression)
    (arguments : List Expression) (s : Substitution) :
    let rest := s.rest arguments
    let adapter := Synthetic.call (ctx.binding.future s.first rest.length) [callee]
    let future := ctx.futureCall span callee s.first rest
    w.total [.expression (ctx.substitute span callee arguments s)] =
      (if s.awaited then w (.expression (.call span ctx.binding.await [future])) + 2 * inert
        else 0) +
        (w (.expression future) + w (.expression adapter) + 2 * inert) +
        (w.total [.expression callee] + w.total (rest.map .expression)) := by
  intro rest adapter future
  -- the sums are taken from the inside: the adapter, the call of what it returns, and the wait
  have h_adapter : w.total [.expression adapter] =
      w (.expression adapter) + 2 * inert + w.total [.expression callee] := h.total_adapter _ _ _
  have h_future : w.total [.expression future] = w (.expression future) +
      (w.total [.expression adapter] + w.total (rest.map .expression)) := total_call w _ _ _
  cases h_awaited : s.awaited with
  | true =>
    have h_await : w.total [.expression (.call span ctx.binding.await [future])] =
        w (.expression (.call span ctx.binding.await [future])) + 2 * inert +
          w.total [.expression future] := h.total_adapter _ _ _
    rw [Context.substitute, h_awaited, if_pos rfl, if_pos rfl]
    show w.total [.expression (.call span ctx.binding.await [future])] = _
    omega
  | false =>
    rw [Context.substitute, h_awaited, if_neg Bool.false_ne_true, if_neg Bool.false_ne_true]
    show w.total [.expression future] = _
    omega

/-- A plain marker is one node, a future marker is two. -/
theorem total_marker (h : w.Regular ctx inert marker) {e : Expression} {kind : MarkerKind}
    (h_kind : e.markerKind? ctx.marker = some kind) :
    w.total [.expression e] = marker + if kind = .plain then 0 else inert := by
  -- a marker is a name, or something inert around a name
  have h_name (s : Span) (id : Identifier) (h_id : id.isMarker ctx.marker = true) :
      w.total [.expression (.identifier s id)] = marker := by
    rw [total_singleton, h.of_marker s id h_id]
    rfl
  have h_wrapped {e : Expression} (h_shape : e.offeredAs = none)
      (h_plain : e.isPlainMarker ctx.marker = false) {s : Span} {id : Identifier}
      (h_id : id.isMarker ctx.marker = true)
      (h_parts : e.parts = [.expression (.identifier s id)]) :
      w.total [.expression e] = marker + inert := by
    rw [total_singleton, h.of_inert _ (.expression h_shape h_plain), Subtree.parts, h_parts,
      h_name s id h_id, Nat.add_comm]
  -- of the four shapes of a marker, only the name by itself is of the plain kind
  obtain ⟨s, id, h_id, rfl | ⟨s', rfl | rfl | rfl⟩⟩ :=
    Expression.marker_cases (by rw [h_kind]; rfl : (e.markerKind? ctx.marker).isSome)
  · have h_plain : kind = .plain := by simpa [Expression.markerKind?, h_id, eq_comm] using h_kind
    rw [h_name s id h_id, if_pos h_plain, Nat.add_zero]
  all_goals
    have h_other : kind ≠ .plain := by
      rintro rfl
      simp [Expression.markerKind?, Expression.isPlainMarker, h_id] at h_kind
    rw [h_wrapped rfl rfl h_id rfl, if_neg h_other]

/-- Taking out the markers of a kind takes out their weight. -/
theorem total_withoutMarkers (h : w.Regular ctx inert marker) (arguments : List Expression) :
    w.total (arguments.map .expression) =
      w.total ((withoutMarkers ctx.marker .plain arguments).map .expression) +
        markerCount ctx.marker .plain arguments * marker := by
  -- a plain marker goes and takes its weight along; any other argument stays in both sums
  induction arguments with
  | nil => simp [withoutMarkers]
  | cons e es ih =>
    rw [total_expressions_cons, ih, markerCount_cons]
    by_cases h_kind : e.markerKind? ctx.marker = some .plain
    · have h_cons : withoutMarkers ctx.marker .plain (e :: es) =
          withoutMarkers ctx.marker .plain es := by
        simp [withoutMarkers, h_kind]
      rw [h_cons, h.total_marker h_kind, if_pos rfl, if_pos h_kind, Nat.add_mul, Nat.one_mul]
      omega
    · have h_cons : withoutMarkers ctx.marker .plain (e :: es) =
          e :: withoutMarkers ctx.marker .plain es := by
        simp [withoutMarkers, h_kind]
      rw [h_cons, if_neg h_kind, total_expressions_cons, Nat.add_zero, Nat.add_assoc]

/-- What a substitution takes out of the arguments: one or two plain markers, or one future
marker. -/
theorem total_rest (h : w.Regular ctx inert marker) {span : Span} {arguments : List Expression}
    {s : Substitution} (h_sub : ctx.substitution? span arguments = .ok (some s)) :
    w.total (arguments.map .expression) = w.total ((s.rest arguments).map .expression) +
      if s.awaited then markerCount ctx.marker .plain arguments * marker else marker + inert := by
  have h_treatment := ctx.substitution?_treatment span arguments
  rw [h_sub] at h_treatment
  cases h_treatment with
  | awaited _ _ _ h_awaited h_rest => rw [h_rest, if_pos h_awaited, h.total_withoutMarkers]
  | future _ before e after _ h_split h_kind h_awaited h_rest =>
    have h_marker : w.total [.expression e] = marker + inert := h.total_marker h_kind
    rw [h_rest, h_split, if_neg (by simp [h_awaited]), List.map_append, total_append,
      total_expressions_cons, List.map_append, total_append]
    omega

/-- The sum over a call that the call rule changes loses the weight of the call and of the markers
that are taken out, and wins that of the calls that are made up. -/
theorem total_transformCall (h : w.Regular ctx inert marker) {span : Span} {callee : Expression}
    {arguments : List Expression} {change : Change Expression}
    (h_change : ctx.transformCall (.call span callee arguments) = .ok change) :
    let call : Expression := .call span callee arguments
    let adapted := if ctx.needsAdapter callee then
      (ctx.arrayReceiver? callee).elim 0 (fun r => w (.expression (ctx.adaptReceiver r))) +
        2 * inert
      else 0
    (planCall? ctx.marker arguments = none ∧
      change.node = .call span (ctx.adaptCallee callee) arguments ∧
      change.counts = (ctx.adaptation span callee).1 ∧
      w.total [.expression change.node] + w (.expression call) =
        w.total [.expression call] + w (.expression change.node) + adapted) ∨
    ∃ s, ctx.substitution? span arguments = .ok (some s) ∧
      change.counts = (ctx.adaptation span callee).1 + { calls := 1 } ∧
      let rest := s.rest arguments
      let adapter :=
        Synthetic.call (ctx.binding.future s.first rest.length) [ctx.adaptCallee callee]
      let future := ctx.futureCall span (ctx.adaptCallee callee) s.first rest
      w.total [.expression change.node] + w (.expression call) +
          (if s.awaited then markerCount ctx.marker .plain arguments * marker else marker + inert) =
        w.total [.expression call] + adapted +
          ((if s.awaited then w (.expression (.call span ctx.binding.await [future])) + 2 * inert
            else 0) + (w (.expression future) + w (.expression adapter) + 2 * inert)) := by
  intro call adapted
  -- the callee is the same in both cases, and the weight of its adapter is known
  have h_callee : w.total [.expression (ctx.adaptCallee callee)] =
      w.total [.expression callee] + adapted := h.total_adaptCallee callee
  have h_call : w.total [.expression call] = w (.expression call) +
      (w.total [.expression callee] + w.total (arguments.map .expression)) := total_call w _ _ _
  rcases Context.transformCall_cases h_change with ⟨h_sub, h_node, -, h_counts⟩ |
    ⟨s, h_sub, h_node, -, h_counts⟩
  · refine .inl ⟨Context.substitution?_eq_ok_none_iff.1 h_sub, h_node, h_counts, ?_⟩
    rw [h_node, total_call]
    omega
  · refine .inr ⟨s, h_sub, h_counts, ?_⟩
    intro rest adapter future
    -- what is taken out of the arguments and what is made up around them are independent
    have h_rest : w.total (arguments.map .expression) = w.total (rest.map .expression) +
        if s.awaited then markerCount ctx.marker .plain arguments * marker else marker + inert :=
      h.total_rest h_sub
    have h_made : w.total [.expression (ctx.substitute span (ctx.adaptCallee callee) arguments s)] =
        (if s.awaited then w (.expression (.call span ctx.binding.await [future])) + 2 * inert
          else 0) +
          (w (.expression future) + w (.expression adapter) + 2 * inert) +
          (w.total [.expression (ctx.adaptCallee callee)] + w.total (rest.map .expression)) :=
      h.total_substitute span (ctx.adaptCallee callee) arguments s
    rw [h_node]
    omega

/-- What a change makes of the sum for a weight that tells, of all calls, only those with a receiver
to be adapted from others. One or two plain markers go with a call that is waited for, and one
future marker with any other call that is rewritten. -/
theorem total_change (h : w.Regular ctx inert marker)
    (h_calls : ∀ span callee arguments, ctx.needsAdapter callee = false →
      w (.expression (.call span callee arguments)) = inert)
    {span : Span} {callee : Expression} {arguments : List Expression} {change : Change Expression}
    (h_change : ctx.transformCall (.call span callee arguments) = .ok change) :
    let left := w.total [.expression change.node] + w (.expression (.call span callee arguments))
    let given := w.total [.expression (.call span callee arguments)]
    let adapters := if ctx.needsAdapter callee then 3 * inert else 0
    ((change.counts.calls = 0 ∧ left = given + adapters + inert) ∨
      (change.counts.calls = 1 ∧ ∃ k, 1 ≤ k ∧ k ≤ 2 ∧
        left + k * marker = given + adapters + 7 * inert) ∨
      (change.counts.calls = 1 ∧ left + marker = given + adapters + 3 * inert)) := by
  -- an adapter is a call without a receiver to adapt, so it is inert like all such calls
  have h_adapted : (if ctx.needsAdapter callee then
      (ctx.arrayReceiver? callee).elim 0 (fun r => w (.expression (ctx.adaptReceiver r))) +
        2 * inert
      else 0) = if ctx.needsAdapter callee then 3 * inert else 0 := by
    cases h_needs : ctx.needsAdapter callee with
    | false => rfl
    | true =>
      rw [Context.needsAdapter_eq, Option.any_eq_true] at h_needs
      obtain ⟨receiver, h_receiver, -⟩ := h_needs
      rw [h_receiver, Option.elim_some, Context.adaptReceiver, h_calls _ _ _ ctx.needsAdapter_array]
      simp only [if_true]
      omega
  rcases h.total_transformCall h_change with ⟨-, h_node, h_counts, h_total⟩ |
    ⟨s, h_sub, h_counts, h_total⟩
  · -- what is left of a call that is not substituted has its receiver adapted
    have h_top : w (.expression change.node) = inert := by
      rw [h_node]
      exact h_calls _ _ _ (ctx.needsAdapter_adaptCallee callee)
    rw [h_counts, Context.adaptation_counts]
    refine .inl ⟨rfl, ?_⟩
    simp only [h_adapted, h_top] at h_total
    omega
  · rw [h_counts, Context.adaptation_counts]
    refine .inr ?_
    -- none of the calls that are made up has a receiver to adapt
    simp only [h_adapted, Synthetic.call, Context.futureCall,
      h_calls _ _ _ (ctx.needsAdapter_future s.first _), h_calls _ _ _ ctx.needsAdapter_await,
      h_calls _ (.call _ _ _) _ rfl] at h_total
    -- what is taken out tells the two forms of a substituted call apart
    have h_treatment := ctx.substitution?_treatment span arguments
    rw [h_sub] at h_treatment
    cases h_treatment with
    | awaited _ h_pos h_le h_awaited =>
      rw [if_pos h_awaited, if_pos h_awaited] at h_total
      refine .inl ⟨rfl, _, h_pos, h_le, ?_⟩
      omega
    | future _ _ _ _ _ _ _ h_awaited =>
      rw [h_awaited] at h_total
      refine .inr ⟨rfl, ?_⟩
      simp only [Bool.false_eq_true, if_false] at h_total
      omega

/-! ### Functions and programs -/

/-- All statements weigh the same. -/
theorem statement_eq (h : w.Regular ctx inert marker) (s s' : Statement) :
    w (.statement s) = w (.statement s') :=
  (h.of_inert _ (.statement s)).trans (h.of_inert _ (.statement s')).symm

/-- The statement that completes a function adds seven nodes to the body that it holds. -/
theorem total_completion (h : w.Regular ctx inert marker) {param : Identifier}
    (h_done : param.done = true) (statements : List Statement) :
    w.total [.statement (completion param statements)] =
      7 * inert + w.total (statements.map .statement) := by
  -- every node that is made up is inert, so each of them adds the same weight
  have h_single {t part : Subtree} (h_inert : ctx.Inert t) (h_parts : t.parts = [part]) :
      w.total [t] = inert + w.total [part] := by
    rw [total_singleton, h.of_inert t h_inert, h_parts]
  have h_leaf {e : Expression} (h_shape : e.offeredAs = none)
      (h_plain : e.isPlainMarker ctx.marker = false) (h_parts : e.parts = []) :
      w.total [.expression e] = inert := by
    rw [total_singleton, h.of_inert _ (.expression h_shape h_plain), Subtree.parts, h_parts]
    rfl
  have h_call {callee : Expression} {arguments : List Expression}
      (h_callee : ctx.arrayReceiver? callee = none)
      (h_arguments : ∀ e ∈ arguments, e.markerKind? ctx.marker = none) :
      w.total [.expression (Synthetic.call callee arguments)] = inert +
        (w.total [.expression callee] + w.total (arguments.map .expression)) := by
    rw [Synthetic.call, total_call,
      h.of_inert _ (.call _ h_callee (planCall?_eq_none_iff_forall.2 h_arguments))]
  -- from the inside: the arrow function with the body, its call, and the call of the parameter
  let body : Function := .block ⟨none, [], .synthetic⟩ statements
  have h_arrow : w.total [.expression (Synthetic.arrow body)] =
      2 * inert + w.total (statements.map .statement) := by
    have h_function : w.total [.function body] = inert + w.total (statements.map .statement) := by
      rw [total_singleton, h.of_inert _ (.function rfl)]
      rfl
    rw [h_single (.expression rfl rfl) rfl, h_function]
    omega
  have h_called : w.total [.expression (Synthetic.call (Synthetic.arrow body) [])] =
      3 * inert + w.total (statements.map .statement) := by
    rw [h_call rfl (by simp), h_arrow, List.map_nil, total_nil]
    omega
  -- the parameter is done by now, so a reference to it is no marker
  have h_param : (Synthetic.reference param).isPlainMarker ctx.marker = false := by
    simp [Synthetic.reference, Expression.isPlainMarker, Identifier.isMarker, h_done]
  have h_callback : w.total [.expression (Synthetic.call (Synthetic.reference param)
      [Synthetic.null, Synthetic.call (Synthetic.arrow body) []])] =
        6 * inert + w.total (statements.map .statement) := by
    have h_null : w.total [.expression Synthetic.null] = inert := h_leaf rfl rfl rfl
    rw [h_call rfl (by simp [Synthetic.null, Synthetic.call, Expression.markerKind?]),
      h_leaf rfl h_param rfl, total_expressions_cons, h_null, List.map_singleton, h_called]
    omega
  rw [completion, Synthetic.statement, h_single (.statement _) rfl]
  show inert + w.total [.expression (Synthetic.call (Synthetic.reference param)
    [Synthetic.null, Synthetic.call (Synthetic.arrow body) []])] = _
  omega

/-- The body of a function, written as statements, has one node more if it was an expression. -/
theorem total_statements (h : w.Regular ctx inert marker) (f : Function) :
    w.total (f.statements.map .statement) = w.total f.parts ∨
      w.total (f.statements.map .statement) = w.total f.parts + inert := by
  cases f with
  | block head statements => exact .inl rfl
  | value head result =>
    -- the statement around an expression is made up, and its span is that of the expression
    have h_return : w.total [.statement (Synthetic.returning result)] =
        inert + w.total [.expression result] := by
      rw [total_singleton, h.of_inert _ (.statement _)]
      rfl
    refine .inr ?_
    rw [Function.statements, List.map_singleton, Statement.withSpan, total_withInfo h.statement_eq,
      h_return, Nat.add_comm]
    rfl

/-- Completing a function adds seven nodes below it, or eight if its body was an expression. -/
theorem total_completeThrough (h : w.Regular ctx inert marker) (f : Function) (index : Nat)
    (param : Identifier) :
    w.total (Context.completeThrough f index param).parts = w.total f.parts + 7 * inert ∨
      w.total (Context.completeThrough f index param).parts = w.total f.parts + 8 * inert := by
  have h_parts : (Context.completeThrough f index param).parts =
      [.statement (completion { param with done := true } f.statements)] := rfl
  rw [h_parts, h.total_completion rfl]
  rcases h.total_statements f with h_body | h_body <;> rw [h_body]
  · exact .inl (by omega)
  · exact .inr (by omega)

end Weight.Regular

/-! ### Balances -/

/-- A relation between a sum before some changes, what these count, and the sum after them, that
adds up. -/
structure Balance (R : Nat → Counts → Nat → Prop) : Prop where
  /-- Where nothing changes, nothing is counted. -/
  refl : ∀ n, R n {} n
  /-- Changes one after another. -/
  trans : ∀ {a b c : Nat} {counts counts' : Counts},
    R a counts b → R b counts' c → R a (counts + counts') c
  /-- Changes side by side. -/
  add : ∀ {a a' b b' : Nat} {counts counts' : Counts},
    R a counts b → R a' counts' b' → R (a + a') (counts + counts') (b + b')

namespace Balance

variable {R : Nat → Counts → Nat → Prop}

/-- What every change of the call rule keeps in balance, a chain of changes does. -/
theorem of_steps (hR : Balance R) {ctx : Context} {w : Weight}
    (h_change : ∀ span callee arguments change,
      ctx.transformCall (.call span callee arguments) = .ok change →
      R (w.total [.expression (.call span callee arguments)]) change.counts
        (w.total [.expression change.node]))
    {e e' : Expression} {counts : Counts} (h : ctx.Steps e counts e') :
    R (w.total [.expression e]) counts (w.total [.expression e']) := by
  -- the induction is on the chain; balances of changes one after another are put together
  induction h with
  | refl e => exact hR.refl _
  | @head e e' change counts h_first _ ih =>
    refine hR.trans ?_ ih
    cases e with
    | call span callee arguments => exact h_change span callee arguments change h_first
    | _ =>
      -- any other expression is left as it is
      cases h_first
      exact hR.refl _

/-- Trees that are each kept in balance by their visits are so together. -/
theorem of_visits (hR : Balance R) {g : Engine} {before after : Weight} {ts : List Subtree}
    (h : ∀ t ∈ ts, R (before.total [t]) (History.counts (g.visitor.visit t).notes)
      (after.total [(g.visitor.visit t).value])) :
    R (before.total ts) (History.counts (ts.flatMap fun t => (g.visitor.visit t).notes))
      (after.total (ts.map fun t => (g.visitor.visit t).value)) := by
  -- here they are put together side by side
  induction ts with
  | nil => exact hR.refl 0
  | cons t ts ih =>
    rw [List.forall_mem_cons] at h
    rw [before.total_cons, List.flatMap_cons, History.counts_append, List.map_cons,
      after.total_cons]
    exact hR.add h.1 (ih h.2)

/-- Sums from which exactly what is counted is taken away. -/
theorem exact {f : Counts → Nat} (h_zero : f {} = 0) (h_add : ∀ c c', f (c + c') = f c + f c') :
    Balance fun a counts b => f counts + b = a where
  -- both laws say that what is counted adds up
  refl n := by rw [h_zero, Nat.zero_add]
  trans := by
    intro a b c counts counts' h h'
    rw [h_add]
    omega
  add := by
    intro a a' b b' counts counts' h h'
    rw [h_add]
    omega

end Balance

namespace Engine

/-- Weights of which what the rules do keeps a balance: the completion of functions and the changes
of calls. When a node has been dealt with, it weighs `after` what it will weigh in the end, and its
parts still weigh what they weighed `before`. -/
structure Accounting (g : Engine) (R : Nat → Counts → Nat → Prop) (before after : Weight) : Prop
    extends Balance R where
  statement : ∀ s s', after (.statement s') = before (.statement s)
  function : ∀ f f', R (before.total [.function f]) (g.context.complete f).counts
    (after (.function f') + before.total (g.context.complete f).node.parts)
  change : ∀ span callee arguments change,
    g.context.transformCall (.call span callee arguments) = .ok change →
    R (before.total [.expression (.call span callee arguments)]) change.counts
      (before.total [.expression change.node])
  /-- What the replacement loop leaves weighs, on top, as much as what the visit leaves. -/
  settled : ∀ e, (g.visitor.visit (.expression e)).failure = none →
    after (.expression (g.visitor.results.expression e)) =
      before (.expression (g.settle (max 1 g.limit) e).value)

variable {g : Engine} {R : Nat → Counts → Nat → Prop} {before after : Weight}
  (h_rules : g.rules = Rule.all)

include h_rules

/-- A hook keeps the balance at its node. -/
theorem hook_balance (hR : g.Accounting R before after) {t : Subtree}
    (h : (g.visitor.visit t).failure = none) :
    R (before.total [t]) (History.counts (g.visitor.hook t).notes)
      (after (g.visitor.visit t).value + before.total (g.visitor.hook t).value.parts) := by
  rw [← g.visitor.results_apply]
  cases t with
  | statement s =>
    rw [hook_statement, NodeMap.apply, hR.statement s, before.total_singleton]
    exact hR.refl _
  | function f =>
    rw [hook_function_counts h_rules, hook_function_value h_rules, NodeMap.apply]
    exact hR.function f _
  | expression e =>
    -- each round of the loop keeps the balance
    have h_loop := hR.of_steps hR.change (settle_steps h_rules (settle_failure_of_visit h))
    rw [before.total_singleton (.expression (g.settle _ e).value), ← hR.settled e h] at h_loop
    rw [hook_expression, NodeMap.apply]
    exact h_loop

/-- A visit keeps the balance of a tree. -/
theorem visit_balance (hR : g.Accounting R before after) {t : Subtree}
    (h : (g.visitor.visit t).failure = none) :
    R (before.total [t]) (History.counts (g.visitor.visit t).notes)
      (after.total [(g.visitor.visit t).value]) := by
  induction t using g.visitor.visit_induction with
  | step t ih =>
    -- first the hook, then the visits of the parts that it has left
    obtain ⟨-, h_parts⟩ := g.visitor.visit_failure_eq_none.1 h
    have h_below := hR.of_visits fun part h_part => ih part h_part (h_parts part h_part)
    have h_rest := hR.add (hR.refl (after (g.visitor.visit t).value)) h_below
    rw [Counts.zero_add] at h_rest
    rw [g.visitor.visit_notes h, History.counts_append, after.total_singleton,
      g.visitor.visit_parts h]
    exact hR.trans (hook_balance h_rules hR h) h_rest

/-- The visit of the declaration leaves it as it is and counts nothing. -/
theorem visit_declaration (comments : List Comment) :
    g.visitor.results.statement (g.context.declaration comments) = g.context.declaration comments ∧
      History.counts (g.visitor.visit (.statement (g.context.declaration comments))).notes =
        {} := by
  have h_normal : (Subtree.statement (g.context.declaration comments)).Everywhere
      (g.context.isNormal · = true) :=
    Context.everywhere_declaration Context.isNormal_of_plain _
  exact ⟨results_statement_of_normal h_rules h_normal, (visit_of_normal h_rules h_normal).2.2⟩

/-- A run keeps the balance of the program's own statements. The declaration that it puts in front
of them is left out. -/
theorem run_balance (hR : g.Accounting R before after) {p : Program}
    (h : (g.run p).failure = none) :
    ∃ comments own counts,
      (g.run p).value.body =
        (if g.context.isDeclared p then [] else [g.context.declaration comments]) ++ own ∧
      History.counts (g.run p).notes = g.context.declarationCount p + counts ∧
      R (before.total (p.body.map .statement)) counts (after.total (own.map .statement)) := by
  obtain ⟨comments, own, h_body, h_own⟩ := g.context.declaredBody_eq p
  obtain ⟨h_kept, h_nothing⟩ := visit_declaration h_rules comments
  have h_visits := (run_failure_eq_none h_rules).1 h
  rw [h_body] at h_visits
  refine ⟨comments, own.map g.visitor.results.statement,
    History.counts ((own.map .statement).flatMap fun t => (g.visitor.visit t).notes), ?_, ?_, ?_⟩
  · -- the declaration in front is its own result
    rw [run_value h_rules h, h_body, List.map_append]
    split
    · rfl
    · rw [List.map_singleton, h_kept]
  · rw [run_counts h_rules h, h_body, List.map_append, List.flatMap_append, History.counts_append]
    split
    · rw [List.map_nil, List.flatMap_nil, History.counts_nil, Counts.zero_add]
    · rw [List.map_singleton, List.flatMap_singleton, h_nothing, Counts.zero_add]
  · -- what is left of the program's own statements is in balance, statement by statement
    have h_each : ∀ t ∈ own.map Subtree.statement, R (before.total [t])
        (History.counts (g.visitor.visit t).notes) (after.total [(g.visitor.visit t).value]) := by
      intro t ht
      obtain ⟨s, hs, rfl⟩ := List.mem_map.1 ht
      exact visit_balance h_rules hR (h_visits s (List.mem_append_right _ hs))
    -- the comments that the first statement may have lost weigh nothing
    have h_total : before.total (own.map .statement) = before.total (p.body.map .statement) := by
      have h_statement (s s' : Statement) : before (.statement s) = before (.statement s') :=
        (hR.statement s s).symm.trans (hR.statement s' s)
      rw [← Weight.total_withoutInfo h_statement own, h_own, Weight.total_withoutInfo h_statement]
    have h_results : own.map (Subtree.statement ∘ g.visitor.results.statement) =
        (own.map .statement).map fun t => (g.visitor.visit t).value := by
      rw [List.map_map]
      exact List.map_congr_left fun s _ => g.visitor.results_apply (.statement s)
    rw [List.map_map, h_results, ← h_total]
    exact hR.of_visits h_each

/-- What is taken away to the last by the visits is counted in the input. -/
theorem run_exact {f : Counts → Nat} {p : Program}
    (h_declared : ∀ c, f (g.context.declarationCount p + c) = f c)
    (hR : g.Accounting (fun a counts b => f counts + b = a) before fun _ => 0)
    (h : (g.run p).failure = none) : f (History.counts (g.run p).notes) = before.sum p.listing := by
  obtain ⟨comments, own, counts, -, h_counts, h_balance⟩ := run_balance h_rules hR h
  rw [h_counts, h_declared, before.sum_listing, ← h_balance, Weight.total_zero, Nat.add_zero]

end Engine

end AsyncMarkers
