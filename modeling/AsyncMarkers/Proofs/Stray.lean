import AsyncMarkers.Proofs.Summary

/-!
# Markers that are not arguments

A call is rewritten for the markers among its arguments, so the number of rewritten calls should be
what these ask for (`Context.requested`): one rewrite for all plain markers of a call together, and
one for each future marker. A marker elsewhere should be none of the rules' business.

This does not hold of two places, because the rules move what stands there into an argument list
that they make up, and the walk then comes by. The callee of a call that is rewritten becomes the
argument of an adapter, `b.future_i_n(_)`, and the receiver of an array method becomes that of
another, `b.array(_)`. A marker in one of these places is *stray* (`Context.isStray`). A stray plain
or future marker is consumed like an argument, and the adapter loses what it was put around; any
other stray marker is refused.

* The calls that a run rewrites are those that arguments ask for and those that stray markers ask
  for (`Engine.run_calls`).
* A program whose argument lists can be treated is transformed with just the rewrites that arguments
  ask for exactly if it has no stray marker, and all adapters are then left around what they were
  put around (`Session.transform_rewrites_requested_iff`).
-/

namespace AsyncMarkers

/-! ### Requests -/

namespace Context

/-- How many rewrites the markers among some arguments ask for: one for all plain markers together,
and one for each future marker. -/
def requests (ctx : Context) (arguments : List Expression) : Nat :=
  (if 0 < markerCount ctx.marker .plain arguments then 1 else 0) +
    markerCount ctx.marker .future arguments

/-- How many rewrites the arguments of a node ask for. -/
def requested (ctx : Context) : Weight
  | .expression (.call _ _ arguments) => ctx.requests arguments
  | _ => 0

/-- How many rewrites the callee of a node and the receiver in it ask for when they have become
arguments: the callee does if the call is rewritten, the receiver if it is that of an array
method. -/
def strayed (ctx : Context) : Weight
  | .expression (.call _ callee arguments) =>
    (if 0 < ctx.requests arguments then ctx.requests [callee] else 0) +
      (ctx.arrayReceiver? callee).elim 0 fun receiver => ctx.requests [receiver]
  | _ => 0

/-- Whether a node is a call with a marker in the place of its callee, if it is rewritten, or of the
receiver of an array method. -/
def isStray (ctx : Context) : Subtree → Bool
  | .expression (.call _ callee arguments) =>
    (decide (0 < ctx.requests arguments) && (callee.markerKind? ctx.marker).isSome) ||
      (ctx.arrayReceiver? callee).any fun receiver => (receiver.markerKind? ctx.marker).isSome
  | _ => false

/-- Whether the arguments of a node can be treated, if calls may be replaced `limit` times (at least
once): there are at most two plain markers and no promise or array markers, the future markers do
not exceed the limit, and a construction has no plain markers. -/
def isTreatable (ctx : Context) (limit : Nat) : Subtree → Bool
  | .expression (.call _ _ arguments) =>
    decide (markerCount ctx.marker .plain arguments ≤ 2 ∧
      markerCount ctx.marker .promise arguments = 0 ∧ markerCount ctx.marker .array arguments = 0 ∧
      markerCount ctx.marker .future arguments ≤ max 1 limit)
  | .expression (.construct _ _ arguments) =>
    decide (markerCount ctx.marker .plain arguments = 0)
  | _ => true

variable {ctx : Context} {arguments : List Expression}

/-- Without markers, nothing is asked for. -/
theorem requests_of_unmarked (h : planCall? ctx.marker arguments = none) :
    ctx.requests arguments = 0 := by
  rw [requests, planCall?_eq_none.1 h, planCall?_eq_none.1 h]
  rfl

/-- A rewrite is asked for by a plain or a future marker. -/
theorem requests_pos_iff : 0 < ctx.requests arguments ↔
    0 < markerCount ctx.marker .plain arguments + markerCount ctx.marker .future arguments := by
  unfold requests
  split <;> omega

/-- A single argument asks for a rewrite if it is a plain or a future marker. -/
theorem requests_singleton (ctx : Context) (e : Expression) :
    ctx.requests [e] =
      if e.markerKind? ctx.marker = some .plain ∨ e.markerKind? ctx.marker = some .future then 1
      else 0 := by
  cases h_kind : e.markerKind? ctx.marker with
  | none => simp [requests, markerCount_cons, h_kind]
  | some kind => cases kind <;> simp [requests, markerCount_cons, h_kind]

/-- What is no marker asks for nothing. -/
theorem requests_singleton_of_unmarked {e : Expression} (h : e.markerKind? ctx.marker = none) :
    ctx.requests [e] = 0 := by
  rw [requests_singleton, h]
  rfl

/-- A substitution does one of the rewrites that are asked for. -/
theorem requests_rest {span : Span} {s : Substitution}
    (h_sub : ctx.substitution? span arguments = .ok (some s)) :
    ctx.requests arguments = ctx.requests (s.rest arguments) + 1 := by
  have h_treatment := ctx.substitution?_treatment span arguments
  rw [h_sub] at h_treatment
  cases h_treatment with
  | awaited _ h_pos _ _ h_rest =>
    -- the plain markers are gone, all at once, and the others have stayed
    have h_plain : markerCount ctx.marker .plain (s.rest arguments) = 0 := by
      rw [h_rest, markerCount_withoutMarkers, if_pos rfl]
    have h_future : markerCount ctx.marker .future (s.rest arguments) =
        markerCount ctx.marker .future arguments := by
      rw [h_rest, markerCount_withoutMarkers, if_neg (by simp)]
    rw [requests, requests, if_pos h_pos, h_plain, h_future, if_neg (Nat.lt_irrefl 0)]
    omega
  | future _ before e after h_plain h_split h_kind _ h_rest =>
    -- one future marker is gone, and there was no plain marker to begin with
    have h_plain_rest : markerCount ctx.marker .plain (s.rest arguments) = 0 := by
      rw [h_split, markerCount_middle] at h_plain
      rw [h_rest]
      omega
    have h_future : markerCount ctx.marker .future arguments =
        markerCount ctx.marker .future (s.rest arguments) + 1 := by
      rw [h_rest, h_split, markerCount_middle, if_pos h_kind]
    rw [requests, requests, h_plain, h_plain_rest, h_future]
    omega

/-! ### Work -/

/-- All rewrites that a node will be the cause of. -/
def work (ctx : Context) : Weight := fun n => ctx.requested n + ctx.strayed n

/-- A call of something that is neither a marker nor an array method does the rewrites that its
arguments ask for. -/
theorem work_call {callee : Expression} (h_callee : callee.markerKind? ctx.marker = none)
    (h_receiver : ctx.arrayReceiver? callee = none) (span : Span) :
    ctx.work (.expression (.call span callee arguments)) = ctx.requests arguments := by
  rw [work, requested, strayed, requests_singleton_of_unmarked h_callee, h_receiver, ite_self]
  rfl

/-- A call of a member of the support module. -/
theorem work_adapter {property : String} (h : ctx.config.isArrayMethod property = false)
    (span : Span) (e : Expression) :
    ctx.work (.expression (.call span (ctx.binding.member property) [e])) = ctx.requests [e] :=
  work_call rfl (arrayReceiver?_member h) span

/-- There is no work left at an expression that is settled. -/
theorem work_of_isSettled {e : Expression} (h : ctx.isSettled e = true) :
    ctx.work (.expression e) = 0 := by
  cases e with
  | call span callee arguments =>
    obtain ⟨h_plan, h_adapted⟩ := isSettled_call.1 h
    have h_none := requests_of_unmarked h_plan
    rw [work, requested, strayed, h_none, if_neg (Nat.lt_irrefl 0)]
    cases h_receiver : ctx.arrayReceiver? callee with
    | none => rfl
    | some receiver =>
      -- a receiver that is adapted is a call
      have h_call := isAdapted_of_needsAdapter_eq_false h_adapted h_receiver
      rw [Option.elim_some, requests_singleton_of_unmarked (markerKind?_of_isAdapted h_call _)]
  | _ => rfl

/-- Nodes that no rule has anything to do with are no cause of a rewrite. -/
theorem regular_work : ctx.work.Regular ctx 0 0 where
  of_inert n h := by
    cases h with
    | statement _ | function _ => rfl
    | expression h_shape _ => exact work_of_isSettled (isSettled_of_not_offered h_shape)
    | call span h_callee h_plan =>
      refine work_of_isSettled (isSettled_call.2 ⟨h_plan, ?_⟩)
      exact needsAdapter_of_arrayReceiver?_eq_none h_callee
  of_marker _ _ _ := rfl

/-- The adapter of a receiver takes over the work that the receiver would be the cause of. -/
theorem work_adaptReceiver (ctx : Context) (callee : Expression) :
    (if ctx.needsAdapter callee then
      (ctx.arrayReceiver? callee).elim 0 (fun r => ctx.work (.expression (ctx.adaptReceiver r))) +
        2 * 0
      else 0) = (ctx.arrayReceiver? callee).elim 0 fun receiver => ctx.requests [receiver] := by
  -- there is work for the adapter exactly where the receiver is a marker
  cases h_receiver : ctx.arrayReceiver? callee with
  | none => rw [needsAdapter_of_arrayReceiver?_eq_none h_receiver, if_neg Bool.false_ne_true]; rfl
  | some receiver =>
    by_cases h_needs : ctx.needsAdapter callee = true
    · rw [if_pos h_needs, Option.elim_some, Option.elim_some, adaptReceiver, Binding.array,
        work_adapter (isArrayMethod_array _), Nat.mul_zero, Nat.add_zero]
    · -- the receiver is adapted already, and no marker
      have h_adapted := isAdapted_of_needsAdapter_eq_false (Bool.eq_false_iff.2 h_needs) h_receiver
      rw [if_neg h_needs, Option.elim_some,
        requests_singleton_of_unmarked (markerKind?_of_isAdapted h_adapted _)]

end Context

namespace Engine

variable {g : Engine} (h_rules : g.rules = Rule.all)

include h_rules

/-- A rewritten call is one rewrite less to be done: the others have moved to the calls that are
made up, where their markers are arguments now. -/
theorem accounting_work :
    g.Accounting (fun a counts b => counts.calls + b = a) g.context.work fun _ => 0 where
  toBalance := Balance.exact rfl fun _ _ => rfl
  statement _ _ := rfl
  function f _ := by
    rw [Weight.total_singleton, Context.regular_work.total_complete, g.context.complete_counts,
      Nat.zero_add]
    rfl
  change span callee arguments change h_change := by
    -- the call itself is the cause of what its arguments, its callee and its receiver ask for
    have h_call : g.context.work (.expression (.call span callee arguments)) =
        g.context.requests arguments +
          ((if 0 < g.context.requests arguments then g.context.requests [callee] else 0) +
            (g.context.arrayReceiver? callee).elim 0 fun receiver =>
              g.context.requests [receiver]) :=
      rfl
    rcases Context.regular_work.total_transformCall h_change with
      ⟨h_plan, h_node, h_counts, h_total⟩ | ⟨s, h_sub, h_counts, h_total⟩
    · -- nothing was asked for, so nothing is counted and nothing is left
      have h_none := Context.requests_of_unmarked h_plan
      have h_left : g.context.work (.expression change.node) = 0 := by
        rw [h_node]
        exact Context.work_of_isSettled
          (Context.isSettled_call.2 ⟨h_plan, g.context.needsAdapter_adaptCallee callee⟩)
      have h_calls : change.counts.calls = 0 := by
        rw [h_counts, Context.adaptation_counts]
      simp only [g.context.work_adaptReceiver, h_call, h_left, h_none, Nat.lt_irrefl, if_false]
        at h_total
      omega
    · have h_calls : change.counts.calls = 1 := by
        rw [h_counts, Context.adaptation_counts]
        rfl
      have h_one := Context.requests_rest h_sub
      have h_pos : 0 < g.context.requests arguments := by omega
      -- of the calls that are made up, the wait does nothing, and the others do the rest of the
      -- work
      have h_await : g.context.work (.expression (.call span g.context.binding.await
          [g.context.futureCall span (g.context.adaptCallee callee) s.first (s.rest arguments)])) =
            0 := by
        rw [Binding.await, Context.work_adapter (Context.isArrayMethod_await _)]
        exact Context.requests_singleton_of_unmarked rfl
      have h_adapter : g.context.work (.expression (Synthetic.call
          (g.context.binding.future s.first (s.rest arguments).length)
          [g.context.adaptCallee callee])) = g.context.requests [callee] := by
        rw [Synthetic.call, Binding.future,
          Context.work_adapter (Context.isArrayMethod_future _ _ _), Context.requests_singleton,
          Context.markerKind?_adaptCallee, Context.requests_singleton]
      have h_future : g.context.work (.expression (g.context.futureCall span
          (g.context.adaptCallee callee) s.first (s.rest arguments))) =
            g.context.requests (s.rest arguments) := Context.work_call rfl rfl span
      simp only [g.context.work_adaptReceiver, h_call, h_pos, if_true, h_await, h_adapter,
        h_future] at h_total
      split at h_total <;> omega
  settled e h := by
    have h_settled := settle_settled h_rules (by omega) (settle_failure_of_visit h)
    exact (Context.work_of_isSettled h_settled).symm

/-- The calls that a run rewrites are those that arguments ask for, and those that stray markers ask
for. -/
theorem run_calls {p : Program} (h : (g.run p).failure = none) :
    (History.counts (g.run p).notes).calls =
      g.context.requested.sum p.listing + g.context.strayed.sum p.listing := by
  have h_declared (c : Counts) : (g.context.declarationCount p + c).calls = c.calls := by
    rw [Counts.add_calls, Context.declarationCount_eq, Nat.zero_add]
  rw [run_exact h_rules h_declared (accounting_work h_rules) h]
  exact Weight.sum_add _ _ _

end Engine

/-! ### Stray markers -/

namespace Context

variable {ctx : Context}

/-- A call has no stray marker if its callee, where it counts, and its receiver are no markers. -/
theorem isStray_call {span : Span} {callee : Expression} {arguments : List Expression} :
    ctx.isStray (.expression (.call span callee arguments)) = false ↔
      (0 < ctx.requests arguments → callee.markerKind? ctx.marker = none) ∧
      ∀ receiver, ctx.arrayReceiver? callee = some receiver →
        receiver.markerKind? ctx.marker = none := by
  simp only [isStray, Bool.or_eq_false_iff, Bool.and_eq_false_imp, decide_eq_true_eq,
    Option.isSome_eq_false_iff, Option.isNone_iff_eq_none, Option.any_eq_false]

/-- A marker that is neither consumed nor refused is none. -/
theorem unmarked_of_requests {e : Expression} {span : Span} (h_requests : ctx.requests [e] = 0)
    (h_refusal : ctx.refusal? span (e.markerKind? ctx.marker) = none) :
    e.markerKind? ctx.marker = none := by
  rw [requests_singleton] at h_requests
  -- plain and future markers ask for a rewrite, the others are refused
  cases h_kind : e.markerKind? ctx.marker with
  | none => rfl
  | some kind =>
    rw [h_kind] at h_requests h_refusal
    cases kind with
    | plain | future => simp at h_requests
    | promise | array => cases h_refusal

/-- No rewrites are done for stray markers if neither callee nor receiver asks for one. -/
theorem strayed_call {span : Span} {callee : Expression} {arguments : List Expression} :
    ctx.strayed (.expression (.call span callee arguments)) = 0 ↔
      (0 < ctx.requests arguments → ctx.requests [callee] = 0) ∧
      ∀ receiver, ctx.arrayReceiver? callee = some receiver → ctx.requests [receiver] = 0 := by
  rw [strayed, Nat.add_eq_zero_iff]
  refine and_congr ?_ ?_
  · -- the callee counts only if the call is rewritten at all
    split <;> simp_all
  · cases ctx.arrayReceiver? callee <;> simp

/-- No rewrites are done for stray markers where there are none. -/
theorem strayed_of_not_stray {n : Subtree} (h : ctx.isStray n = false) : ctx.strayed n = 0 := by
  unfold strayed
  split
  · rename_i span callee arguments
    obtain ⟨h_callee, h_receiver⟩ := isStray_call.1 h
    show ctx.strayed (.expression (.call span callee arguments)) = 0
    refine strayed_call.2 ⟨?_, ?_⟩
    · exact fun h_pos => requests_singleton_of_unmarked (h_callee h_pos)
    · exact fun receiver h_some => requests_singleton_of_unmarked (h_receiver receiver h_some)
  · rfl

/-- A stray marker that is not refused is the cause of a rewrite. -/
theorem not_stray_of_strayed {limit : Nat} {n : Subtree} (h_offence : ctx.offence? limit n = none)
    (h_strayed : ctx.strayed n = 0) : ctx.isStray n = false := by
  unfold isStray
  split
  · rename_i span callee arguments
    rw [offence?, Option.or_eq_none_iff, Option.or_eq_none_iff] at h_offence
    obtain ⟨-, h_callee, h_receiver⟩ := h_offence
    obtain ⟨h_callee', h_receiver'⟩ := strayed_call.1 h_strayed
    show ctx.isStray (.expression (.call span callee arguments)) = false
    refine isStray_call.2 ⟨?_, ?_⟩
    · -- the callee of a call that is rewritten becomes the argument of an adapter, and may be
      -- refused
      intro h_pos
      rw [calleeOffence?, if_pos (requests_pos_iff.1 h_pos)] at h_callee
      exact unmarked_of_requests (h_callee' h_pos) h_callee
    · intro receiver h_some
      obtain ⟨s, property, rfl, -⟩ := arrayReceiver?_eq_some.1 h_some
      by_cases h_needs : ctx.needsAdapter (.member s receiver property) = true
      · rw [receiverOffence?, if_pos h_needs] at h_receiver
        exact unmarked_of_requests (h_receiver' receiver h_some) h_receiver
      · -- the receiver is adapted already
        have h_adapted := isAdapted_of_needsAdapter_eq_false (Bool.eq_false_iff.2 h_needs) h_some
        exact markerKind?_of_isAdapted h_adapted _
  · rfl

/-- A call whose arguments can be treated is not refused unless it has a stray marker. -/
theorem offence_of_not_stray {limit : Nat} {n : Subtree}
    (h_treatable : ctx.isTreatable limit n = true) (h_stray : ctx.isStray n = false) :
    ctx.offence? limit n = none := by
  unfold offence?
  split
  · rename_i span callee arguments
    obtain ⟨h_callee, h_receiver⟩ := isStray_call.1 h_stray
    simp only [isTreatable, decide_eq_true_eq] at h_treatable
    obtain ⟨h_plain, h_promise, h_array, h_future⟩ := h_treatable
    rw [Option.or_eq_none_iff, Option.or_eq_none_iff]
    refine ⟨?_, ?_, ?_⟩
    · -- the arguments, the callee and the receiver are judged one after the other
      simp only [argumentOffence?, h_promise, h_array]
      rw [if_neg (by omega), if_neg (by omega), if_neg (by omega), if_neg (by omega)]
    · rw [calleeOffence?]
      split
      · rename_i h_pos
        rw [h_callee (requests_pos_iff.2 h_pos)]
        rfl
      · rfl
    · unfold receiverOffence?
      split
      · rename_i s receiver property
        split
        · rename_i h_needs
          rw [needsAdapter, Bool.and_eq_true] at h_needs
          rw [h_receiver receiver (arrayReceiver?_eq_some.2 ⟨s, property, rfl, h_needs.1⟩)]
          rfl
        · rfl
      · rfl
  · -- a construction is refused for its plain markers only
    rename_i span callee arguments
    simp only [isTreatable, decide_eq_true_eq] at h_treatable
    rw [if_neg (by omega)]
  · rfl

end Context

/-! ### Adapters -/

namespace Engine

variable {g : Engine} (h_rules : g.rules = Rule.all)

include h_rules

/-- A call of a member of the support module is left around its argument, unless this is a
marker. -/
theorem results_adapter {property : String}
    (h_property : g.context.config.isArrayMethod property = false) {e : Expression}
    (h_marker : e.markerKind? g.context.marker = none) {span : Span}
    (h : (g.visitor.visit
      (.expression (.call span (g.context.binding.member property) [e]))).failure = none) :
    g.visitor.results.expression (.call span (g.context.binding.member property) [e]) =
      .call span (g.context.binding.member property) [g.visitor.results.expression e] := by
  obtain ⟨left, h_left⟩ := g.exists_allowance
  -- the argument is no marker, so there is nothing for the call rule
  have h_plan : planCall? g.context.marker [e] = none := by
    rw [planCall?_eq_none_iff_forall, List.forall_mem_singleton]
    exact h_marker
  have h_callee : g.context.adaptCallee (g.context.binding.member property) =
      g.context.binding.member property :=
    Context.adaptCallee_eq_self (Context.needsAdapter_of_arrayReceiver?_eq_none
      (Context.arrayReceiver?_member h_property))
  -- the loop leaves the call as it is, and the visits leave its callee as it is
  obtain ⟨notes, -, h_settle⟩ := settle_unmarked h_rules h_plan span
    (g.context.binding.member property) left
  have h_member : g.visitor.results.expression (g.context.binding.member property) =
      g.context.binding.member property := by
    obtain ⟨-, h_value, -⟩ := visit_of_normal h_rules
      (Context.everywhere_member Context.isNormal_of_plain property)
    rw [← Visitor.results_apply] at h_value
    exact Subtree.expression.inj h_value
  rw [results_expression h, h_left, h_settle, h_callee, Expression.mapParts, h_member,
    List.map_singleton]

/-- A tree without offences is visited to the end, also when an adapter is put around it. -/
theorem visit_adapter {property : String}
    (h_property : g.context.config.isArrayMethod property = false) {e : Expression}
    (h_marker : e.markerKind? g.context.marker = none)
    (h : g.context.firstOffence? g.limit (.expression e) = none) (span : Span) :
    (g.visitor.visit (.expression (.call span (g.context.binding.member property) [e]))).failure =
      none := by
  have h_needs : g.context.needsAdapter (g.context.binding.member property) = false :=
    Context.needsAdapter_of_arrayReceiver?_eq_none (Context.arrayReceiver?_member h_property)
  rw [visit_failure_eq h_rules, Context.firstOffence_adapter h_needs, h, h_marker]
  rfl

/-- The adapters that are put around the callee of a call and the receiver in it are left around
them by a run without stray markers. -/
theorem results_adapters {p : Program} (h_run : (g.run p).failure = none)
    (h_stray : ∀ n ∈ p.listing, g.context.isStray n = false) {span : Span} {callee : Expression}
    {arguments : List Expression} (h_mem : .expression (.call span callee arguments) ∈ p.listing) :
    (∀ receiver, g.context.arrayReceiver? callee = some receiver →
      g.visitor.results.expression (g.context.adaptReceiver receiver) =
        .call receiver.span g.context.binding.array [g.visitor.results.expression receiver]) ∧
    (0 < g.context.requests arguments → ∀ i n,
      g.visitor.results.expression
          (Synthetic.call (g.context.binding.future i n) [g.context.adaptCallee callee]) =
        Synthetic.call (g.context.binding.future i n)
          [g.visitor.results.expression (g.context.adaptCallee callee)]) := by
  obtain ⟨h_callee, h_receiver⟩ := Context.isStray_call.1 (h_stray _ h_mem)
  -- there are no offences below the call, nor in its callee or in the receiver of that
  have h_offences := (run_failure_eq_none_iff_offences h_rules).1 h_run
  have h_below : (Subtree.expression (.call span callee arguments)).Everywhere
      (g.context.offence? g.limit · = none) := by
    rw [Program.forall_listing_iff] at h_offences
    exact Program.forall_listing_iff.2 (fun s hs => (h_offences s hs).below) _ h_mem
  have h_first : g.context.firstOffence? g.limit (.expression callee) = none :=
    List.findSome?_eq_none_iff.2 ((Subtree.everywhere_iff.1 h_below).2 _ (.head _))
  refine ⟨?_, ?_⟩
  · intro receiver h_some
    obtain ⟨s, property, rfl, -⟩ := Context.arrayReceiver?_eq_some.1 h_some
    have h_inside : g.context.firstOffence? g.limit (.expression receiver) = none :=
      (Context.firstOffence_single rfl rfl).symm.trans h_first
    have h_array := Context.isArrayMethod_array g.context.config
    exact results_adapter h_rules h_array (h_receiver receiver h_some)
      (visit_adapter h_rules h_array (h_receiver receiver h_some) h_inside receiver.span)
  · intro h_pos i n
    -- the callee has been adapted before it is wrapped, and that makes no marker of it
    have h_marker : (g.context.adaptCallee callee).markerKind? g.context.marker = none := by
      rw [Context.markerKind?_adaptCallee]
      exact h_callee h_pos
    have h_inside : g.context.firstOffence? g.limit (.expression (g.context.adaptCallee callee)) =
        none := by
      have h_top := h_offences _ h_mem
      rw [Context.offence?, Option.or_eq_none_iff, Option.or_eq_none_iff] at h_top
      rw [Context.firstOffence_adaptCallee, h_top.2.2, h_first]
      rfl
    have h_future := Context.isArrayMethod_future g.context.config i n
    exact results_adapter h_rules h_future h_marker
      (visit_adapter h_rules h_future h_marker h_inside .synthetic)

end Engine

/-! ### Sessions -/

/-- **Calls are rewritten for their arguments.** A program whose argument lists can be treated is
transformed, with as many calls rewritten as the markers among the arguments of its calls ask for,
if and only if it has no stray marker. The adapters that are made for its calls then stay around
what they were put around. -/
theorem Session.transform_rewrites_requested_iff {s : Session} (h_rules : s.rules = Rule.all)
    {file : FileDescriptor} (h_selected : s.selects file = true) {p : Program}
    (h_treatable : ∀ n ∈ p.listing, Context.isTreatable ⟨file, s.config⟩ s.limit n = true)
    (sink : Sink) :
    let ctx : Context := ⟨file, s.config⟩
    ((∃ output, (s.transform sink p file).1.result = .ok output ∧
        output.summary.counts.calls = ctx.requested.sum p.listing) ↔
      ∀ n ∈ p.listing, ctx.isStray n = false) ∧
    ((∀ n ∈ p.listing, ctx.isStray n = false) → ∀ span callee arguments,
      .expression (.call span callee arguments) ∈ p.listing →
      let left := (s.engine file).visitor.results.expression
      (∀ receiver, ctx.arrayReceiver? callee = some receiver →
        left (ctx.adaptReceiver receiver) = .call receiver.span ctx.binding.array [left receiver]) ∧
      (0 < ctx.requests arguments → ∀ i n,
        left (Synthetic.call (ctx.binding.future i n) [ctx.adaptCallee callee]) =
          Synthetic.call (ctx.binding.future i n) [left (ctx.adaptCallee callee)])) := by
  intro ctx
  have h_failure : ((s.engine file).run p).failure = none ↔
      ∀ n ∈ p.listing, ctx.offence? s.limit n = none :=
    Engine.run_failure_eq_none_iff_offences h_rules
  have h_total (h_run : ((s.engine file).run p).failure = none) :
      (History.counts ((s.engine file).run p).notes).calls =
        ctx.requested.sum p.listing + ctx.strayed.sum p.listing :=
    Engine.run_calls h_rules h_run
  -- without stray markers nothing is refused
  have h_ok (h_stray : ∀ n ∈ p.listing, ctx.isStray n = false) :
      ((s.engine file).run p).failure = none :=
    h_failure.2 fun n hn => Context.offence_of_not_stray (h_treatable n hn) (h_stray n hn)
  refine ⟨⟨?_, ?_⟩, ?_⟩
  · -- a stray marker would have been refused, or be the cause of another rewrite
    rintro ⟨output, h_output, h_calls⟩ n hn
    obtain ⟨h_run, rfl⟩ := (Session.transform_result_eq_ok h_selected).1 h_output
    have h_offence := h_failure.1 h_run n hn
    -- more calls than arguments ask for would have been counted
    have h_none : ctx.strayed.sum p.listing = 0 := by
      rw [h_total h_run] at h_calls
      omega
    exact Context.not_stray_of_strayed h_offence ((Weight.sum_eq_zero_iff _ _).1 h_none n hn)
  · intro h_stray
    have h_run := h_ok h_stray
    refine ⟨_, (Session.transform_result_eq_ok h_selected).2 ⟨h_run, rfl⟩, ?_⟩
    have h_none : ctx.strayed.sum p.listing = 0 :=
      (Weight.sum_eq_zero_iff _ _).2 fun n hn => Context.strayed_of_not_stray (h_stray n hn)
    rw [h_total h_run, h_none, Nat.add_zero]
  · intro h_stray span callee arguments h_mem
    exact Engine.results_adapters (g := s.engine file) h_rules (h_ok h_stray) h_stray h_mem

/-- In `xs.map_(g(!_, _), _)` both calls are rewritten for their plain markers, and that of `g` once
more for its future marker. -/
theorem Session.transform_rewrites_requested_nested :
    let s : Session := addMarkerRules { config := {}, selector := .always }
    let name (n : String) : Expression := .identifier .synthetic ⟨n, false⟩
    let inner : Expression :=
      .call .synthetic (name "g") [.unary .synthetic .not (name "_"), name "_"]
    let outer : Expression :=
      .call .synthetic (.member .synthetic (name "xs") ⟨"map_", false⟩) [inner, name "_"]
    ∃ output,
      (s.transform .collected ⟨[.expression {} outer], .synthetic⟩ {}).1.result = .ok output ∧
      output.summary.counts.calls = 3 := by
  intro s name inner outer
  obtain ⟨h_iff, -⟩ := Session.transform_rewrites_requested_iff (s := s)
    (Session.addMarkerRules_rules rfl) (show s.selects {} = true from rfl)
    (p := ⟨[.expression {} outer], .synthetic⟩) (by decide) .collected
  obtain ⟨output, h_output, h_calls⟩ := h_iff.2 (by decide)
  exact ⟨output, h_output, h_calls.trans (by decide)⟩

/-- No argument asks for a rewrite in `_.map_(f)`, and one does in `_(x, _)`; but one call more is
rewritten in each of them, for the marker that is the receiver or the callee. And `(void _).map_(f)`
is refused for its receiver. All three have argument lists that can be treated. -/
theorem Session.transform_consumes_stray_markers :
    let s : Session := addMarkerRules { config := {}, selector := .always }
    let ctx : Context := ⟨{}, {}⟩
    let name (n : String) : Expression := .identifier .synthetic ⟨n, false⟩
    let program (callee : Expression) (arguments : List Expression) : Program :=
      ⟨[.expression {} (.call .synthetic callee arguments)], .synthetic⟩
    let method (receiver : Expression) : Expression :=
      .member .synthetic receiver ⟨"map_", false⟩
    let receiving := program (method (name "_")) [name "f"]
    let calling := program (name "_") [name "x", name "_"]
    let refused := program (method (.unary .synthetic .void (name "_"))) [name "f"]
    (∀ p ∈ [receiving, calling, refused], ∀ n ∈ p.listing, ctx.isTreatable s.limit n = true) ∧
    ctx.requested.sum receiving.listing = 0 ∧
    (∃ output, (s.transform .collected receiving {}).1.result = .ok output ∧
      output.summary.counts.calls = 1) ∧
    ctx.requested.sum calling.listing = 1 ∧
    (∃ output, (s.transform .collected calling {}).1.result = .ok output ∧
      output.summary.counts.calls = 2) ∧
    ∃ d, (s.transform .collected refused {}).1.result = .error d := by
  intro s ctx name program method receiving calling refused
  have h_rules : s.rules = Rule.all := Session.addMarkerRules_rules rfl
  have h_selected : s.selects {} = true := rfl
  -- a run without an offence rewrites what is asked for and what is stray
  have h_counted (p : Program) (h : p.listing.findSome? (ctx.offence? s.limit) = none) :
      ∃ output, (s.transform .collected p {}).1.result = .ok output ∧
        output.summary.counts.calls = ctx.requested.sum p.listing + ctx.strayed.sum p.listing := by
    have h_run : ((s.engine {}).run p).failure = none := (Engine.run_failure h_rules p).trans h
    exact ⟨_, (Session.transform_result_eq_ok h_selected).2 ⟨h_run, rfl⟩,
      Engine.run_calls h_rules h_run⟩
  refine ⟨by decide, by decide, ?_, by decide, ?_, ?_⟩
  · obtain ⟨output, h_output, h_calls⟩ := h_counted receiving (by decide)
    exact ⟨output, h_output, h_calls.trans (by decide)⟩
  · obtain ⟨output, h_output, h_calls⟩ := h_counted calling (by decide)
    exact ⟨output, h_output, h_calls.trans (by decide)⟩
  · -- the receiver is refused on its own, whatever the arguments are
    refine ⟨.unsupported .promiseMarker (ctx.location .synthetic), ?_⟩
    rw [Session.transform, if_pos h_selected]
    refine Session.report_result_eq_error.2 ?_
    exact (Engine.run_failure (g := s.engine {}) h_rules refused).trans (by decide)

end AsyncMarkers
