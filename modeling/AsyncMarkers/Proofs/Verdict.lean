import AsyncMarkers.Proofs.Pass
import AsyncMarkers.Proofs.Report

/-!
# The verdict of a run

Whether a file can be transformed, and why not, can be read off its tree before anything is done to
it. `Context.offence?` says of a single node what is wrong with it, from its own arguments, its
callee and the receiver in its callee; a run stops with the offence of the first node in pre-order
that has one (`Session.transform_error_iff_first_offence`).

The run itself looks at another tree. It replaces calls and goes on into what it has put there, it
moves callees and receivers into the arguments of calls that it makes up, and it counts replacements
anew at every call that it comes to. What carries the proof is that none of this changes the *first
offence* of a tree (`Engine.hook_firstOffence`):

* a substituted call has the markers of the old one but for those that are gone, and the allowance
  for replacements goes down as the future markers do (`Context.callOffence_substituted`,
  `Engine.settle_offence_of_no_plain`);
* a callee or receiver that is moved into an argument list is refused there exactly if it is a
  promise or an array marker (`Context.firstOffence_adapter`);
* markers have no offences in them, so those that are taken out are not missed;
* the nodes that complete a function or declare the binding are plain, and plain nodes have no
  offences (`Context.offence_of_plain`).
-/

namespace AsyncMarkers

namespace Context

variable (ctx : Context)

/-! ### Offences -/

/-- Why a call is refused that has a single marker of the given kind, if it is. -/
def refusal? (span : Span) : Option MarkerKind → Option Diagnostic
  | some .promise => some (.unsupported .promiseMarker (ctx.location span))
  | some .array => some (.unsupported .arrayMarker (ctx.location span))
  | _ => none

/-- What is wrong with the arguments of a call that may be replaced `allowed` times. -/
def argumentOffence? (limit allowed : Nat) (span : Span) (arguments : List Expression) :
    Option Diagnostic :=
  let count kind := markerCount ctx.marker kind arguments
  if 3 ≤ count .plain then
    some (.tooManyMarkers ctx.marker (count .plain) (ctx.location span))
  else if allowed ≤ count .future ∧
    (allowed < count .future ∨ 0 < count .promise + count .array) then
    some (.replacementLimit ctx.marker limit (ctx.location span))
  else if 0 < count .promise then some (.unsupported .promiseMarker (ctx.location span))
  else if 0 < count .array then some (.unsupported .arrayMarker (ctx.location span))
  else none

/-- What is wrong with the callee of a call that is substituted: it becomes the argument of an
adapter, which has no place in the source text. -/
def calleeOffence? (callee : Expression) (arguments : List Expression) : Option Diagnostic :=
  if 0 < markerCount ctx.marker .plain arguments + markerCount ctx.marker .future arguments then
    ctx.refusal? .synthetic (callee.markerKind? ctx.marker)
  else none

/-- What is wrong with the receiver of an array method that is to be adapted: it becomes the
argument of the array adapter, which stands where the receiver stood. -/
def receiverOffence? (callee : Expression) : Option Diagnostic :=
  match callee with
  | .member _ receiver _ =>
    if ctx.needsAdapter callee then
      ctx.refusal? receiver.span (receiver.markerKind? ctx.marker)
    else none
  | _ => none

/-- What is wrong with a node, if calls may be replaced `limit` times (at least once). -/
def offence? (limit : Nat) : Subtree → Option Diagnostic
  | .expression (.call span callee arguments) =>
    (ctx.argumentOffence? limit (max 1 limit) span arguments).or
      ((ctx.calleeOffence? callee arguments).or (ctx.receiverOffence? callee))
  | .expression (.construct span _ arguments) =>
    if 0 < markerCount ctx.marker .plain arguments then
      some (.unsupported .asyncConstructor (ctx.location span))
    else none
  | _ => none

/-- The first offence in a tree, in pre-order. -/
def firstOffence? (limit : Nat) (t : Subtree) : Option Diagnostic :=
  t.listing.findSome? (ctx.offence? limit)

/-- The first offence below a node, in pre-order. -/
def offenceBelow? (limit : Nat) (t : Subtree) : Option Diagnostic :=
  t.parts.findSome? (ctx.firstOffence? limit)

section FirstOffence

variable {ctx : Context} {limit : Nat}

/-- The first offence in several listings is found tree by tree. -/
theorem findSome?_flatMap_listing (ts : List Subtree) :
    (ts.flatMap Subtree.listing).findSome? (ctx.offence? limit) =
      ts.findSome? (ctx.firstOffence? limit) := by
  induction ts with
  | nil => rfl
  | cons t ts ih =>
    rw [List.flatMap_cons, List.findSome?_append, ih, findSome?_cons_or]
    rfl

/-- The first offence in a tree is that of the node on top, or else the first one below it. -/
theorem firstOffence_eq (t : Subtree) :
    ctx.firstOffence? limit t = (ctx.offence? limit t).or (ctx.offenceBelow? limit t) := by
  rw [firstOffence?, Subtree.listing_eq, findSome?_cons_or, findSome?_flatMap_listing]
  rfl

/-- A node with a single part and no offence of its own has the first offence of the part. -/
theorem firstOffence_single {t part : Subtree} (h : ctx.offence? limit t = none)
    (h_parts : t.parts = [part]) : ctx.firstOffence? limit t = ctx.firstOffence? limit part := by
  rw [firstOffence_eq, h, offenceBelow?, h_parts, findSome?_cons_or, List.findSome?_nil,
    Option.none_or, Option.or_none]

/-- The first offence in the arguments of a call. -/
def argumentsOffence? (ctx : Context) (limit : Nat) (arguments : List Expression) :
    Option Diagnostic :=
  arguments.findSome? fun e => ctx.firstOffence? limit (.expression e)

/-- Below a call there are its callee and then its arguments. -/
theorem offenceBelow_call (span : Span) (callee : Expression) (arguments : List Expression) :
    ctx.offenceBelow? limit (.expression (.call span callee arguments)) =
      (ctx.firstOffence? limit (.expression callee)).or
        (ctx.argumentsOffence? limit arguments) := by
  rw [offenceBelow?, Subtree.parts, Expression.parts, findSome?_cons_or, List.findSome?_map]
  rfl

/-- The first offence in a call that may be replaced `allowed` times: that of its arguments, of its
callee or of the receiver in that, or else the first one below it. -/
def callOffence? (ctx : Context) (limit allowed : Nat) (span : Span) (callee : Expression)
    (arguments : List Expression) : Option Diagnostic :=
  (ctx.argumentOffence? limit allowed span arguments).or
    ((ctx.calleeOffence? callee arguments).or
      ((ctx.receiverOffence? callee).or
        ((ctx.firstOffence? limit (.expression callee)).or
          (ctx.argumentsOffence? limit arguments))))

/-- The first offence in a call, in the order in which the offences of a call are looked for. -/
theorem firstOffence_call (span : Span) (callee : Expression) (arguments : List Expression) :
    ctx.firstOffence? limit (.expression (.call span callee arguments)) =
      ctx.callOffence? limit (max 1 limit) span callee arguments := by
  rw [firstOffence_eq, offenceBelow_call, offence?, callOffence?, Option.or_assoc, Option.or_assoc]

/-- The first offence in some trees is the first thing that is gathered from them when the offences
are. -/
theorem findSome?_firstOffence (ts : List Subtree) :
    ts.findSome? (ctx.firstOffence? limit) =
      (ts.flatMap (Subtree.gather fun n => (ctx.offence? limit n).toList)).head? := by
  rw [List.head?_flatMap]
  refine findSome?_congr fun t _ => ?_
  simp only [firstOffence?, Subtree.gather, List.head?_flatMap, Option.head?_toList]

/-! ### Arguments -/

/-- A call that the call rule refuses has an offence in its arguments, however often it may be
replaced. -/
theorem argumentOffence_of_refused {span : Span} {arguments : List Expression} {d : Diagnostic}
    (h : ctx.substitution? span arguments = .error d) {allowed : Nat} (h_allowed : 0 < allowed) :
    ctx.argumentOffence? limit allowed span arguments = some d := by
  -- the treatment says which markers there are when a call is refused
  have h_treatment := ctx.substitution?_treatment span arguments
  rw [h] at h_treatment
  cases h_treatment with
  | crowded h_plain => rw [argumentOffence?, if_pos h_plain]
  | promise h_plain h_future h_promise =>
    simp only [argumentOffence?, h_plain, h_future]
    rw [if_neg (by omega), if_neg (by omega), if_pos h_promise]
  | array h_plain h_future h_promise h_array =>
    simp only [argumentOffence?, h_plain, h_future, h_promise]
    rw [if_neg (by omega), if_neg (by omega), if_neg (by omega), if_pos h_array]

/-- A call without markers has no offence in its arguments. -/
theorem argumentOffence_of_unmarked {arguments : List Expression}
    (h : planCall? ctx.marker arguments = none) {allowed : Nat} (h_allowed : 0 < allowed)
    (span : Span) : ctx.argumentOffence? limit allowed span arguments = none := by
  simp only [argumentOffence?, planCall?_eq_none.1 h]
  rw [if_neg (by omega), if_neg (by omega), if_neg (by omega), if_neg (by omega)]

/-- A call without markers does not make an argument of its callee. -/
theorem calleeOffence_of_unmarked {arguments : List Expression}
    (h : planCall? ctx.marker arguments = none) (callee : Expression) :
    ctx.calleeOffence? callee arguments = none := by
  rw [calleeOffence?, planCall?_eq_none.1 h, planCall?_eq_none.1 h, if_neg (by omega)]

/-- Taking a future marker out of the arguments uses up one replacement. -/
theorem argumentOffence_future {before after : List Expression} {e : Expression}
    (h_kind : e.markerKind? ctx.marker = some .future) (allowed : Nat) (span : Span) :
    ctx.argumentOffence? limit (allowed + 1) span (before ++ e :: after) =
      ctx.argumentOffence? limit allowed span (before ++ after) := by
  -- both counts and the allowance go down by one, and nothing else in the condition changes
  simp only [argumentOffence?, markerCount_middle, h_kind]
  simp

/-- What is wrong with a call that may not be replaced any more: it has markers. -/
theorem argumentOffence_exhausted {arguments : List Expression}
    (h_plain : markerCount ctx.marker .plain arguments = 0) (span : Span) :
    ctx.argumentOffence? limit 0 span arguments =
      if (planCall? ctx.marker arguments).isSome then
        some (.replacementLimit ctx.marker limit (ctx.location span))
      else none := by
  cases h_plan : planCall? ctx.marker arguments with
  | none =>
    simp [argumentOffence?, planCall?_eq_none.1 h_plan]
  | some plan =>
    -- there is a plan, so some marker is counted, and it is not a plain one
    have h_some : 0 < markerCount ctx.marker .future arguments ∨
        0 < markerCount ctx.marker .promise arguments +
          markerCount ctx.marker .array arguments := by
      refine Decidable.byContradiction fun h_none => ?_
      have h_zero : planCall? ctx.marker arguments = none := by
        rw [planCall?_eq_none]
        intro kind
        cases kind <;> omega
      rw [h_plan] at h_zero
      cases h_zero
    simp only [argumentOffence?, h_plain]
    rw [if_neg (by omega), if_pos ⟨Nat.zero_le _, h_some⟩]
    rfl

/-! ### Plain nodes -/

/-- If no adapter is needed, nothing becomes of the receiver. -/
theorem receiverOffence_of_adapted {callee : Expression} (h : ctx.needsAdapter callee = false) :
    ctx.receiverOffence? callee = none := by
  cases callee with
  | member s receiver property => rw [receiverOffence?, h]; rfl
  | _ => rfl

/-- Plain nodes have no offence. -/
theorem offence_of_plain (limit : Nat) (n : Subtree) (h : ctx.Plain n) :
    ctx.offence? limit n = none := by
  cases h with
  | statement s => rfl
  | function h_params => rfl
  | @expression e h_shape =>
    cases e with
    | call _ _ _ | construct _ _ _ => cases h_shape
    | _ => rfl
  | call span h_callee h_plan =>
    rw [offence?, argumentOffence_of_unmarked h_plan (by omega), calleeOffence_of_unmarked h_plan,
      receiverOffence_of_adapted (needsAdapter_of_arrayReceiver?_eq_none h_callee)]
    rfl

/-- Nothing is gathered from plain nodes when offences are. -/
theorem offences_of_plain (limit : Nat) (n : Subtree) (h : ctx.Plain n) :
    (ctx.offence? limit n).toList = [] := by
  rw [offence_of_plain limit n h, Option.toList_none]

/-- There is nothing wrong inside a marker. -/
theorem firstOffence_of_marker {e : Expression} (h : (e.markerKind? ctx.marker).isSome) :
    ctx.firstOffence? limit (.expression e) = none := by
  -- a marker is a plain node, with plain nodes below it
  have h_none : [Subtree.expression e].findSome? (ctx.firstOffence? limit) = none := by
    rw [findSome?_firstOffence, List.flatMap_singleton, gather_marker (offences_of_plain limit) h]
    rfl
  exact List.findSome?_eq_none_iff.1 h_none _ (List.mem_singleton_self _)

/-- Arguments that are not there any more were markers, and had no offences in them. -/
theorem argumentsOffence_stripped (limit : Nat) {es es' : List Expression}
    (h : Stripped ctx.marker es es') :
    ctx.argumentsOffence? limit es' = ctx.argumentsOffence? limit es := by
  induction h with
  | nil => rfl
  -- what is kept is looked at in the same order as before
  | keep e _ ih => simp only [argumentsOffence?, findSome?_cons_or] at ih ⊢; rw [ih]
  | drop h_marker _ ih =>
    simp only [argumentsOffence?, findSome?_cons_or] at ih ⊢
    rw [ih, firstOffence_of_marker h_marker, Option.none_or]

/-- Completing a function does not change its first offence. -/
theorem offenceBelow_complete (f : Function) :
    ctx.offenceBelow? limit (.function (ctx.complete f).node) =
      ctx.offenceBelow? limit (.function f) := by
  rw [offenceBelow?, offenceBelow?, findSome?_firstOffence, findSome?_firstOffence]
  exact congrArg List.head? (gather_complete (offences_of_plain limit) f)

/-! ### Calls that rules make up -/

/-- There is nothing wrong with a reference to a member of the support module. -/
theorem firstOffence_member (property : String) :
    ctx.firstOffence? limit (.expression (ctx.binding.member property)) = none := rfl

/-- A single argument is refused for what it is itself. -/
theorem argumentOffence_singleton {allowed : Nat} (h : 0 < allowed) (span : Span) (e : Expression) :
    ctx.argumentOffence? limit allowed span [e] = ctx.refusal? span (e.markerKind? ctx.marker) := by
  cases h_kind : e.markerKind? ctx.marker with
  | none => simp [argumentOffence?, refusal?, markerCount_cons, h_kind]
  | some kind => cases kind <;> simp [argumentOffence?, refusal?, markerCount_cons,
      h_kind] <;> omega

/-- A call of a member of the support module with a single argument is refused exactly if the
argument is a promise or an array marker. -/
theorem firstOffence_adapter {property : String}
    (h : ctx.needsAdapter (ctx.binding.member property) = false) (span : Span) (e : Expression) :
    ctx.firstOffence? limit (.expression (.call span (ctx.binding.member property) [e])) =
      (ctx.refusal? span (e.markerKind? ctx.marker)).or
        (ctx.firstOffence? limit (.expression e)) := by
  -- a reference to a member is no marker
  have h_callee : ctx.calleeOffence? (ctx.binding.member property) [e] = none := by
    simp [calleeOffence?, Binding.member, Synthetic.member, Expression.markerKind?, refusal?]
  rw [firstOffence_call, callOffence?, argumentOffence_singleton (by omega), h_callee,
    receiverOffence_of_adapted h, firstOffence_member, argumentsOffence?, findSome?_cons_or,
    List.findSome?_nil]
  simp only [Option.none_or, Option.or_none]

/-- Adapting the receiver of a callee makes its offence one of the callee. -/
theorem firstOffence_adaptCallee (callee : Expression) :
    ctx.firstOffence? limit (.expression (ctx.adaptCallee callee)) =
      (ctx.receiverOffence? callee).or (ctx.firstOffence? limit (.expression callee)) := by
  have h_member (s : Span) (base : Expression) (property : Identifier) :
      ctx.firstOffence? limit (.expression (.member s base property)) =
        ctx.firstOffence? limit (.expression base) := firstOffence_single rfl rfl
  rcases ctx.adaptCallee_cases callee with ⟨h_needs, h⟩ | ⟨s, receiver, property, rfl, h_needs, h⟩
  · rw [h, receiverOffence_of_adapted h_needs, Option.none_or]
  · rw [h, h_member, h_member, adaptReceiver, Binding.array,
      firstOffence_adapter (needsAdapter_array ctx), receiverOffence?, if_pos h_needs]

/-- The first offence below a substituted call: its callee has become the argument of an adapter. -/
theorem offenceBelow_futureCall (span : Span) (callee : Expression) (index : Nat)
    (rest : List Expression) :
    ctx.offenceBelow? limit
        (.expression (ctx.futureCall span (ctx.adaptCallee callee) index rest)) =
      (ctx.refusal? .synthetic (callee.markerKind? ctx.marker)).or
        ((ctx.receiverOffence? callee).or
          ((ctx.firstOffence? limit (.expression callee)).or
            (ctx.argumentsOffence? limit rest))) := by
  rw [futureCall, offenceBelow_call, Synthetic.call, Binding.future,
    firstOffence_adapter (needsAdapter_future ctx index rest.length), markerKind?_adaptCallee,
    firstOffence_adaptCallee, Option.or_assoc, Option.or_assoc]

/-! ### Offences of calls -/

variable {span : Span} {arguments : List Expression} {allowed : Nat}

/-- A call that is refused has that refusal for its first offence. -/
theorem callOffence_of_refused {d : Diagnostic} (h : ctx.substitution? span arguments = .error d)
    (h_allowed : 0 < allowed) (callee : Expression) :
    ctx.callOffence? limit allowed span callee arguments = some d := by
  rw [callOffence?, argumentOffence_of_refused h h_allowed, Option.some_or]

/-- A call without markers has its first offence below what the call rule leaves of it. -/
theorem callOffence_of_unmarked (h : planCall? ctx.marker arguments = none)
    (h_allowed : 0 < allowed) (span : Span) (callee : Expression) :
    ctx.callOffence? limit allowed span callee arguments =
      ctx.offenceBelow? limit (.expression (.call span (ctx.adaptCallee callee) arguments)) := by
  rw [callOffence?, argumentOffence_of_unmarked h h_allowed, calleeOffence_of_unmarked h,
    offenceBelow_call, firstOffence_adaptCallee]
  simp only [Option.none_or, Option.or_assoc]

/-- A substituted call has a call in the place of its callee, which is neither a marker nor an array
method. -/
theorem callOffence_futureCall (span : Span) (callee : Expression) (index : Nat)
    (rest : List Expression) :
    ctx.callOffence? limit allowed span (Synthetic.call (ctx.binding.future index rest.length)
        [callee]) rest =
      (ctx.argumentOffence? limit allowed span rest).or
        (ctx.offenceBelow? limit (.expression (ctx.futureCall span callee index rest))) := by
  have h_callee : ctx.calleeOffence?
      (Synthetic.call (ctx.binding.future index rest.length) [callee]) rest = none := by
    simp [calleeOffence?, Synthetic.call, Expression.markerKind?, refusal?]
  rw [callOffence?, h_callee, futureCall, offenceBelow_call]
  rfl

/-- Substituting a call does not change its first offence, as long as its arguments are judged as
before. -/
theorem callOffence_substituted {s : Substitution} {allowed' : Nat}
    (h : ctx.substitution? span arguments = .ok (some s))
    (h_arguments : ctx.argumentOffence? limit allowed' span (s.rest arguments) =
      ctx.argumentOffence? limit allowed span arguments) (callee : Expression) :
    ctx.callOffence? limit allowed span callee arguments =
      ctx.callOffence? limit allowed' span
        (Synthetic.call (ctx.binding.future s.first (s.rest arguments).length)
          [ctx.adaptCallee callee]) (s.rest arguments) := by
  have h_callee : ctx.calleeOffence? callee arguments =
      ctx.refusal? .synthetic (callee.markerKind? ctx.marker) :=
    if_pos (markerCount_pos_of_substituted h)
  rw [callOffence_futureCall, offenceBelow_futureCall, h_arguments,
    argumentsOffence_stripped limit (stripped_rest h), ← h_callee, callOffence?]

end FirstOffence

end Context

/-! ### The replacement loop -/

namespace Engine

/-- What a run that has settled an expression in this way will come to first: why it has stopped
already, or else the first offence below what it has left. -/
def offenceAfter? (g : Engine) (w : Visit Record Diagnostic Expression) : Option Diagnostic :=
  w.failure.or (g.context.offenceBelow? g.limit (.expression w.value))

variable {g : Engine} (h_rules : g.rules = Rule.all)

include h_rules

/-- One round of the loop at a call without plain markers that may be replaced `left + 1` times,
from what the later rounds do. -/
theorem settle_offence_step {left : Nat} (span : Span)
    (h_later : left ≠ 0 → ∀ callee arguments,
      markerCount g.context.marker .plain arguments = 0 →
      g.offenceAfter? (g.settle left (.call span callee arguments)) =
        g.context.callOffence? g.limit left span callee arguments)
    (callee : Expression) (arguments : List Expression)
    (h_plain : markerCount g.context.marker .plain arguments = 0) :
    g.offenceAfter? (g.settle (left + 1) (.call span callee arguments)) =
      g.context.callOffence? g.limit (left + 1) span callee arguments := by
  -- refused, unmarked or with a future marker; there is no plain marker that could be awaited
  have h_treatment := g.context.substitution?_treatment span arguments
  cases h_sub : g.context.substitution? span arguments with
  | error d =>
    rw [settle_of_error h_rules (Context.transformCall_error h_sub),
      Context.callOffence_of_refused h_sub (Nat.succ_pos left)]
    rfl
  | ok substitution =>
    rw [h_sub] at h_treatment
    cases h_treatment with
    | unmarked h_none =>
      have h_plan := Context.substitution?_eq_ok_none_iff.1 h_sub
      obtain ⟨notes, -, h_settle⟩ := settle_unmarked h_rules h_plan span callee left
      rw [h_settle, Context.callOffence_of_unmarked h_plan (Nat.succ_pos left)]
      rfl
    | awaited s h_pos =>
      rw [h_plain] at h_pos
      exact absurd h_pos (Nat.lt_irrefl 0)
    | future s before e after _ h_split h_kind h_awaited h_rest =>
      -- one future marker is gone, and one replacement less is allowed
      have h_arguments : g.context.argumentOffence? g.limit left span (s.rest arguments) =
          g.context.argumentOffence? g.limit (left + 1) span arguments := by
        rw [h_rest, h_split, Context.argumentOffence_future h_kind]
      have h_plain_rest : markerCount g.context.marker .plain (s.rest arguments) = 0 := by
        rw [h_split, markerCount_middle] at h_plain
        rw [h_rest]
        exact Nat.eq_zero_of_add_eq_zero_right h_plain
      obtain ⟨note, h_settle⟩ := settle_future h_rules h_sub h_awaited callee left
      rw [h_settle, Context.callOffence_substituted h_sub h_arguments]
      dsimp only
      by_cases h_left : left = 0
      · -- this was the last replacement that is allowed, so whatever is pending now is the offence
        subst h_left
        rw [if_pos rfl, Context.callOffence_futureCall,
          Context.argumentOffence_exhausted h_plain_rest]
        cases h_pending : (planCall? g.context.marker (s.rest arguments)).isSome with
        | true =>
          simp only [Context.isPending, Context.futureCall, h_pending, if_true]
          rfl
        | false =>
          simp only [Context.isPending, Context.futureCall, h_pending]
          rfl
      · rw [if_neg h_left]
        exact h_later h_left _ _ h_plain_rest

/-- Settling a call without plain markers that may be replaced `left + 1` times. The induction is on
what is left: each replacement takes one future marker out of the call. -/
theorem settle_offence_of_no_plain (span : Span) (left : Nat) (callee : Expression)
    (arguments : List Expression) (h_plain : markerCount g.context.marker .plain arguments = 0) :
    g.offenceAfter? (g.settle (left + 1) (.call span callee arguments)) =
      g.context.callOffence? g.limit (left + 1) span callee arguments := by
  induction left generalizing callee arguments with
  | zero =>
    exact settle_offence_step h_rules span (fun h_left => absurd rfl h_left) callee arguments
      h_plain
  | succ left ih =>
    exact settle_offence_step h_rules span (fun _ => ih) callee arguments h_plain

/-- Settling a call with one or two plain markers: the call that is waited for has the other
markers, and is settled when the walk comes to it. -/
theorem settle_offence_of_awaited {span : Span} {arguments : List Expression} {s : Substitution}
    (h_sub : g.context.substitution? span arguments = .ok (some s)) (h_awaited : s.awaited = true)
    (h_rest : s.rest arguments = withoutMarkers g.context.marker .plain arguments)
    (h_le : markerCount g.context.marker .plain arguments ≤ 2) (callee : Expression) (left : Nat) :
    g.offenceAfter? (g.settle (left + 1) (.call span callee arguments)) =
      g.context.firstOffence? g.limit (.expression (.call span callee arguments)) := by
  -- the plain markers have been taken out, and there were not too many of them
  have h_arguments : g.context.argumentOffence? g.limit (max 1 g.limit) span (s.rest arguments) =
      g.context.argumentOffence? g.limit (max 1 g.limit) span arguments := by
    simp only [h_rest, Context.argumentOffence?, markerCount_withoutMarkers, if_true, reduceCtorEq,
      if_false]
    rw [if_neg (by omega : ¬3 ≤ 0), if_neg (by omega : ¬3 ≤ markerCount _ _ arguments)]
  obtain ⟨notes, h_settle⟩ := settle_awaited h_rules h_sub h_awaited callee left
  rw [h_settle]
  calc g.offenceAfter? _
    _ = g.context.firstOffence? g.limit (.expression (g.context.futureCall span
          (g.context.adaptCallee callee) s.first (s.rest arguments))) := by
      rw [offenceAfter?, Option.none_or, Context.offenceBelow_call, Binding.await,
        Context.firstOffence_member, Option.none_or, Context.argumentsOffence?, findSome?_cons_or,
        List.findSome?_nil, Option.or_none]
    _ = g.context.firstOffence? g.limit (.expression (.call span callee arguments)) := by
      rw [Context.futureCall, Context.firstOffence_call, Context.firstOffence_call,
        Context.callOffence_substituted h_sub h_arguments]

/-- Settling an expression does not change its first offence. -/
theorem settle_offence (e : Expression) :
    g.offenceAfter? (g.settle (max 1 g.limit) e) =
      g.context.firstOffence? g.limit (.expression e) := by
  obtain ⟨left, h_left⟩ := g.exists_allowance
  cases e with
  | call span callee arguments =>
    -- with plain markers the call is awaited and the rest is judged afterwards, as a call of its
    -- own
    by_cases h_plain : markerCount g.context.marker .plain arguments = 0
    · rw [h_left, settle_offence_of_no_plain h_rules span left callee arguments h_plain, ← h_left,
        Context.firstOffence_call]
    · have h_treatment := g.context.substitution?_treatment span arguments
      cases h_sub : g.context.substitution? span arguments with
      | error d =>
        rw [h_left, settle_of_error h_rules (Context.transformCall_error h_sub),
          Context.firstOffence_call, Context.callOffence_of_refused h_sub (by omega)]
        rfl
      | ok substitution =>
        rw [h_sub] at h_treatment
        cases h_treatment with
        | awaited s h_pos h_le h_awaited h_rest =>
          rw [h_left]
          exact settle_offence_of_awaited h_rules h_sub h_awaited h_rest h_le callee left
        | future s _ _ _ h_zero => exact absurd h_zero h_plain
        | unmarked h_zero => exact absurd (h_zero .plain) h_plain
  -- a construction is not replaced, so it has its own offence or those of its parts
  | construct span callee arguments =>
    rw [h_left, settle_construct h_rules, Context.firstOffence_eq, Context.offence?]
    by_cases h_marked : hasPlainMarker g.context.marker arguments = true
    · rw [if_pos h_marked, if_pos (hasPlainMarker_iff.1 h_marked)]
      rfl
    · rw [if_neg h_marked, if_neg (mt hasPlainMarker_iff.2 h_marked)]
      rfl
  | _ =>
    rw [settle_of_not_offered rfl, Context.firstOffence_eq]
    rfl

/-! ### The walk -/

/-- What the hook does to a node does not change the first offence of its tree. -/
theorem hook_firstOffence (t : Subtree) :
    (g.visitor.hook t).failure.or (g.context.offenceBelow? g.limit (g.visitor.hook t).value) =
      g.context.firstOffence? g.limit t := by
  cases t with
  | statement s => rw [hook_statement, Context.firstOffence_eq]; rfl
  | function f =>
    rw [hook_function_failure h_rules, hook_function_value h_rules, Context.offenceBelow_complete,
      Context.firstOffence_eq]
    rfl
  | expression e => exact settle_offence h_rules e

/-- A visit fails with the first offence of the tree that it is given. -/
theorem visit_failure_eq (t : Subtree) :
    (g.visitor.visit t).failure = g.context.firstOffence? g.limit t := by
  -- the walk fails at the hook or else in the first of the parts that fails
  induction t using g.visitor.visit_induction with
  | step t ih =>
    rw [Visitor.visit_failure, ← hook_firstOffence h_rules, Context.offenceBelow?,
      findSome?_congr ih]

/-- A run fails with the first offence of the program that it is given. -/
theorem run_failure (p : Program) :
    (g.run p).failure = p.listing.findSome? (g.context.offence? g.limit) := by
  obtain ⟨h_value, -, h_hook⟩ := hook_program h_rules p
  calc (g.run p).failure
    _ = ((g.context.declaredBody p).map .statement).findSome?
          (g.context.firstOffence? g.limit) := by
      rw [run, ← Visit.ending_failure, Visitor.visitProgram_ending, Visit.followedBy_failure,
        Visit.ending_failure, h_hook, Option.none_or, Visitor.visitAll_failure, h_value,
        findSome?_congr fun t _ => visit_failure_eq h_rules t]
    _ = (p.body.map .statement).findSome? (g.context.firstOffence? g.limit) := by
      rw [Context.findSome?_firstOffence, Context.findSome?_firstOffence,
        Context.gather_declaredBody (Context.offences_of_plain g.limit)]
    _ = p.listing.findSome? (g.context.offence? g.limit) := by
      rw [Program.listing_eq, Context.findSome?_flatMap_listing]

/-- A run comes to its end exactly if no node of the program has an offence. -/
theorem run_failure_eq_none_iff_offences {p : Program} :
    (g.run p).failure = none ↔ ∀ n ∈ p.listing, g.context.offence? g.limit n = none := by
  rw [run_failure h_rules, List.findSome?_eq_none_iff]

end Engine

/-! ### The report -/

/-- A file whose tree has no offence is transformed. -/
theorem Session.transform_ok_of_no_offence {s : Session} (h_rules : s.rules = Rule.all)
    {file : FileDescriptor} (h_selected : s.selects file = true) {p : Program}
    (h : p.listing.findSome? (Context.offence? ⟨file, s.config⟩ s.limit) = none) (sink : Sink) :
    ∃ output, (s.transform sink p file).1.result = .ok output := by
  refine ⟨_, (Session.transform_result_eq_ok h_selected).2 ⟨?_, rfl⟩⟩
  rw [Engine.run_failure h_rules]
  exact h

/-- A program with an offence is refused. -/
theorem Session.transform_error_of_offence {s : Session} (h_rules : s.rules = Rule.all)
    {file : FileDescriptor} (h_selected : s.selects file = true) {p : Program} {d : Diagnostic}
    (h : p.listing.findSome? (Context.offence? ⟨file, s.config⟩ s.limit) = some d) (sink : Sink) :
    (s.transform sink p file).1.result = .error d := by
  rw [Session.transform_of_selected h_selected, Session.report_result_eq_error,
    Engine.run_failure h_rules]
  exact h

/-- **The verdict of a run.** A file that is selected is refused exactly if some node of its tree
has an offence. The diagnostic is then the offence of the first such node in pre-order, and it is
the one diagnostic that is reported; nothing is reported of a file that is transformed. -/
theorem Session.transform_error_iff_first_offence {s : Session} (h_rules : s.rules = Rule.all)
    {file : FileDescriptor} (h_selected : s.selects file = true) (p : Program) :
    let offence? := Context.offence? ⟨file, s.config⟩ s.limit
    let report := (s.transform .collected p file).1
    ((∃ d, report.result = .error d) ↔ ∃ n ∈ p.listing, (offence? n).isSome) ∧
    (∀ d, report.result = .error d ↔
      ∃ before n after, p.listing = before ++ n :: after ∧ offence? n = some d ∧
        ∀ earlier ∈ before, offence? earlier = none) ∧
    (∀ d, report.result = .error d → report.diagnostics = [d]) ∧
    (∀ output, report.result = .ok output → report.diagnostics = []) := by
  intro offence? report
  -- the report of a file that is selected is the report of a run
  have h_report : report = Session.report .collected file ((s.engine file).run p) := by
    rw [show report = (s.transform .collected p file).1 from rfl, Session.transform,
      if_pos h_selected]
  have h_failure : ((s.engine file).run p).failure = p.listing.findSome? offence? :=
    Engine.run_failure h_rules p
  have h_error (d : Diagnostic) : report.result = .error d ↔
      p.listing.findSome? offence? = some d := by
    rw [h_report, Session.report_result_eq_error, h_failure]
  have h_diagnostics : report.diagnostics = (p.listing.findSome? offence?).toList := by
    rw [h_report, Session.report_diagnostics, h_failure]
  refine ⟨?_, fun d => ?_, fun d h => ?_, fun output h => ?_⟩
  · simp only [h_error]
    rw [← Option.isSome_iff_exists, List.findSome?_isSome_iff]
  · rw [h_error, List.findSome?_eq_some_iff]
  · rw [h_diagnostics, (h_error d).1 h, Option.toList_some]
  · -- what has an output has no first offence
    cases h_first : p.listing.findSome? offence? with
    | none => rw [h_diagnostics, h_first, Option.toList_none]
    | some d => rw [(h_error d).2 h_first] at h; cases h

/-- In `f(g(!_, !_), _)` the call of `f` can be substituted, and that of `g` is refused if calls may
be replaced only once. -/
theorem Session.transform_error_at_nested_call :
    let s : Session :=
      { Session.addMarkerRules { config := {}, selector := .always } with limit := 1 }
    let name (n : String) : Expression := .identifier (.at 3 1 2) ⟨n, false⟩
    let waiting : Expression := .unary (.at 3 4 6) .not (name "_")
    let inner : Expression := .call (.at 3 2 9) (name "g") [waiting, waiting]
    let p : Program :=
      ⟨[.expression {} (.call (.at 3 0 13) (name "f") [inner, name "_"])], .synthetic⟩
    let report := (s.transform .collected p {}).1
    report.result = .error (.replacementLimit "_" 1 ⟨"unknown", 3, 2⟩) ∧
      report.diagnostics = [.replacementLimit "_" 1 ⟨"unknown", 3, 2⟩] := by
  intro s name waiting inner p report
  obtain ⟨-, h_first, h_single, -⟩ := Session.transform_error_iff_first_offence (s := s)
    (Session.addMarkerRules_rules rfl) (show s.selects {} = true from rfl) p
  have h_error := (h_first _).2 ⟨[_, _, _], .expression inner, _, rfl, rfl, by decide⟩
  exact ⟨h_error, h_single _ h_error⟩

end AsyncMarkers
