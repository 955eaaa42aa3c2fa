import AsyncMarkers.Proofs.Settle

/-!
# The rounds of the replacement loop

What the replacement loop leaves of a call can be read off the call: no round has to be followed to
know it (`Engine.settle_closed_form`).

* One or two plain markers are taken out in one round, and nothing is left to be done in a second
  one.
* Future markers are taken out one by one, from the left. Each round takes one argument away, so the
  positions of the markers behind it go down by one (`markerPositions_eraseIdx`), and wraps the
  callee once more. `Context.layers` is the callee after all rounds, with the positions as they were
  at first.

The receiver is adapted in the first round only: from then on the callee is a call, which has none.
-/

namespace AsyncMarkers

/-! ### Positions when a marker is taken out -/

section Positions

variable {marker : String} {kind : MarkerKind} {arguments : List Expression}

/-- Positions of a kind are listed from left to right. -/
theorem markerPositions_pairwise (marker : String) (kind : MarkerKind)
    (arguments : List Expression) :
    (markerPositions marker kind arguments).Pairwise (· < ·) :=
  List.Pairwise.filter _ List.pairwise_lt_range

/-- A position of a kind is one of the list. -/
theorem lt_length_of_mem_markerPositions {i : Nat} (h : i ∈ markerPositions marker kind arguments) :
    i < arguments.length :=
  List.mem_range.1 (List.mem_filter.1 h).1

/-- When the first marker of a kind is taken out, the others move up by one. -/
theorem markerPositions_eraseIdx {i : Nat} {is : List Nat}
    (h : markerPositions marker kind arguments = i :: is) :
    markerPositions marker kind (arguments.eraseIdx i) = is.map (· - 1) := by
  -- the induction is on the arguments; the marker is the first of them or in the tail
  induction arguments generalizing i is with
  | nil => cases h
  | cons e es ih =>
    rw [markerPositions_cons] at h
    by_cases h_kind : e.markerKind? marker = some kind
    · -- the first argument is the marker, and what is left is the tail
      rw [if_pos h_kind, List.singleton_append, List.cons.injEq] at h
      obtain ⟨rfl, rfl⟩ := h
      simp [Function.comp_def]
    · rw [if_neg h_kind, List.nil_append, List.map_eq_cons_iff] at h
      obtain ⟨j, js, h_tail, rfl, rfl⟩ := h
      -- all positions in `js` come after `j`, so going down by one loses nothing
      have h_later : ∀ k ∈ js, k - 1 + 1 = k := by
        intro k h_k
        have h_sorted := markerPositions_pairwise marker kind es
        rw [h_tail, List.pairwise_cons] at h_sorted
        have h_lt := h_sorted.1 k h_k
        omega
      rw [List.eraseIdx_cons_succ, markerPositions_cons, if_neg h_kind, List.nil_append, ih h_tail]
      simpa using h_later

/-- Without a marker of a kind, the arguments that are no markers of the kind are the same. -/
theorem withoutMarkers_eraseIdx {i : Nat} (h : i ∈ markerPositions marker kind arguments) :
    withoutMarkers marker kind (arguments.eraseIdx i) = withoutMarkers marker kind arguments := by
  obtain ⟨e, h_e, h_kind⟩ := exists_of_mem_markerPositions h
  obtain ⟨before, after, h_split, h_erase⟩ := exists_split_of_getElem? h_e
  rw [h_erase, h_split]
  simp [withoutMarkers, h_kind]

/-- Taking out a marker of one kind leaves those of the others. -/
theorem markerCount_eraseIdx {i : Nat} (h : i ∈ markerPositions marker kind arguments)
    (other : MarkerKind) :
    markerCount marker other arguments =
      markerCount marker other (arguments.eraseIdx i) + if kind = other then 1 else 0 := by
  obtain ⟨e, h_e, h_kind⟩ := exists_of_mem_markerPositions h
  obtain ⟨before, after, h_split, h_erase⟩ := exists_split_of_getElem? h_e
  rw [h_erase, h_split, markerCount_middle, h_kind]
  simp

end Positions

/-! ### Indices in bounds -/

/-- Whether each position is one of the list that it is taken out of. -/
def Substitution.InBounds (s : Substitution) (arguments : List Expression) : Prop :=
  match s.second with
  | none => s.first < arguments.length
  | some second => second < arguments.length ∧ s.first < (arguments.eraseIdx second).length

/-- Where two plain markers are awaited, they are listed in the order of their positions. -/
theorem CallPlan.lt_of_ofPlain? {positions : List Nat} (h_sorted : positions.Pairwise (· < ·))
    {first second : Nat} (h : CallPlan.ofPlain? positions = some (.await first (some second))) :
    first < second := by
  match positions with
  | [] => cases h
  | [_] => cases h
  | [i, j] =>
    cases h
    simpa using h_sorted
  | _ :: _ :: _ :: _ => cases h

/-- A substitution takes out arguments that are there. -/
theorem Context.inBounds_of_substitution? {ctx : Context} {span : Span}
    {arguments : List Expression} {s : Substitution}
    (h : ctx.substitution? span arguments = .ok (some s)) : s.InBounds arguments := by
  unfold substitution? at h
  -- the plan says where the markers are, and its positions are positions of markers
  cases h_plan : planCall? ctx.marker arguments with
  | none =>
    rw [h_plan] at h
    cases h
  | some plan =>
    rw [h_plan] at h
    cases plan with
    | await first second =>
      cases h
      have h_plain := ofPlain?_of_planCall?_await h_plan
      obtain ⟨h_first, h_second⟩ := CallPlan.mem_of_ofPlain? h_plain
      cases second with
      | none => exact lt_length_of_mem_markerPositions h_first
      | some second =>
        -- the first position comes before the second, so it is still there when that is gone
        have h_lt := CallPlan.lt_of_ofPlain? (markerPositions_pairwise _ _ _) h_plain
        have h_bound := lt_length_of_mem_markerPositions (h_second second rfl)
        refine ⟨h_bound, ?_⟩
        show first < (arguments.eraseIdx second).length
        rw [List.length_eraseIdx_of_lt h_bound]
        omega
    | future index =>
      cases h
      exact lt_length_of_mem_markerPositions (mem_positions_of_planCall?_future h_plan)
    | promise index => cases h
    | array index => cases h
    | tooMany count => cases h

/-! ### The substitution in a round -/

namespace Context

variable {ctx : Context} {arguments : List Expression}

/-- One or two plain markers are all taken out, and the first position is in the substitution. -/
theorem substitution?_of_plain {i : Nat}
    (h_first : (markerPositions ctx.marker .plain arguments).head? = some i)
    (h_few : markerCount ctx.marker .plain arguments ≤ 2) (span : Span) :
    ∃ s, ctx.substitution? span arguments = .ok (some s) ∧ s.awaited = true ∧ s.first = i ∧
      s.rest arguments = withoutMarkers ctx.marker .plain arguments := by
  -- the number of positions decides which of the plans it is
  rw [← length_markerPositions] at h_few
  match h_positions : markerPositions ctx.marker .plain arguments with
  | [] =>
    rw [h_positions] at h_first
    cases h_first
  | [j] =>
    rw [h_positions] at h_first
    cases h_first
    have h_plan : planCall? ctx.marker arguments = some (.await i none) := by
      rw [planCall?, h_positions, CallPlan.ofPlain?, Option.some_or]
    refine ⟨⟨i, none, true⟩, ?_, rfl, rfl, eraseIdx_eq_withoutMarkers h_positions⟩
    rw [substitution?, h_plan]
    rfl
  | [j, k] =>
    rw [h_positions] at h_first
    cases h_first
    have h_plan : planCall? ctx.marker arguments = some (.await i (some k)) := by
      rw [planCall?, h_positions, CallPlan.ofPlain?, Option.some_or]
    refine ⟨⟨i, some k, true⟩, ?_, rfl, rfl, eraseIdx_eraseIdx_eq_withoutMarkers h_positions⟩
    rw [substitution?, h_plan]
    rfl
  | _ :: _ :: _ :: _ =>
    rw [h_positions] at h_few
    simp at h_few

/-- Without plain markers, the first future marker is taken out. -/
theorem substitution?_of_future {i : Nat} {is : List Nat}
    (h_plain : markerCount ctx.marker .plain arguments = 0)
    (h_positions : markerPositions ctx.marker .future arguments = i :: is) (span : Span) :
    ctx.substitution? span arguments = .ok (some ⟨i, none, false⟩) := by
  rw [substitution?, planCall?_of_no_plain h_plain, h_positions]
  rfl

end Context

/-! ### Layers of adapters -/

namespace Context

/-- A function with `j` adapters around it, one for each of the first `j` positions of callbacks
among `n` arguments. For the adapter of one position the ones before it are gone. -/
def layers (ctx : Context) (n : Nat) (positions : List Nat) (f : Expression) : Nat → Expression
  | 0 => f
  | j + 1 =>
    Synthetic.call (ctx.binding.future (positions.getD j 0 - j) (n - 1 - j))
      [ctx.layers n positions f j]

/-- The innermost adapter can be counted as part of the function. -/
theorem layers_succ (ctx : Context) (n i : Nat) (is : List Nat) (f : Expression) (j : Nat) :
    ctx.layers (n - 1) (is.map (· - 1))
        (Synthetic.call (ctx.binding.future i (n - 1)) [f]) j =
      ctx.layers n (i :: is) f (j + 1) := by
  -- the induction is on the number of layers
  induction j with
  | zero => rfl
  | succ j ih =>
    -- one argument less and one position further is the same position and the same rest
    have h_position : (is.map (· - 1)).getD j 0 - j = (i :: is).getD (j + 1) 0 - (j + 1) := by
      rw [List.getD_cons_succ, List.getD_eq_getElem?_getD, List.getD_eq_getElem?_getD,
        List.getElem?_map]
      -- a position that is missing counts as zero on both sides
      cases is[j]? with
      | none => simp
      | some k => simp [Nat.sub_sub, Nat.add_comm]
    have h_rest : n - 1 - 1 - j = n - 1 - (j + 1) := by omega
    rw [layers, ih, h_position, h_rest]
    rfl

/-- A call after all its future markers have been taken out. -/
def withoutFutures (ctx : Context) (span : Span) (f : Expression) (arguments : List Expression) :
    Expression :=
  .call span
    (ctx.layers arguments.length (markerPositions ctx.marker .future arguments) f
      (markerCount ctx.marker .future arguments))
    (withoutMarkers ctx.marker .future arguments)

/-- If there are none, nothing is taken out. -/
theorem withoutFutures_of_none {ctx : Context} {arguments : List Expression}
    (h : markerCount ctx.marker .future arguments = 0) (span : Span) (f : Expression) :
    ctx.withoutFutures span f arguments = .call span f arguments := by
  -- no marker means no position, so there are no layers and nothing to take out
  have h_nil : markerPositions ctx.marker .future arguments = [] := by
    rw [← List.length_eq_zero_iff, length_markerPositions, h]
  rw [withoutFutures, h, withoutMarkers_of_markerPositions_nil h_nil]
  rfl

/-- The first one may be taken out in advance. -/
theorem withoutFutures_eraseIdx {ctx : Context} {arguments : List Expression} {i : Nat}
    {is : List Nat} (h : markerPositions ctx.marker .future arguments = i :: is) (span : Span)
    (f : Expression) :
    ctx.withoutFutures span
        (Synthetic.call (ctx.binding.future i (arguments.eraseIdx i).length) [f])
        (arguments.eraseIdx i) =
      ctx.withoutFutures span f arguments := by
  have h_mem : i ∈ markerPositions ctx.marker .future arguments := h ▸ List.mem_cons_self
  have h_count : markerCount ctx.marker .future arguments =
      markerCount ctx.marker .future (arguments.eraseIdx i) + 1 :=
    markerCount_eraseIdx h_mem .future
  have h_length : (arguments.eraseIdx i).length = arguments.length - 1 :=
    List.length_eraseIdx_of_lt (lt_length_of_mem_markerPositions h_mem)
  rw [withoutFutures, withoutFutures, h_length, markerPositions_eraseIdx h, layers_succ, h, h_count,
    withoutMarkers_eraseIdx h_mem]

end Context

/-! ### What the loop leaves -/

/-- Whether a record is of a node that has been replaced. -/
def Record.replaces : Record → Bool
  | .applied { verdict := .ok .replaced, .. } => true
  | _ => false

/-- A visit has left an expression and has not failed. On the way the node has been replaced `calls`
times, and this and the adapted receivers are all that is counted. -/
structure Visit.Leaves (v : Visit Record Diagnostic Expression) (e : Expression)
    (receivers calls : Nat) : Prop where
  value : v.value = e
  failure : v.failure = none
  replacements : v.notes.countP Record.replaces = calls
  counts : History.counts v.notes = { receivers, calls }

namespace Engine

variable {g : Engine}

section Rules

variable (h_rules : g.rules = Rule.all)

include h_rules

/-- A round that does not replace a call is the last one. -/
theorem leaves_of_unmarked {arguments : List Expression}
    (h : planCall? g.context.marker arguments = none) (span : Span) (callee : Expression)
    (left : Nat) :
    (g.settle (left + 1) (.call span callee arguments)).Leaves
      (.call span (g.context.adaptCallee callee) arguments)
      (if g.context.needsAdapter callee then 1 else 0) 0 := by
  obtain ⟨change, h_change, h_node, h_outcome, h_counts⟩ :=
    Context.transformCall_unmarked (Context.substitution?_eq_ok_none_iff.2 h) callee
  rw [settle_of_ok h_rules h_change, if_pos h_outcome]
  refine ⟨h_node, rfl, ?_, ?_⟩
  · -- what is recorded is a replacement only if the outcome says so
    cases h_case : change.outcome with
    | replaced => exact absurd h_case h_outcome
    | _ => simp [Record.replaces, record, h_case]
  · show change.counts + {} = _
    rw [Counts.add_zero, h_counts, Context.adaptation_counts]

/-- A call in which nothing is left to be done stays as it is, however many rounds there are. -/
theorem leaves_of_finished {arguments : List Expression}
    (h : planCall? g.context.marker arguments = none) {callee : Expression}
    (h_callee : g.context.needsAdapter callee = false) (span : Span) (left : Nat) :
    (g.settle left (.call span callee arguments)).Leaves (.call span callee arguments) 0 0 := by
  -- with no round at all, nothing happens either
  cases left with
  | zero => exact ⟨rfl, rfl, rfl, rfl⟩
  | succ left =>
    have h_round := leaves_of_unmarked h_rules h span callee left
    rwa [Context.adaptCallee_eq_self h_callee, h_callee] at h_round

/-- A round that replaces a call is counted, and the loop goes on from what it has left. If it may
not go on, nothing must be pending. -/
theorem leaves_of_substituted {span : Span} {callee : Expression} {arguments : List Expression}
    {s : Substitution} (h : g.context.substitution? span arguments = .ok (some s))
    {now e : Expression}
    (h_now : g.context.substitute span (g.context.adaptCallee callee) arguments s = now)
    {left calls : Nat} (h_done : left = 0 → g.context.isPending now = false)
    (h_later : (g.settle left now).Leaves e 0 calls) :
    (g.settle (left + 1) (.call span callee arguments)).Leaves e
      (if g.context.needsAdapter callee then 1 else 0) (calls + 1) := by
  obtain ⟨change, h_change, h_node, h_outcome, h_counts⟩ :=
    Context.transformCall_substituted h callee
  have h_replaces : (record (.call 200) .call change).replaces = true := by
    simp [Record.replaces, record, h_outcome]
  have h_round : (record (.call 200) .call change).counts =
      { receivers := if g.context.needsAdapter callee then 1 else 0, calls := 1 } := by
    show change.counts = _
    rw [h_counts, Context.adaptation_counts]
    simp [Counts.add_def]
  -- with no round left, the loop ends as one of no rounds does
  have h_settle : g.settle (left + 1) (.call span callee arguments) =
      ⟨(g.settle left now).value, record (.call 200) .call change :: (g.settle left now).notes,
        (g.settle left now).failure⟩ := by
    rw [settle_of_ok h_rules h_change, if_neg (not_not_intro h_outcome), h_node, h_now]
    by_cases h_left : left = 0
    · rw [if_pos h_left, h_done h_left, h_left]
      rfl
    · rw [if_neg h_left]
  rw [h_settle]
  refine ⟨h_later.value, h_later.failure, ?_, ?_⟩
  · rw [List.countP_cons_of_pos h_replaces, h_later.replacements]
  · rw [History.counts_cons, h_round, h_later.counts, Counts.add_def]
    simp [Nat.add_comm]

/-- With one or two plain markers, the first round takes them out and leaves nothing to be done. -/
theorem leaves_of_plain {arguments : List Expression} {i : Nat}
    (h_first : (markerPositions g.context.marker .plain arguments).head? = some i)
    (h_few : markerCount g.context.marker .plain arguments ≤ 2) (span : Span) (callee : Expression)
    (left : Nat) :
    (g.settle (left + 1) (.call span callee arguments)).Leaves
      (.call span g.context.binding.await
        [g.context.futureCall span (g.context.adaptCallee callee) i
          (withoutMarkers g.context.marker .plain arguments)])
      (if g.context.needsAdapter callee then 1 else 0) 1 := by
  obtain ⟨s, h_sub, h_awaited, h_index, h_rest⟩ :=
    Context.substitution?_of_plain h_first h_few span
  -- the argument of the new call is a call, and so no marker
  have h_plan : planCall? g.context.marker
      [g.context.futureCall span (g.context.adaptCallee callee) i
        (withoutMarkers g.context.marker .plain arguments)] = none := by
    rw [planCall?_eq_none_iff_forall, List.forall_mem_singleton]
    rfl
  have h_later :=
    leaves_of_finished h_rules h_plan g.context.needsAdapter_await span left
  refine leaves_of_substituted h_rules h_sub ?_ ?_ h_later
  · rw [Context.substitute, h_awaited, h_index, h_rest]
    rfl
  · intro _
    rw [Context.isPending, h_plan]
    rfl

/-- One round for a call that has future markers only, if it is known what the later rounds do. -/
theorem leaves_of_futures_step {arguments : List Expression}
    (h_kinds : ∀ kind, kind ≠ .future → markerCount g.context.marker kind arguments = 0)
    {left : Nat} (h_left : markerCount g.context.marker .future arguments ≤ left + 1)
    (span : Span) (callee : Expression)
    (h_later : ∀ callee' rest,
      (∀ kind, kind ≠ .future → markerCount g.context.marker kind rest = 0) →
      markerCount g.context.marker .future rest ≤ left → g.context.needsAdapter callee' = false →
      (g.settle left (.call span callee' rest)).Leaves (g.context.withoutFutures span callee' rest)
        0 (markerCount g.context.marker .future rest)) :
    (g.settle (left + 1) (.call span callee arguments)).Leaves
      (g.context.withoutFutures span (g.context.adaptCallee callee) arguments)
      (if g.context.needsAdapter callee then 1 else 0)
      (markerCount g.context.marker .future arguments) := by
  -- without future markers there are no markers at all
  have h_unmarked {rest : List Expression}
      (h_others : ∀ kind, kind ≠ .future → markerCount g.context.marker kind rest = 0)
      (h_none : markerCount g.context.marker .future rest = 0) :
      planCall? g.context.marker rest = none := by
    rw [planCall?_eq_none]
    intro kind
    by_cases h_kind : kind = .future
    · rw [h_kind, h_none]
    · exact h_others kind h_kind
  cases h_positions : markerPositions g.context.marker .future arguments with
  | nil =>
    -- there is nothing to be taken out, and only the receiver may be adapted
    have h_none : markerCount g.context.marker .future arguments = 0 := by
      rw [← length_markerPositions, h_positions, List.length_nil]
    rw [h_none, Context.withoutFutures_of_none h_none]
    exact leaves_of_unmarked h_rules (h_unmarked h_kinds h_none) span callee left
  | cons i is =>
    have h_mem : i ∈ markerPositions g.context.marker .future arguments :=
      h_positions ▸ List.mem_cons_self
    -- the marker at `i` is taken out: there is one future marker less, and no other marker
    have h_future : markerCount g.context.marker .future arguments =
        markerCount g.context.marker .future (arguments.eraseIdx i) + 1 :=
      markerCount_eraseIdx h_mem .future
    have h_others : ∀ kind, kind ≠ .future →
        markerCount g.context.marker kind (arguments.eraseIdx i) = 0 := by
      intro kind h_kind
      have h_before := h_kinds kind h_kind
      have h_after := markerCount_eraseIdx h_mem kind
      omega
    have h_rest := h_later
      (Synthetic.call (g.context.binding.future i (arguments.eraseIdx i).length)
        [g.context.adaptCallee callee])
      (arguments.eraseIdx i) h_others (by omega) rfl
    rw [Context.withoutFutures_eraseIdx h_positions] at h_rest
    have h_sub := Context.substitution?_of_future (h_kinds .plain (by decide)) h_positions span
    rw [h_future]
    refine leaves_of_substituted h_rules h_sub rfl ?_ h_rest
    -- if this was the last round, it was the last marker
    intro h_last
    have h_plan := h_unmarked h_others (by omega)
    show (planCall? g.context.marker (arguments.eraseIdx i)).isSome = false
    rw [h_plan]
    rfl

/-- Future markers are taken out one after the other, if there are no more of them than rounds. -/
theorem leaves_of_futures (span : Span) (left : Nat) (callee : Expression)
    (arguments : List Expression)
    (h_kinds : ∀ kind, kind ≠ .future → markerCount g.context.marker kind arguments = 0)
    (h_left : markerCount g.context.marker .future arguments ≤ left)
    (h_callee : g.context.needsAdapter callee = false) :
    (g.settle left (.call span callee arguments)).Leaves
      (g.context.withoutFutures span callee arguments) 0
      (markerCount g.context.marker .future arguments) := by
  -- the rounds that are left are an upper bound for the markers, and both go down by one
  induction left generalizing arguments callee with
  | zero =>
    have h_none := Nat.le_zero.1 h_left
    rw [h_none, Context.withoutFutures_of_none h_none]
    exact ⟨rfl, rfl, rfl, rfl⟩
  | succ left ih =>
    have h_step := leaves_of_futures_step h_rules h_kinds h_left span callee ih
    rwa [Context.adaptCallee_eq_self h_callee, h_callee] at h_step

end Rules

/-! ### The closed form -/

/-- What the replacement loop leaves of a call. Each position at which an argument is taken out on
the way is one of the list at that time. With one or two plain markers, the first at `i`, the loop
leaves a wait for the adapted function on the arguments without them. With future markers only, as
many as rounds at most, it leaves the function with one adapter for each of them on the arguments
without them. The receiver is adapted once if it is to be, and every replacement is counted. -/
theorem settle_closed_form (h_rules : g.rules = Rule.all) (span : Span) (callee : Expression)
    (arguments : List Expression) :
    let marker := g.context.marker
    let adapted := g.context.adaptCallee callee
    let receivers := if g.context.needsAdapter callee then 1 else 0
    let count := fun kind => markerCount marker kind arguments
    let looped := g.visitor.expression (.call span callee arguments)
    (∀ counts span' callee' arguments' s,
      g.context.Steps (.call span callee arguments) counts (.call span' callee' arguments') →
      g.context.substitution? span' arguments' = .ok (some s) → s.InBounds arguments') ∧
    (∀ i, (markerPositions marker .plain arguments).head? = some i → count .plain ≤ 2 →
      let rest := withoutMarkers marker .plain arguments
      looped.Leaves
        (.call span g.context.binding.await
          [.call span (Synthetic.call (g.context.binding.future i rest.length) [adapted]) rest])
        receivers 1) ∧
    (count .plain = 0 → count .promise = 0 → count .array = 0 →
      count .future ≤ max 1 g.limit →
      looped.Leaves
        (.call span
          (g.context.layers arguments.length (markerPositions marker .future arguments) adapted
            (count .future))
          (withoutMarkers marker .future arguments))
        receivers (count .future)) := by
  obtain ⟨left, h_rounds⟩ := g.exists_allowance
  have h_loop : g.visitor.expression (.call span callee arguments) =
      g.settle (left + 1) (.call span callee arguments) := by
    rw [← h_rounds]
    rfl
  dsimp only
  rw [h_loop]
  refine ⟨?_, ?_, ?_⟩
  · intro _ _ _ _ _ _ h_sub
    exact Context.inBounds_of_substitution? h_sub
  · intro i h_first h_few
    exact leaves_of_plain h_rules h_first h_few span callee left
  · -- what the first round does to the callee is settled separately, hence the step and then the
    -- rest
    intro h_plain h_promise h_array h_limit
    have h_kinds : ∀ kind, kind ≠ .future → markerCount g.context.marker kind arguments = 0 := by
      intro kind h_kind
      cases kind with
      | plain => exact h_plain
      | future => exact absurd rfl h_kind
      | promise => exact h_promise
      | array => exact h_array
    rw [h_rounds] at h_limit
    exact leaves_of_futures_step h_rules h_kinds h_limit span callee
      (leaves_of_futures h_rules span left)

/-- With three replacements allowed, `xs.map_(!_, a, !_, b, !_)` becomes
`future_2_2(future_1_3(future_0_4(b.array(xs).map_)))(a, b)`, and `f(a, _, !_, _)` becomes
`b.await(b.future_1_2(f)(a, !_))`, where the arguments at 3 and at 1 are taken out. -/
theorem settle_closed_form_mixed :
    let g : Engine := ⟨⟨{}, {}⟩, Rule.all, 3⟩
    let name (n : String) : Expression := .identifier (.at 1 0 1) ⟨n, false⟩
    let future : Expression := .unary (.at 1 0 2) .not (name "_")
    let method (receiver : Expression) : Expression := .member (.at 1 0 7) receiver ⟨"map_", false⟩
    let adapter (i n : Nat) (f : Expression) : Expression :=
      Synthetic.call (g.context.binding.future i n) [f]
    (g.visitor.expression (.call (.at 1 0 30) (method (name "xs"))
        [future, name "a", future, name "b", future])).Leaves
      (.call (.at 1 0 30)
        (adapter 2 2 (adapter 1 3 (adapter 0 4
          (method (.call (.at 1 0 1) g.context.binding.array [name "xs"])))))
        [name "a", name "b"])
      1 3 ∧
    (g.visitor.expression
        (.call (.at 1 0 20) (name "f") [name "a", name "_", future, name "_"])).Leaves
      (.call (.at 1 0 20) g.context.binding.await
        [.call (.at 1 0 20) (adapter 1 2 (name "f")) [name "a", future]])
      0 1 ∧
    (⟨1, some 3, true⟩ : Substitution).InBounds [name "a", name "_", future, name "_"] := by
  intro g name future method adapter
  -- the first call has nothing but futures, and in the second one the plain markers come first
  have h_futures := (settle_closed_form (g := g) rfl (.at 1 0 30) (method (name "xs"))
    [future, name "a", future, name "b", future]).2.2 rfl rfl rfl (by decide)
  obtain ⟨h_bounds, h_plain, -⟩ := settle_closed_form (g := g) rfl (.at 1 0 20) (name "f")
    [name "a", name "_", future, name "_"]
  exact ⟨h_futures, h_plain 1 rfl (by decide), h_bounds _ _ _ _ _ (.refl _) rfl⟩

end Engine

end AsyncMarkers
