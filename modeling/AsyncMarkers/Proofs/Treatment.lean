import AsyncMarkers.Rule.Load

/-!
# How a call is treated

What becomes of a call is decided by how many of its arguments are markers of each kind
(`markerCount`). `Context.substitution?_treatment` lists the six cases, in the order in which they
are looked for, and says for each which markers a substitution takes out: all plain ones, or else
one future marker. What is left of the arguments is an ordered deletion of markers (`Stripped`), so
a reading of the arguments that sees nothing in a marker sees the same before and after.

The calls that a substitution makes up go through members of the support module, none of which is
an array method (`Context.arrayReceiver?_member`).
-/

namespace AsyncMarkers

/-- How many arguments hold a marker of a kind. -/
def markerCount (marker : String) (kind : MarkerKind) (arguments : List Expression) : Nat :=
  arguments.countP fun argument => argument.markerKind? marker == some kind

section Counts

variable {marker : String} {kind : MarkerKind} {arguments : List Expression}

@[simp] theorem markerCount_nil : markerCount marker kind [] = 0 := rfl

/-- The first argument counts if it is a marker of the kind. -/
theorem markerCount_cons (e : Expression) (es : List Expression) :
    markerCount marker kind (e :: es) =
      markerCount marker kind es + if e.markerKind? marker = some kind then 1 else 0 := by
  simp [markerCount, List.countP_cons]

theorem markerCount_append (es es' : List Expression) :
    markerCount marker kind (es ++ es') =
      markerCount marker kind es + markerCount marker kind es' :=
  List.countP_append

/-- How many markers there are after one argument has been taken out. -/
theorem markerCount_middle (before after : List Expression) (e : Expression) :
    markerCount marker kind (before ++ e :: after) =
      markerCount marker kind (before ++ after) +
        if e.markerKind? marker = some kind then 1 else 0 := by
  rw [markerCount_append, markerCount_cons, markerCount_append]
  omega

/-- No marker of a kind is counted exactly if no argument is one. -/
theorem markerCount_eq_zero :
    markerCount marker kind arguments = 0 ↔
      ∀ e ∈ arguments, e.markerKind? marker ≠ some kind := by
  simp [markerCount, List.countP_eq_zero]

theorem markerCount_pos :
    0 < markerCount marker kind arguments ↔
      ∃ e ∈ arguments, e.markerKind? marker = some kind := by
  simp [markerCount, List.countP_pos_iff]

/-- The positions of markers in a list, from those in its tail. -/
theorem markerPositions_cons (e : Expression) (es : List Expression) :
    markerPositions marker kind (e :: es) =
      (if e.markerKind? marker = some kind then [0] else []) ++
        (markerPositions marker kind es).map (· + 1) := by
  simp only [markerPositions, List.length_cons, List.range_succ_eq_map, List.filter_cons,
    List.filter_map]
  -- the positions in the tail are one further on in the list
  by_cases h : e.markerKind? marker = some kind <;> simp [h, Function.comp_def]

/-- There are as many positions of a kind as there are markers of it. -/
theorem length_markerPositions (marker : String) (kind : MarkerKind) (arguments : List Expression) :
    (markerPositions marker kind arguments).length = markerCount marker kind arguments := by
  induction arguments with
  | nil => rfl
  | cons e es ih =>
    rw [markerPositions_cons, markerCount_cons, List.length_append, List.length_map, ih,
      Nat.add_comm]
    split <;> rfl

/-- There is a first position unless no marker is counted. -/
theorem head?_markerPositions_eq_none :
    (markerPositions marker kind arguments).head? = none ↔
      markerCount marker kind arguments = 0 := by
  rw [List.head?_eq_none_iff, ← List.length_eq_zero_iff, length_markerPositions]

/-- The plain markers are the markers of the plain kind. -/
theorem Expression.isPlainMarker_iff {e : Expression} :
    e.isPlainMarker marker = true ↔ e.markerKind? marker = some .plain := by
  cases e with
  | identifier s id => simp [isPlainMarker, markerKind?]
  | _ => simp only [isPlainMarker, markerKind?]; grind

/-- A marker is an identifier, by itself or one level down. -/
theorem Expression.marker_cases {e : Expression} (h : (e.markerKind? marker).isSome) :
    ∃ s id, id.isMarker marker = true ∧ (e = .identifier s id ∨
      ∃ s', e = .unary s' .not (.identifier s id) ∨ e = .unary s' .void (.identifier s id) ∨
        e = .array s' [some (.identifier s id)]) := by
  -- all kinds but the plain one have a plain marker right below them
  have h_plain {e : Expression} (he : e.isPlainMarker marker = true) :
      ∃ s id, id.isMarker marker = true ∧ e = .identifier s id := by
    cases e with
    | identifier s id => exact ⟨s, id, he, rfl⟩
    | _ => cases he
  cases e with
  | identifier s id =>
    have h_id : id.isMarker marker = true := by simpa [markerKind?] using h
    exact ⟨s, id, h_id, .inl rfl⟩
  | unary s' op inner =>
    cases op with
    | not =>
      obtain ⟨s, id, h_id, rfl⟩ := h_plain (e := inner) (by simpa [markerKind?] using h)
      exact ⟨s, id, h_id, .inr ⟨s', .inl rfl⟩⟩
    | void =>
      obtain ⟨s, id, h_id, rfl⟩ := h_plain (e := inner) (by simpa [markerKind?] using h)
      exact ⟨s, id, h_id, .inr ⟨s', .inr (.inl rfl)⟩⟩
    | _ => cases h
  -- an array is a marker only if a plain marker is all that it holds
  | array s' elements =>
    match elements with
    | [some inner] =>
      obtain ⟨s, id, h_id, rfl⟩ := h_plain (e := inner) (by simpa [markerKind?] using h)
      exact ⟨s, id, h_id, .inr ⟨s', .inr (.inr rfl)⟩⟩
    | [] | [none] | _ :: _ :: _ => simp [markerKind?] at h
  | _ => cases h

/-- A construction has a plain marker exactly if one is counted. -/
theorem hasPlainMarker_iff :
    hasPlainMarker marker arguments = true ↔ 0 < markerCount marker .plain arguments := by
  simp [hasPlainMarker, markerCount_pos, Expression.isPlainMarker_iff]

end Counts

/-! ### Ordered deletions of markers -/

/-- The second list is the first one without some of its markers, in order. -/
inductive Stripped (marker : String) : List Expression → List Expression → Prop
  | nil : Stripped marker [] []
  | keep (e : Expression) {es es' : List Expression} :
    Stripped marker es es' → Stripped marker (e :: es) (e :: es')
  | drop {e : Expression} {es es' : List Expression} :
    (e.markerKind? marker).isSome → Stripped marker es es' → Stripped marker (e :: es) es'

namespace Stripped

variable {marker : String} {es es' : List Expression}

/-- Nothing has to be dropped. -/
theorem refl (es : List Expression) : Stripped marker es es := by
  induction es with
  | nil => exact .nil
  | cons e es ih => exact .keep e ih

/-- Dropping some markers with a filter keeps the order. -/
theorem filter {p : Expression → Bool} (h : ∀ e, p e = false → (e.markerKind? marker).isSome)
    (es : List Expression) : Stripped marker es (es.filter p) := by
  induction es with
  | nil => exact .nil
  | cons e es ih =>
    rw [List.filter_cons]
    split
    · exact .keep e ih
    · exact .drop (h e (Bool.eq_false_iff.2 ‹_›)) ih

/-- Dropping one marker, wherever it stands. -/
theorem middle {e : Expression} (h : (e.markerKind? marker).isSome)
    (before after : List Expression) :
    Stripped marker (before ++ e :: after) (before ++ after) := by
  induction before with
  | nil => exact .drop h (.refl after)
  | cons e' before ih => exact .keep e' ih

/-- A reading that sees nothing in a marker reads the same before and after. -/
theorem flatMap_eq {β : Type} {f : Expression → List β} (h : Stripped marker es es')
    (hf : ∀ e, (e.markerKind? marker).isSome → f e = []) : es.flatMap f = es'.flatMap f := by
  induction h with
  | nil => rfl
  | keep e _ ih => rw [List.flatMap_cons, List.flatMap_cons, ih]
  | drop h_marker _ ih => rw [List.flatMap_cons, hf _ h_marker, ih, List.nil_append]

/-- What every marker has is had by all arguments before exactly if it is had by all after. -/
theorem forall_iff {P : Expression → Prop} (h : Stripped marker es es')
    (hP : ∀ e, (e.markerKind? marker).isSome → P e) : (∀ e ∈ es, P e) ↔ ∀ e ∈ es', P e := by
  induction h with
  | nil => exact Iff.rfl
  | keep e _ ih => rw [List.forall_mem_cons, List.forall_mem_cons, ih]
  | drop h_marker _ ih => rw [List.forall_mem_cons, ih, and_iff_right (hP _ h_marker)]

end Stripped

/-! ### Taking markers out -/

section Erase

variable {marker : String} {kind : MarkerKind} {arguments : List Expression}

/-- The arguments that are no markers of a kind. -/
def withoutMarkers (marker : String) (kind : MarkerKind) (arguments : List Expression) :
    List Expression :=
  arguments.filter fun argument => argument.markerKind? marker != some kind

/-- Without positions of a kind, nothing is taken out. -/
theorem withoutMarkers_of_markerPositions_nil (h : markerPositions marker kind arguments = []) :
    withoutMarkers marker kind arguments = arguments := by
  have h_zero : markerCount marker kind arguments = 0 := by
    rw [← length_markerPositions, h, List.length_nil]
  rw [withoutMarkers, List.filter_eq_self]
  simpa using markerCount_eq_zero.1 h_zero

/-- The only marker of a kind is taken out by its position. -/
theorem eraseIdx_eq_withoutMarkers {i : Nat} (h : markerPositions marker kind arguments = [i]) :
    arguments.eraseIdx i = withoutMarkers marker kind arguments := by
  induction arguments generalizing i with
  | nil => cases h
  | cons e es ih =>
    rw [markerPositions_cons] at h
    by_cases h_kind : e.markerKind? marker = some kind
    · -- the first argument is the marker, and there is none in the rest
      rw [if_pos h_kind, List.singleton_append, List.cons.injEq, List.map_eq_nil_iff] at h
      obtain ⟨rfl, h_rest⟩ := h
      have h_tail := withoutMarkers_of_markerPositions_nil h_rest
      simpa [withoutMarkers, h_kind] using h_tail.symm
    · -- the marker is in the rest, one position earlier there
      rw [if_neg h_kind, List.nil_append, List.map_eq_singleton_iff] at h
      obtain ⟨j, h_rest, rfl⟩ := h
      simpa [withoutMarkers, h_kind] using ih h_rest

/-- Both markers of a kind are taken out by their positions, the later one first. -/
theorem eraseIdx_eraseIdx_eq_withoutMarkers {i j : Nat}
    (h : markerPositions marker kind arguments = [i, j]) :
    (arguments.eraseIdx j).eraseIdx i = withoutMarkers marker kind arguments := by
  induction arguments generalizing i j with
  | nil => cases h
  | cons e es ih =>
    rw [markerPositions_cons] at h
    by_cases h_kind : e.markerKind? marker = some kind
    · -- the first argument is one of the two, and the rest has a single one left
      rw [if_pos h_kind, List.singleton_append, List.cons.injEq, List.map_eq_singleton_iff] at h
      obtain ⟨rfl, k, h_rest, rfl⟩ := h
      simpa [withoutMarkers, h_kind] using eraseIdx_eq_withoutMarkers h_rest
    · -- both markers are in the rest, one position earlier there
      rw [if_neg h_kind, List.nil_append, List.map_eq_cons_iff] at h
      obtain ⟨k, ks, h_rest, rfl, h_ks⟩ := h
      obtain ⟨k', rfl, rfl⟩ := List.map_eq_singleton_iff.1 h_ks
      simpa [withoutMarkers, h_kind] using ih h_rest

/-- Taking out the markers of a kind leaves those of the other kinds. -/
theorem markerCount_withoutMarkers (other : MarkerKind) :
    markerCount marker other (withoutMarkers marker kind arguments) =
      if other = kind then 0 else markerCount marker other arguments := by
  induction arguments with
  | nil => simp [withoutMarkers]
  | cons e es ih =>
    rw [withoutMarkers] at ih
    rw [withoutMarkers, List.filter_cons]
    -- the first argument is kept unless it is of the kind, and then it does not count for the
    -- others
    split
    · rw [markerCount_cons, markerCount_cons, ih]
      grind
    · rw [markerCount_cons, ih]
      grind

/-- Taking out the argument at a position splits the list there. -/
theorem exists_split_of_getElem? {i : Nat} {e : Expression} (h : arguments[i]? = some e) :
    ∃ before after, arguments = before ++ e :: after ∧
      arguments.eraseIdx i = before ++ after := by
  obtain ⟨h_lt, rfl⟩ := List.getElem?_eq_some_iff.1 h
  refine ⟨arguments.take i, arguments.drop (i + 1), ?_, List.eraseIdx_eq_take_drop_succ _ _⟩
  rw [List.getElem_cons_drop, List.take_append_drop]

end Erase

/-! ### The six cases -/

/-- What is decided about a call with the given arguments, by the markers among them. -/
inductive Context.Treatment (ctx : Context) (span : Span) (arguments : List Expression) :
    Except Diagnostic (Option Substitution) → Prop
  | crowded : 3 ≤ markerCount ctx.marker .plain arguments →
    Treatment ctx span arguments (.error (.tooManyMarkers ctx.marker
      (markerCount ctx.marker .plain arguments) (ctx.location span)))
  | awaited (s : Substitution) : 0 < markerCount ctx.marker .plain arguments →
    markerCount ctx.marker .plain arguments ≤ 2 → s.awaited = true →
    s.rest arguments = withoutMarkers ctx.marker .plain arguments →
    Treatment ctx span arguments (.ok (some s))
  | future (s : Substitution) (before : List Expression) (e : Expression)
      (after : List Expression) :
    markerCount ctx.marker .plain arguments = 0 → arguments = before ++ e :: after →
    e.markerKind? ctx.marker = some .future → s.awaited = false →
    s.rest arguments = before ++ after → Treatment ctx span arguments (.ok (some s))
  | promise : markerCount ctx.marker .plain arguments = 0 →
    markerCount ctx.marker .future arguments = 0 → 0 < markerCount ctx.marker .promise arguments →
    Treatment ctx span arguments (.error (.unsupported .promiseMarker (ctx.location span)))
  | array : markerCount ctx.marker .plain arguments = 0 →
    markerCount ctx.marker .future arguments = 0 → markerCount ctx.marker .promise arguments = 0 →
    0 < markerCount ctx.marker .array arguments →
    Treatment ctx span arguments (.error (.unsupported .arrayMarker (ctx.location span)))
  | unmarked : (∀ kind, markerCount ctx.marker kind arguments = 0) →
    Treatment ctx span arguments (.ok none)

section Treatment

variable {marker : String} {arguments : List Expression}

/-- Without plain markers, the plan is that for the first of the other kinds that occurs. -/
theorem planCall?_of_no_plain (h : markerCount marker .plain arguments = 0) :
    planCall? marker arguments =
      ((markerPositions marker .future arguments).head?.map .future).or
        (((markerPositions marker .promise arguments).head?.map .promise).or
          ((markerPositions marker .array arguments).head?.map .array)) := by
  have h_nil : markerPositions marker .plain arguments = [] := by
    rw [← List.length_eq_zero_iff, length_markerPositions, h]
  rw [planCall?, h_nil, CallPlan.ofPlain?, Option.none_or]

/-- A call has a plan exactly if some argument is a marker. -/
theorem planCall?_eq_none :
    planCall? marker arguments = none ↔ ∀ kind, markerCount marker kind arguments = 0 := by
  -- for plain markers there is a plan however many there are, save none at all
  have h_plain : CallPlan.ofPlain? (markerPositions marker .plain arguments) = none ↔
      markerCount marker .plain arguments = 0 := by
    rw [← length_markerPositions, List.length_eq_zero_iff]
    match markerPositions marker .plain arguments with
    | [] | [_] | [_, _] | _ :: _ :: _ :: _ => simp [CallPlan.ofPlain?]
  simp only [planCall?, Option.or_eq_none_iff, Option.map_eq_none_iff, h_plain,
    head?_markerPositions_eq_none]
  constructor
  · rintro ⟨h_plain, h_future, h_promise, h_array⟩ kind
    cases kind <;> assumption
  · exact fun h => ⟨h _, h _, h _, h _⟩

/-- There is no plan exactly if no argument is a marker. -/
theorem planCall?_eq_none_iff_forall :
    planCall? marker arguments = none ↔ ∀ e ∈ arguments, e.markerKind? marker = none := by
  simp only [planCall?_eq_none, markerCount_eq_zero]
  constructor
  · intro h e he
    cases h_kind : e.markerKind? marker with
    | none => rfl
    | some kind => exact absurd h_kind (h kind e he)
  · intro h kind e he
    simp [h e he]

/-- What is decided about a call is one of the six cases. -/
theorem Context.substitution?_treatment (ctx : Context) (span : Span)
    (arguments : List Expression) :
    ctx.Treatment span arguments (ctx.substitution? span arguments) := by
  have h_length := length_markerPositions ctx.marker .plain arguments
  -- plain markers come first; without any, the other kinds are looked for one after another
  match h_positions : markerPositions ctx.marker .plain arguments with
  | [i] =>
    have h_plan : planCall? ctx.marker arguments = some (.await i none) := by
      rw [planCall?, h_positions, CallPlan.ofPlain?, Option.some_or]
    rw [h_positions, List.length_singleton] at h_length
    rw [substitution?, h_plan]
    exact .awaited _ (by omega) (by omega) rfl (eraseIdx_eq_withoutMarkers h_positions)
  | [i, j] =>
    have h_plan : planCall? ctx.marker arguments = some (.await i (some j)) := by
      rw [planCall?, h_positions, CallPlan.ofPlain?, Option.some_or]
    rw [h_positions, List.length_cons, List.length_singleton] at h_length
    rw [substitution?, h_plan]
    exact .awaited _ (by omega) (by omega) rfl (eraseIdx_eraseIdx_eq_withoutMarkers h_positions)
  | i :: j :: k :: rest =>
    have h_plan : planCall? ctx.marker arguments =
        some (.tooMany (markerCount ctx.marker .plain arguments)) := by
      rw [planCall?, ← h_length, h_positions, CallPlan.ofPlain?, Option.some_or]
      -- three positions are given, so neither of the plans for one or two can match
      all_goals simp
    rw [h_positions, List.length_cons, List.length_cons, List.length_cons] at h_length
    rw [substitution?, h_plan]
    exact .crowded (by omega)
  | [] =>
    have h_plain : markerCount ctx.marker .plain arguments = 0 := by
      rw [← h_length, h_positions, List.length_nil]
    have h_none (kind : MarkerKind) := @head?_markerPositions_eq_none ctx.marker kind arguments
    rw [substitution?, planCall?_of_no_plain h_plain]
    -- future markers come before promises, and these before arrays
    cases h_future : (markerPositions ctx.marker .future arguments).head? with
    | some i =>
      -- the marker at the first position is taken out, and all others stay
      obtain ⟨e, he, h_kind⟩ := exists_of_mem_markerPositions (List.mem_of_head? h_future)
      obtain ⟨before, after, h_split, h_erase⟩ := exists_split_of_getElem? he
      exact .future _ before e after h_plain h_split h_kind rfl h_erase
    | none =>
      have h_no_future := (h_none .future).1 h_future
      cases h_promise : (markerPositions ctx.marker .promise arguments).head? with
      | some i =>
        have h_pos : markerCount ctx.marker .promise arguments ≠ 0 := by
          rw [ne_eq, ← h_none .promise, h_promise]
          exact Option.some_ne_none i
        exact .promise h_plain h_no_future (Nat.pos_of_ne_zero h_pos)
      | none =>
        have h_no_promise := (h_none .promise).1 h_promise
        cases h_array : (markerPositions ctx.marker .array arguments).head? with
        | some i =>
          have h_pos : markerCount ctx.marker .array arguments ≠ 0 := by
            rw [ne_eq, ← h_none .array, h_array]
            exact Option.some_ne_none i
          exact .array h_plain h_no_future h_no_promise (Nat.pos_of_ne_zero h_pos)
        | none =>
          -- no kind has a position, so none is counted
          refine .unmarked fun kind => ?_
          cases kind
          · exact h_plain
          · exact h_no_future
          · exact h_no_promise
          · exact (h_none .array).1 h_array

end Treatment

namespace Context

variable {ctx : Context} {span : Span} {arguments : List Expression} {s : Substitution}

/-- A substitution takes out markers only. -/
theorem stripped_rest (h : ctx.substitution? span arguments = .ok (some s)) :
    Stripped ctx.marker arguments (s.rest arguments) := by
  have h_treatment := ctx.substitution?_treatment span arguments
  rw [h] at h_treatment
  cases h_treatment with
  | awaited _ _ _ _ h_rest =>
    rw [h_rest]
    -- all that is filtered out are plain markers
    refine .filter ?_ arguments
    intro e he
    have h_kind : e.markerKind? ctx.marker = some .plain := by simpa using he
    simp [h_kind]
  | future _ before e after _ h_split h_kind _ h_rest =>
    rw [h_rest, h_split]
    exact .middle (by simp [h_kind]) before after

/-- A call is substituted for a plain or a future marker. -/
theorem markerCount_pos_of_substituted (h : ctx.substitution? span arguments = .ok (some s)) :
    0 < markerCount ctx.marker .plain arguments + markerCount ctx.marker .future arguments := by
  have h_treatment := ctx.substitution?_treatment span arguments
  rw [h] at h_treatment
  cases h_treatment with
  | awaited _ h_pos => exact Nat.add_pos_left h_pos _
  | future _ before e after _ h_split h_kind =>
    have h_future : 0 < markerCount ctx.marker .future arguments :=
      markerCount_pos.2 ⟨e, by simp [h_split], h_kind⟩
    exact Nat.add_pos_right _ h_future

/-! ### Members of the support module -/

/-- The name of an array method's asynchronous form ends in an underscore. -/
theorem isArrayMethod_of_getLast? {c : Config} {property : String}
    (h : property.toList.getLast? ≠ some '_') : c.isArrayMethod property = false := by
  simp only [Config.isArrayMethod, List.any_eq_false, beq_iff_eq]
  rintro method _ rfl
  exact h (by simp)

/-- The member that awaits is no array method, so it is never adapted. -/
theorem isArrayMethod_await (c : Config) : c.isArrayMethod "await" = false :=
  isArrayMethod_of_getLast? (by decide)

/-- The members that make future calls are no array methods, whatever their numbers are. -/
theorem isArrayMethod_future (c : Config) (i n : Nat) :
    c.isArrayMethod ("future_" ++ Nat.repr i ++ "_" ++ Nat.repr n) = false := by
  refine isArrayMethod_of_getLast? fun h => ?_
  -- the last character is a digit of `n`
  rw [String.toList_append, Nat.toList_repr, List.getLast?_append, Option.or_eq_some_iff,
    List.getLast?_eq_none_iff] at h
  rcases h with h | ⟨h, -⟩
  · exact Nat.underscore_not_in_toDigits (List.mem_of_getLast? h)
  · exact Nat.toDigits_ne_nil h

/-! ### Adapting a callee -/

/-- The receiver in a callee that is an array method. -/
def arrayReceiver? (ctx : Context) : Expression → Option Expression
  | .member _ receiver property =>
    if ctx.config.isArrayMethod property.name then some receiver else none
  | _ => none

/-- The receiver is what stands before the dot, if the method is an asynchronous one. -/
theorem arrayReceiver?_eq_some {callee receiver : Expression} :
    ctx.arrayReceiver? callee = some receiver ↔ ∃ s property,
      callee = .member s receiver property ∧ ctx.config.isArrayMethod property.name = true := by
  constructor
  · intro h
    unfold arrayReceiver? at h
    split at h
    · rename_i s receiver' property
      split at h
      · cases h
        exact ⟨s, property, rfl, ‹_›⟩
      · cases h
    · cases h
  · rintro ⟨s, property, rfl, h_method⟩
    simp [arrayReceiver?, h_method]

/-- An adapted receiver is a call, and so no marker. -/
theorem markerKind?_of_isAdapted {receiver : Expression} (h : ctx.isAdapted receiver = true)
    (marker : String) : receiver.markerKind? marker = none := by
  cases receiver with
  | call _ _ _ => rfl
  | _ => cases h

/-- A callee needs an adapter if it is an array method and its receiver is not adapted yet. -/
theorem needsAdapter_eq (ctx : Context) (callee : Expression) :
    ctx.needsAdapter callee = (ctx.arrayReceiver? callee).any fun receiver =>
      !ctx.isAdapted receiver := by
  cases callee with
  | member s receiver property =>
    cases h : ctx.config.isArrayMethod property.name <;> simp [needsAdapter, arrayReceiver?, h]
  | _ => rfl

/-- If a callee needs no adapter but has a receiver, that is adapted already. -/
theorem isAdapted_of_needsAdapter_eq_false {callee receiver : Expression}
    (h : ctx.needsAdapter callee = false) (h_receiver : ctx.arrayReceiver? callee = some receiver) :
    ctx.isAdapted receiver = true := by
  simpa [needsAdapter_eq, h_receiver] using h

/-- Only array methods need an adapter. -/
theorem needsAdapter_of_arrayReceiver?_eq_none {callee : Expression}
    (h : ctx.arrayReceiver? callee = none) : ctx.needsAdapter callee = false := by
  rw [needsAdapter_eq, h, Option.any_none]

/-- The members of the support module are no array methods. -/
theorem arrayReceiver?_member {property : String} (h : ctx.config.isArrayMethod property = false) :
    ctx.arrayReceiver? (ctx.binding.member property) = none := by
  simp [Binding.member, Synthetic.member, arrayReceiver?, h]

/-- The awaiting function needs no adapter. -/
theorem needsAdapter_await (ctx : Context) : ctx.needsAdapter ctx.binding.await = false :=
  needsAdapter_of_arrayReceiver?_eq_none (arrayReceiver?_member (isArrayMethod_await _))

/-- The functions that make future calls need no adapter. -/
theorem needsAdapter_future (ctx : Context) (i n : Nat) :
    ctx.needsAdapter (ctx.binding.future i n) = false :=
  needsAdapter_of_arrayReceiver?_eq_none (arrayReceiver?_member (isArrayMethod_future _ i n))

/-- A callee that needs no adapter is left as it is. -/
theorem adaptCallee_eq_self {callee : Expression} (h : ctx.needsAdapter callee = false) :
    ctx.adaptCallee callee = callee := by
  simp [adaptCallee, h]

/-- A callee is left as it is, or it is an array method and its receiver is adapted. -/
theorem adaptCallee_cases (ctx : Context) (callee : Expression) :
    (ctx.needsAdapter callee = false ∧ ctx.adaptCallee callee = callee) ∨
      ∃ s receiver property, callee = .member s receiver property ∧
        ctx.needsAdapter callee = true ∧
        ctx.adaptCallee callee = .member s (ctx.adaptReceiver receiver) property := by
  unfold adaptCallee
  split
  · rename_i h_needs
    -- only members need an adapter
    cases callee with
    | member s receiver property => exact .inr ⟨s, receiver, property, rfl, h_needs, rfl⟩
    | _ => cases h_needs
  · rename_i h_needs
    exact .inl ⟨Bool.eq_false_iff.2 h_needs, rfl⟩

/-- Adapting its receiver does not make a callee a marker, or stop it from being one. -/
theorem markerKind?_adaptCallee (ctx : Context) (callee : Expression) :
    (ctx.adaptCallee callee).markerKind? ctx.marker = callee.markerKind? ctx.marker := by
  rcases ctx.adaptCallee_cases callee with ⟨-, h⟩ | ⟨s, receiver, property, rfl, -, h⟩ <;> rw [h]
  rfl

end Context

end AsyncMarkers
