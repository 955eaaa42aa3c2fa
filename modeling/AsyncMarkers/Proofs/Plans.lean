import AsyncMarkers.Proofs.Rounds
import Mathlib.Data.List.Nodup

/-!
# The plan for a call

The arguments of a call hold markers of up to four kinds, and the first kind that occurs decides
what is done with the call, in the order `MarkerKind.inOrder`. What is to be done depends on the
positions of that kind alone, `MarkerKind.plan`, and there is at least one such position whenever
one is asked for.

The positions of a kind are the only list in ascending order that has them
(`markerPositions_eq_iff`). So a plan can be read off the kinds of the arguments without any list of
positions (`planCall?_eq_await_iff`, `planCall?_eq_wrapped_iff`), and the arguments that are left
when the plain markers are taken out are the ones that are not plain markers (`rest_of_await`).
-/

namespace AsyncMarkers

/-- The kinds of markers in the order in which they are looked for. -/
def MarkerKind.inOrder : List MarkerKind := [.plain, .future, .promise, .array]

/-- The plan for markers of a kind at the given positions, of which there is at least one. -/
def MarkerKind.plan (positions : List Nat) (h : 0 < positions.length) : MarkerKind → CallPlan
  | .plain =>
    if 2 < positions.length then .tooMany positions.length else .await positions[0] positions[1]?
  | .future => .future positions[0]
  | .promise => .promise positions[0]
  | .array => .array positions[0]

/-- The kind of marker that the argument at a position holds, if there is such an argument. -/
def kindAt? (marker : String) (arguments : List Expression) (i : Nat) : Option MarkerKind :=
  arguments[i]?.bind (·.markerKind? marker)

/-- Whether the markers of a kind begin at a position. -/
def BeginAt (marker : String) (arguments : List Expression) (kind : MarkerKind) (i : Nat) : Prop :=
  kindAt? marker arguments i = some kind ∧ ∀ k < i, kindAt? marker arguments k ≠ some kind

/-- Whether no argument holds a marker of a kind. -/
def LacksMarkers (marker : String) (arguments : List Expression) (kind : MarkerKind) : Prop :=
  ∀ e ∈ arguments, e.markerKind? marker ≠ some kind

section Plans

variable {marker : String} {kind : MarkerKind} {arguments : List Expression} {i : Nat}

/-! ### Positions -/

/-- The positions of a kind are those of the arguments of that kind. -/
theorem mem_markerPositions_iff :
    i ∈ markerPositions marker kind arguments ↔ kindAt? marker arguments i = some kind := by
  rw [kindAt?, Option.bind_eq_some_iff]
  constructor
  · exact exists_of_mem_markerPositions
  · rintro ⟨e, h_e, h_kind⟩
    have h_lt : i < arguments.length := (List.getElem?_eq_some_iff.1 h_e).1
    exact List.mem_filter.2 ⟨List.mem_range.2 h_lt, by simp [h_e, h_kind]⟩

/-- The positions of a kind are the only list in ascending order that has them. -/
theorem markerPositions_eq_iff {is : List Nat} :
    markerPositions marker kind arguments = is ↔
      is.Pairwise (· < ·) ∧ ∀ k, kindAt? marker arguments k = some kind ↔ k ∈ is := by
  have h_sorted := markerPositions_pairwise marker kind arguments
  constructor
  · rintro rfl
    exact ⟨h_sorted, fun _ => mem_markerPositions_iff.symm⟩
  · rintro ⟨h_is, h_mem⟩
    -- two lists without duplicates and with the same members, both sorted, are the same list
    have h_perm : (markerPositions marker kind arguments).Perm is :=
      (List.perm_ext_iff_of_nodup (h_sorted.imp Nat.ne_of_lt) (h_is.imp Nat.ne_of_lt)).2
        fun k => mem_markerPositions_iff.trans (h_mem k)
    exact h_perm.eq_of_pairwise (fun _ _ _ _ h_lt h_gt => absurd h_gt (Nat.lt_asymm h_lt)) h_sorted
      h_is

/-- A kind has no positions exactly if no argument is of that kind. -/
theorem markerPositions_eq_nil_iff :
    markerPositions marker kind arguments = [] ↔ LacksMarkers marker arguments kind := by
  rw [← List.length_eq_zero_iff, length_markerPositions, markerCount_eq_zero, LacksMarkers]

/-- The first position comes before all others. -/
theorem head?_markerPositions_eq_some_iff :
    (markerPositions marker kind arguments).head? = some i ↔ BeginAt marker arguments kind i := by
  rw [BeginAt]
  have h_sorted := markerPositions_pairwise marker kind arguments
  simp only [ne_eq, ← mem_markerPositions_iff]
  -- from here on it matters only that the positions are sorted
  generalize markerPositions marker kind arguments = positions at h_sorted ⊢
  cases positions with
  | nil => simp
  | cons j js =>
    obtain ⟨h_first, -⟩ := List.pairwise_cons.1 h_sorted
    rw [List.head?_cons, Option.some_inj]
    constructor
    · rintro rfl
      refine ⟨List.mem_cons_self, fun k h_lt h_k => ?_⟩
      rcases List.mem_cons.1 h_k with rfl | h_k
      · exact absurd h_lt (Nat.lt_irrefl k)
      · exact absurd (h_first k h_k) (Nat.lt_asymm h_lt)
    · rintro ⟨h_i, h_before⟩
      rcases List.mem_cons.1 h_i with rfl | h_i
      · rfl
      · exact absurd List.mem_cons_self (h_before j (h_first i h_i))

/-- Counting plain markers is counting their positions. -/
theorem countP_isPlainMarker :
    arguments.countP (·.isPlainMarker marker) =
      (markerPositions marker .plain arguments).length := by
  rw [length_markerPositions, markerCount]
  refine List.countP_congr fun e _ => ?_
  simp [Expression.isPlainMarker_iff]

/-! ### Plans -/

/-- The plan for plain markers is the one for their positions. -/
theorem CallPlan.ofPlain?_eq (positions : List Nat) :
    CallPlan.ofPlain? positions =
      if h : 0 < positions.length then some (MarkerKind.plain.plan positions h) else none := by
  match positions with
  | [] | [_] | [_, _] | _ :: _ :: _ :: _ => simp [ofPlain?, MarkerKind.plan]

/-- The plan is that of the first kind that occurs. -/
theorem planCall?_eq_findSome? :
    planCall? marker arguments = MarkerKind.inOrder.findSome? fun kind =>
      if h : 0 < (markerPositions marker kind arguments).length then some (kind.plan _ h)
      else none := by
  -- of a wrapped kind, the first position is all that is asked for
  have h_head (kind : MarkerKind) {make : Nat → CallPlan}
      (h_make : ∀ i is h, kind.plan (i :: is) h = make i) (positions : List Nat) :
      positions.head?.map make =
        if h : 0 < positions.length then some (kind.plan positions h) else none := by
    cases positions with
    | nil => rfl
    | cons i is => exact congrArg some (h_make i is _).symm
  rw [planCall?, CallPlan.ofPlain?_eq, h_head .future fun _ _ _ => rfl,
    h_head .promise fun _ _ _ => rfl, h_head .array fun _ _ _ => rfl,
    MarkerKind.inOrder, findSome?_cons_or, findSome?_cons_or, findSome?_cons_or, findSome?_cons_or,
    List.findSome?_nil, Option.or_none]

/-- Plain markers are awaited exactly if there are one or two of them. -/
theorem CallPlan.ofPlain?_eq_await_iff {positions : List Nat} {second : Option Nat} :
    CallPlan.ofPlain? positions = some (.await i second) ↔ positions = i :: second.toList := by
  match positions with
  | [] | [_] | [_, _] | _ :: _ :: _ :: _ => cases second <;> simp [ofPlain?]

/-- There are too many plain markers exactly if there are three or more. -/
theorem CallPlan.ofPlain?_eq_tooMany_iff {positions : List Nat} {n : Nat} :
    CallPlan.ofPlain? positions = some (.tooMany n) ↔ positions.length = n ∧ 3 ≤ n := by
  match positions with
  | [] | [_] | [_, _] =>
    simp only [ofPlain?, reduceCtorEq, Option.some_inj, false_iff, List.length_nil,
      List.length_cons]
    omega
  | _ :: _ :: _ :: _ =>
    simp only [ofPlain?, Option.some_inj, CallPlan.tooMany.injEq, List.length_cons]
    omega

/-- There is a plan for plain markers exactly if there are some. -/
theorem CallPlan.ofPlain?_eq_none_iff {positions : List Nat} :
    CallPlan.ofPlain? positions = none ↔ positions = [] := by
  match positions with
  | [] | [_] | [_, _] | _ :: _ :: _ :: _ => simp [ofPlain?]

/-- Calls are awaited for plain markers only. -/
theorem planCall?_eq_await_iff {second : Option Nat} :
    planCall? marker arguments = some (.await i second) ↔
      markerPositions marker .plain arguments = i :: second.toList := by
  rw [← CallPlan.ofPlain?_eq_await_iff]
  simp [planCall?]

/-- Only of plain markers there can be too many. -/
theorem planCall?_eq_tooMany_iff {n : Nat} :
    planCall? marker arguments = some (.tooMany n) ↔
      n = arguments.countP (·.isPlainMarker marker) ∧ 3 ≤ n := by
  rw [countP_isPlainMarker, eq_comm (a := n), ← CallPlan.ofPlain?_eq_tooMany_iff]
  simp [planCall?]

/-- A wrapped kind decides if the kinds before it are missing, and then with its first marker. -/
theorem planCall?_eq_wrapped_iff :
    (planCall? marker arguments = some (.future i) ↔
      LacksMarkers marker arguments .plain ∧ BeginAt marker arguments .future i) ∧
    (planCall? marker arguments = some (.promise i) ↔
      LacksMarkers marker arguments .plain ∧ LacksMarkers marker arguments .future ∧
        BeginAt marker arguments .promise i) ∧
    (planCall? marker arguments = some (.array i) ↔
      LacksMarkers marker arguments .plain ∧ LacksMarkers marker arguments .future ∧
        LacksMarkers marker arguments .promise ∧ BeginAt marker arguments .array i) := by
  -- plain markers never lead to one of these plans, so there must be none
  have h_plain (plan : CallPlan)
      (h : CallPlan.ofPlain? (markerPositions marker .plain arguments) = some plan) :
      plan ≠ .future i ∧ plan ≠ .promise i ∧ plan ≠ .array i := by
    rcases CallPlan.eq_of_ofPlain? h with ⟨_, _, rfl⟩ | ⟨_, rfl⟩ <;> simp
  -- all that is left is which of the four alternatives is taken
  simp only [← markerPositions_eq_nil_iff, ← head?_markerPositions_eq_some_iff, planCall?,
    Option.or_eq_some_iff, Option.map_eq_some_iff, Option.map_eq_none_iff,
    CallPlan.ofPlain?_eq_none_iff, List.head?_eq_none_iff]
  grind

/-! ### Taking plain markers out -/

/-- What is left without plain markers, as a filter. -/
theorem withoutMarkers_plain :
    withoutMarkers marker .plain arguments = arguments.filter (!·.isPlainMarker marker) := by
  refine List.filter_congr fun e _ => ?_
  rw [bne, Bool.not_inj_iff, Bool.eq_iff_iff, beq_iff_eq, Expression.isPlainMarker_iff]

/-- The positions of plain markers are in bounds when they are taken out, and nothing else is taken
out. -/
theorem rest_of_await {second : Option Nat}
    (h : planCall? marker arguments = some (.await i second)) :
    Substitution.InBounds ⟨i, second, true⟩ arguments ∧
      Substitution.rest ⟨i, second, true⟩ arguments =
        arguments.filter (!·.isPlainMarker marker) := by
  have h_positions := planCall?_eq_await_iff.1 h
  rw [← withoutMarkers_plain]
  -- positions of markers are positions in the list
  have h_bound : ∀ k ∈ i :: second.toList, k < arguments.length := by
    rw [← h_positions]
    exact fun k => lt_length_of_mem_markerPositions
  cases second with
  | none => exact ⟨h_bound i (by simp), eraseIdx_eq_withoutMarkers h_positions⟩
  | some j =>
    have h_sorted := (markerPositions_eq_iff.1 h_positions).1
    have h_j := h_bound j (by simp)
    refine ⟨⟨h_j, ?_⟩, eraseIdx_eraseIdx_eq_withoutMarkers h_positions⟩
    -- the first position comes before the second, so it is still there when that is gone
    have h_lt : i < j := by simpa using h_sorted
    change i < (arguments.eraseIdx j).length
    rw [List.length_eraseIdx_of_lt h_j]
    omega

/-- Where there is a marker, there is an argument. -/
theorem lt_length_of_kindAt? (h : kindAt? marker arguments i = some kind) : i < arguments.length :=
  lt_length_of_mem_markerPositions (mem_markerPositions_iff.2 h)

/-- The plan awaits one position exactly if there is one plain marker and it is there. -/
theorem planCall?_eq_await_one_iff :
    planCall? marker arguments = some (.await i none) ↔
      i < arguments.length ∧ ∀ k, kindAt? marker arguments k = some .plain ↔ k = i := by
  rw [planCall?_eq_await_iff, markerPositions_eq_iff]
  simp only [Option.toList_none, List.pairwise_singleton, List.mem_singleton, true_and]
  exact ⟨fun h => ⟨lt_length_of_kindAt? ((h i).2 rfl), h⟩, And.right⟩

/-- The plan awaits two positions exactly if the plain markers are there and nowhere else. -/
theorem planCall?_eq_await_two_iff {j : Nat} :
    planCall? marker arguments = some (.await i (some j)) ↔ i < j ∧ j < arguments.length ∧
      ∀ k, kindAt? marker arguments k = some .plain ↔ k = i ∨ k = j := by
  rw [planCall?_eq_await_iff, markerPositions_eq_iff]
  simp only [Option.toList_some, List.pairwise_pair, List.mem_cons, List.not_mem_nil, or_false]
  exact and_congr_right fun _ =>
    ⟨fun h => ⟨lt_length_of_kindAt? ((h j).2 (.inr rfl)), h⟩, And.right⟩

/-- **The plan for a call is read off the kinds of its arguments.** There is none if no argument is
a marker, and otherwise the first kind in order decides, with positions that are there. One plain
marker or two are awaited at their positions, and more are too many. Of the other kinds, the first
marker counts. Every argument with a marker has its position with one kind, in ascending order, and
if the plain markers are taken out, the second one first, nothing else is. -/
theorem planCall?_by_kinds (marker : String) (arguments : List Expression) :
    let kindAt := kindAt? marker arguments
    let positions := fun kind => markerPositions marker kind arguments
    let lacks := LacksMarkers marker arguments
    let beginAt := BeginAt marker arguments
    let plan := planCall? marker arguments
    (plan = none ↔ ∀ e ∈ arguments, e.markerKind? marker = none) ∧
    (plan = MarkerKind.inOrder.findSome? fun kind =>
      if h : 0 < (positions kind).length then some (kind.plan (positions kind) h) else none) ∧
    (∀ n, plan = some (.tooMany n) ↔ n = arguments.countP (·.isPlainMarker marker) ∧ 3 ≤ n) ∧
    (∀ i, plan = some (.await i none) ↔
      i < arguments.length ∧ ∀ k, kindAt k = some .plain ↔ k = i) ∧
    (∀ i j, plan = some (.await i (some j)) ↔
      i < j ∧ j < arguments.length ∧ ∀ k, kindAt k = some .plain ↔ k = i ∨ k = j) ∧
    (∀ i, plan = some (.future i) ↔ lacks .plain ∧ beginAt .future i) ∧
    (∀ i, plan = some (.promise i) ↔ lacks .plain ∧ lacks .future ∧ beginAt .promise i) ∧
    (∀ i, plan = some (.array i) ↔
      lacks .plain ∧ lacks .future ∧ lacks .promise ∧ beginAt .array i) ∧
    (∀ kind, (positions kind).Pairwise (· < ·)) ∧
    (∀ kind kind', kind ≠ kind' → (positions kind).Disjoint (positions kind')) ∧
    (∀ i, (∃ kind, i ∈ positions kind) ↔ kindAt i ≠ none) ∧
    (∀ i second, plan = some (.await i second) →
      let s : Substitution := ⟨i, second, true⟩
      s.InBounds arguments ∧ s.rest arguments = arguments.filter (!·.isPlainMarker marker)) := by
  refine ⟨planCall?_eq_none_iff_forall, planCall?_eq_findSome?, fun n => planCall?_eq_tooMany_iff,
    fun i => planCall?_eq_await_one_iff, fun i j => planCall?_eq_await_two_iff,
    fun i => planCall?_eq_wrapped_iff.1, fun i => planCall?_eq_wrapped_iff.2.1,
    fun i => planCall?_eq_wrapped_iff.2.2,
    fun kind => markerPositions_pairwise marker kind arguments,
    fun kind kind' h_ne i h_i h_i' => ?_, fun i => ?_, fun i second => rest_of_await⟩
  · -- an argument is of one kind
    rw [mem_markerPositions_iff] at h_i h_i'
    exact h_ne (Option.some.inj (h_i.symm.trans h_i'))
  · simp only [mem_markerPositions_iff]
    exact Option.ne_none_iff_exists'.symm

/-- Two plain markers decide although a future comes before them. -/
theorem planCall?_by_kinds_mixed :
    let name (text : String) : Expression := .identifier .synthetic { name := text }
    let future : Expression := .unary .synthetic .not (name "_")
    let arguments := [name "a", future, name "_", name "b", name "_"]
    let s : Substitution := ⟨2, some 4, true⟩
    planCall? "_" arguments = some (.await 2 (some 4)) ∧ s.InBounds arguments ∧
      s.rest arguments = [name "a", future, name "b"] ∧
      (markerPositions "_" .plain arguments).Disjoint (markerPositions "_" .future arguments) := by
  intro name future arguments s
  have h_plan : planCall? "_" arguments = some (.await 2 (some 4)) := rfl
  obtain ⟨-, -, -, -, -, -, -, -, -, h_disjoint, -, h_rest⟩ := planCall?_by_kinds "_" arguments
  obtain ⟨h_bounds, h_left⟩ := h_rest 2 (some 4) h_plan
  exact ⟨h_plan, h_bounds, h_left.trans rfl, h_disjoint .plain .future (by decide)⟩

end Plans

end AsyncMarkers
