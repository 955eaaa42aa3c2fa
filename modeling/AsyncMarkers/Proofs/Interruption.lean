import AsyncMarkers.Proofs.Outline
import AsyncMarkers.Proofs.Walk
import Mathlib.Data.List.Basic

/-!
# What an interrupted walk leaves

A walk that fails leaves a tree too, and this module says which, for any visitor. Visits in turn
(`Visit.each`) put results in the place of nodes up to the first one that fails, which keeps what
its visit has left, and leave all that stand behind it as they were.

A walk over a node does that to its parts and changes nothing else of the node
(`Visitor.walk_fills`). Whatever the parts stand in, the lists and options between a node and its
parts are walked over in the same way, so there is one relation for all of them (`Visitor.Fills`),
with one lemma for each way of putting them together.
-/

namespace AsyncMarkers

/-! ### Visits in turn -/

namespace Visit

variable {ν ε α β γ δ : Type}

/-- Visits places one after another. Those behind the first failure keep what `untouched` gives. -/
def each (f : α → Visit ν ε β) (untouched : α → β) : List α → Visit ν ε (List β)
  | [] => ⟨[], [], none⟩
  | a :: as => ((f a).also (as.map untouched) (each f untouched as)).map fun (b, bs) => b :: bs

/-- After a failure, the second visit is not made. -/
theorem also_of_failure_some {v : Visit ν ε α} {e : ε} (h : v.failure = some e) (untouched : β)
    (w : Visit ν ε β) : v.also untouched w = ⟨(v.value, untouched), v.notes, some e⟩ := by
  simp only [also, h]

/-- Without a failure, it is made, and its notes come later. -/
theorem also_of_failure_none {v : Visit ν ε α} (h : v.failure = none) (untouched : β)
    (w : Visit ν ε β) :
    v.also untouched w = ⟨(v.value, w.value), v.notes ++ w.notes, w.failure⟩ := by
  simp only [also, h]

/-- Changing what two visits leave is changing what each of them leaves. -/
theorem also_map (f : α → γ) (g : β → δ) (v : Visit ν ε α) (untouched : β) (w : Visit ν ε β) :
    (v.map f).also (g untouched) (w.map g) =
      (v.also untouched w).map fun (a, b) => (f a, g b) := by
  obtain ⟨value, notes, failure⟩ := v
  cases failure <;> rfl

variable {f : α → Visit ν ε β} {untouched : α → β}

/-- Places may be visited in two parts. -/
theorem each_append (as as' : List α) :
    each f untouched (as ++ as') =
      ((each f untouched as).also (as'.map untouched) (each f untouched as')).map
        fun (bs, bs') => bs ++ bs' := by
  induction as with
  | nil => rfl
  | cons a as ih =>
    rw [List.cons_append, each, each, ih, List.map_append]
    -- it matters whether the first visit fails, and then whether one of the others does
    cases h_first : (f a).failure with
    | some e => simp only [also, h_first, map, List.cons_append]
    | none =>
      cases h_rest : (each f untouched as).failure with
      | some e => simp only [also, h_first, h_rest, map, List.cons_append]
      | none =>
        simp only [also, h_first, h_rest, map, List.cons_append, List.append_assoc]

/-- A visit to a single place is the visit to that place. -/
theorem each_singleton (a : α) : each f untouched [a] = (f a).map fun b => [b] := by
  cases h : (f a).failure with
  | some e => simp only [each, also, h, map, List.map_nil]
  | none => simp only [each, also, h, map, List.append_nil]

/-- Visits of places that are made up of smaller ones are visits of these. -/
theorem each_flatMap {g : γ → Visit ν ε δ} {left : γ → δ} {small : α → List γ} {inside : β → List δ}
    {as : List α} (h : ∀ a ∈ as, (f a).map inside = each g left (small a))
    (h_untouched : ∀ a ∈ as, inside (untouched a) = (small a).map left) :
    (each f untouched as).map (·.flatMap inside) = each g left (as.flatMap small) := by
  induction as with
  | nil => rfl
  | cons a as ih =>
    rw [List.forall_mem_cons] at h h_untouched
    -- what the failure keeps from being visited is made up of smaller places, too
    have h_rest : (as.map untouched).flatMap inside = (as.flatMap small).map left := by
      rw [List.flatMap_map, List.map_flatMap]
      exact List.flatMap_congr h_untouched.2
    rw [List.flatMap_cons, each_append, ← h.1, ← ih h.2 h_untouched.2, ← h_rest, also_map]
    rfl

/-- Visits that do not fail leave everything that each of them leaves. -/
theorem each_of_failure_none {as : List α} (h : ∀ a ∈ as, (f a).failure = none) :
    each f untouched as =
      ⟨as.map fun a => (f a).value, as.flatMap fun a => (f a).notes, none⟩ := by
  induction as with
  | nil => rfl
  | cons a as ih =>
    rw [List.forall_mem_cons] at h
    rw [each, ih h.2, also_of_failure_none h.1]
    rfl

end Visit

/-! ### Walks -/

namespace Visitor

variable {ν ε : Type} (v : Visitor ν ε)

/-- Visits nodes one after another. -/
def visitParts : List Subtree → Visit ν ε (List Subtree) := Visit.each v.visit id

/-- What a visit leaves of something with parts has other parts, namely what visits in turn leave of
them, and is the same otherwise. -/
structure Fills {α β : Type} (parts : α → List Subtree) (bare : α → β) (a : α) (w : Visit ν ε α) :
    Prop where
  parts : w.map parts = v.visitParts (parts a)
  bare : bare w.value = bare a

variable {v} {α β γ δ : Type} {parts : α → List Subtree} {parts' : β → List Subtree}
  {bare : α → γ} {bare' : β → δ} {a : α} {b : β} {w : Visit ν ε α} {w' : Visit ν ε β}

/-- What is put around something with parts has the same parts. -/
theorem Fills.map {f : α → β} (h : v.Fills parts bare a w) (g : γ → δ)
    (h_parts : ∀ a, parts' (f a) = parts a) (h_bare : ∀ a, bare' (f a) = g (bare a))
    (h_whole : f a = b) : v.Fills parts' bare' b (w.map f) where
  parts := by
    have h_comp : (w.map f).map parts' = w.map parts := by
      unfold Visit.map
      rw [h_parts]
    rw [h_comp, h.parts, ← h_parts, h_whole]
  bare := by rw [Visit.map_value, h_bare, h.bare, ← h_bare, h_whole]

/-- Two things next to each other have the parts of the first, and then those of the second. -/
theorem Fills.also (h : v.Fills parts bare a w) (h' : v.Fills parts' bare' b w') :
    v.Fills (fun c => parts c.1 ++ parts' c.2) (fun c => (bare c.1, bare' c.2)) (a, b)
      (w.also b w') where
  parts := by
    show _ = v.visitParts (parts a ++ parts' b)
    rw [visitParts, Visit.each_append, List.map_id]
    change _ = ((v.visitParts _).also _ (v.visitParts _)).map _
    rw [← h.parts, ← h'.parts, Visit.also_map]
    rfl
  bare := by
    -- if the first visit fails, the second thing is kept as it was
    cases h_failure : w.failure with
    | some e =>
      rw [Visit.also_of_failure_some h_failure]
      exact Prod.ext h.bare rfl
    | none =>
      rw [Visit.also_of_failure_none h_failure]
      exact Prod.ext h.bare h'.bare

/-- What is put around two things has the parts of both. -/
theorem Fills.both {ζ η : Type} {parts'' : ζ → List Subtree} {bare'' : ζ → η} {f : α × β → ζ}
    {c : ζ} (h : v.Fills parts bare a w) (h' : v.Fills parts' bare' b w') (g : γ → δ → η)
    (h_parts : ∀ a b, parts'' (f (a, b)) = parts a ++ parts' b)
    (h_bare : ∀ a b, bare'' (f (a, b)) = g (bare a) (bare' b)) (h_whole : f (a, b) = c) :
    v.Fills parts'' bare'' c ((w.also b w').map f) :=
  (h.also h').map (fun c => g c.1 c.2) (fun c => h_parts c.1 c.2) (fun c => h_bare c.1 c.2) h_whole

variable (v)

/-- What has no parts is left as it is. -/
theorem fills_nothing (h : parts a = []) : v.Fills parts bare a ⟨a, [], none⟩ where
  parts := by
    unfold Visit.map
    rw [h]
    rfl
  bare := rfl

/-- An expression is its own part, and so are statements and functions. -/
theorem fills_expression (e : Expression) :
    v.Fills (fun e => [.expression e]) NodeMap.blank.expression e (v.visitExpression e) where
  parts := (Visit.each_singleton (f := v.visit) (Subtree.expression e)).symm
  bare := rfl

theorem fills_statement (s : Statement) :
    v.Fills (fun s => [.statement s]) NodeMap.blank.statement s (v.visitStatement s) where
  parts := (Visit.each_singleton (f := v.visit) (Subtree.statement s)).symm
  bare := rfl

theorem fills_function (f : Function) :
    v.Fills (fun f => [.function f]) NodeMap.blank.function f (v.visitFunction f) where
  parts := (Visit.each_singleton (f := v.visit) (Subtree.function f)).symm
  bare := rfl

/-- Expressions are visited in turn. -/
theorem fills_expressions (es : List Expression) :
    v.Fills (List.map .expression) (List.map NodeMap.blank.expression) es
      (v.visitExpressions es) := by
  induction es with
  | nil =>
    rw [visitExpressions]
    exact v.fills_nothing rfl
  | cons e es ih =>
    rw [visitExpressions]
    exact (v.fills_expression e).both ih List.cons (fun _ _ => rfl) (fun _ _ => rfl) rfl

/-- So are statements. -/
theorem fills_statements (ss : List Statement) :
    v.Fills (List.map .statement) (List.map NodeMap.blank.statement) ss (v.visitStatements ss) := by
  induction ss with
  | nil =>
    rw [visitStatements]
    exact v.fills_nothing rfl
  | cons s ss ih =>
    rw [visitStatements]
    exact (v.fills_statement s).both ih List.cons (fun _ _ => rfl) (fun _ _ => rfl) rfl

/-- An expression that may be absent has one part or none. -/
theorem fills_optional (e : Option Expression) :
    v.Fills optionalParts (Option.map NodeMap.blank.expression) e (v.visitOptional e) := by
  cases e with
  | none =>
    rw [visitOptional]
    exact v.fills_nothing rfl
  | some e =>
    rw [visitOptional]
    exact (v.fills_expression e).map some (fun _ => rfl) (fun _ => rfl) rfl

/-- So has a branch that may be absent. -/
theorem fills_branch (s : Option Statement) :
    v.Fills branchParts (Option.map NodeMap.blank.statement) s (v.visitBranch s) := by
  cases s with
  | none =>
    rw [visitBranch]
    exact v.fills_nothing rfl
  | some s =>
    rw [visitBranch]
    exact (v.fills_statement s).map some (fun _ => rfl) (fun _ => rfl) rfl

/-- The elements of an array, some of which may be absent. -/
theorem fills_elements (es : List (Option Expression)) :
    v.Fills (List.flatMap optionalParts) (List.map (Option.map NodeMap.blank.expression)) es
      (v.visitElements es) := by
  induction es with
  | nil =>
    rw [visitElements]
    exact v.fills_nothing rfl
  | cons e es ih =>
    rw [visitElements]
    exact (v.fills_optional e).both ih List.cons (fun _ _ => List.flatMap_cons) (fun _ _ => rfl) rfl

/-- The key of a property is a part if it is computed. -/
theorem fills_property (p : Property) :
    v.Fills Property.parts (Property.mapParts .blank) p (v.visitProperty p) := by
  cases p with
  | named key value =>
    rw [visitProperty]
    exact (v.fills_expression value).map (.named key) (fun _ => rfl) (fun _ => rfl) rfl
  | literal key value =>
    rw [visitProperty]
    exact (v.fills_expression value).map (.literal key) (fun _ => rfl) (fun _ => rfl) rfl
  | computed key value =>
    rw [visitProperty]
    exact (v.fills_expression key).both (v.fills_expression value) .computed (fun _ _ => rfl)
      (fun _ _ => rfl) rfl

/-- Properties are visited in turn. -/
theorem fills_properties (ps : List Property) :
    v.Fills (List.flatMap Property.parts) (List.map (Property.mapParts .blank)) ps
      (v.visitProperties ps) := by
  induction ps with
  | nil =>
    rw [visitProperties]
    exact v.fills_nothing rfl
  | cons p ps ih =>
    rw [visitProperties]
    exact (v.fills_property p).both ih List.cons (fun _ _ => List.flatMap_cons) (fun _ _ => rfl) rfl

/-- So are declarators, for the sake of their initial values. -/
theorem fills_declarators (ds : List Declarator) :
    v.Fills (List.flatMap Declarator.parts) (List.map (Declarator.mapParts .blank)) ds
      (v.visitDeclarators ds) := by
  induction ds with
  | nil =>
    rw [visitDeclarators]
    exact v.fills_nothing rfl
  | cons d ds ih =>
    obtain ⟨id, init⟩ := d
    have h_first : v.Fills Declarator.parts (Declarator.mapParts .blank) (.mk id init)
        (v.visitDeclarator (.mk id init)) := by
      rw [visitDeclarator]
      exact (v.fills_optional init).map (.mk id) (fun _ => rfl) (fun _ => rfl) rfl
    rw [visitDeclarators]
    exact h_first.both ih List.cons (fun _ _ => List.flatMap_cons) (fun _ _ => rfl) rfl

/-- The parts of an expression are visited in turn. -/
theorem fills_walkExpression (e : Expression) :
    v.Fills Expression.parts (Expression.mapParts .blank) e (v.walkExpression e) := by
  -- each case names the parts in the order in which they are visited, and how they are put together
  cases e with
  | identifier _ _ | literal _ _ | this _ =>
    rw [walkExpression]
    exact v.fills_nothing rfl
  | array s elements =>
    rw [walkExpression]
    exact (v.fills_elements elements).map (.array s) (fun _ => rfl) (fun _ => rfl) rfl
  | object s properties =>
    rw [walkExpression]
    exact (v.fills_properties properties).map (.object s) (fun _ => rfl) (fun _ => rfl) rfl
  | function s f =>
    rw [walkExpression]
    exact (v.fills_function f).map (.function s) (fun _ => rfl) (fun _ => rfl) rfl
  | arrow s f =>
    rw [walkExpression]
    exact (v.fills_function f).map (.arrow s) (fun _ => rfl) (fun _ => rfl) rfl
  | unary s op argument =>
    rw [walkExpression]
    exact (v.fills_expression argument).map (.unary s op) (fun _ => rfl) (fun _ => rfl) rfl
  | binary s op left right =>
    rw [walkExpression]
    exact (v.fills_expression left).both (v.fills_expression right) (.binary s op) (fun _ _ => rfl)
      (fun _ _ => rfl) rfl
  | logical s op left right =>
    rw [walkExpression]
    exact (v.fills_expression left).both (v.fills_expression right) (.logical s op) (fun _ _ => rfl)
      (fun _ _ => rfl) rfl
  | assignment s op target value =>
    rw [walkExpression]
    exact (v.fills_expression target).both (v.fills_expression value) (.assignment s op)
      (fun _ _ => rfl) (fun _ _ => rfl) rfl
  | conditional s test consequent alternate =>
    rw [walkExpression]
    exact (v.fills_expression test).both
      ((v.fills_expression consequent).also (v.fills_expression alternate))
      (fun test rest => .conditional s test rest.1 rest.2) (fun _ _ => rfl) (fun _ _ => rfl) rfl
  | member s base property =>
    rw [walkExpression]
    exact (v.fills_expression base).map (.member s · property) (fun _ => rfl) (fun _ => rfl) rfl
  | index s base property =>
    rw [walkExpression]
    exact (v.fills_expression base).both (v.fills_expression property) (.index s) (fun _ _ => rfl)
      (fun _ _ => rfl) rfl
  | call s callee arguments =>
    rw [walkExpression]
    exact (v.fills_expression callee).both (v.fills_expressions arguments) (.call s)
      (fun _ _ => rfl) (fun _ _ => rfl) rfl
  | construct s callee arguments =>
    rw [walkExpression]
    exact (v.fills_expression callee).both (v.fills_expressions arguments) (.construct s)
      (fun _ _ => rfl) (fun _ _ => rfl) rfl
  | sequence s items =>
    rw [walkExpression]
    exact (v.fills_expressions items).map (.sequence s) (fun _ => rfl) (fun _ => rfl) rfl
  | spread s argument =>
    rw [walkExpression]
    exact (v.fills_expression argument).map (.spread s) (fun _ => rfl) (fun _ => rfl) rfl

/-- The parts of a function are visited in turn. -/
theorem fills_walkFunction (f : Function) :
    v.Fills Function.parts (Function.mapParts .blank) f (v.walkFunction f) := by
  cases f with
  | block head statements =>
    rw [walkFunction]
    exact (v.fills_statements statements).map (.block head) (fun _ => rfl) (fun _ => rfl) rfl
  | value head result =>
    rw [walkFunction]
    exact (v.fills_expression result).map (.value head) (fun _ => rfl) (fun _ => rfl) rfl

/-- The parts of a statement are visited in turn. -/
theorem fills_walkStatement (s : Statement) :
    v.Fills Statement.parts (Statement.mapParts .blank) s (v.walkStatement s) := by
  cases s with
  | expression info e =>
    rw [walkStatement]
    exact (v.fills_expression e).map (.expression info) (fun _ => rfl) (fun _ => rfl) rfl
  | «variables» info kind declarators =>
    rw [walkStatement]
    exact (v.fills_declarators declarators).map (.variables info kind) (fun _ => rfl)
      (fun _ => rfl) rfl
  | function info f =>
    rw [walkStatement]
    exact (v.fills_function f).map (.function info) (fun _ => rfl) (fun _ => rfl) rfl
  | «return» info result =>
    rw [walkStatement]
    exact (v.fills_optional result).map (.return info) (fun _ => rfl) (fun _ => rfl) rfl
  | ifElse info test consequent alternate =>
    rw [walkStatement]
    exact (v.fills_expression test).both
      ((v.fills_statement consequent).also (v.fills_branch alternate))
      (fun test rest => .ifElse info test rest.1 rest.2) (fun _ _ => rfl) (fun _ _ => rfl) rfl
  | «while» info test body =>
    rw [walkStatement]
    exact (v.fills_expression test).both (v.fills_statement body) (.while info) (fun _ _ => rfl)
      (fun _ _ => rfl) rfl
  | block info statements =>
    rw [walkStatement]
    exact (v.fills_statements statements).map (.block info) (fun _ => rfl) (fun _ => rfl) rfl
  | throw info thrown =>
    rw [walkStatement]
    exact (v.fills_expression thrown).map (.throw info) (fun _ => rfl) (fun _ => rfl) rfl
  | empty info =>
    rw [walkStatement]
    exact v.fills_nothing rfl

/-- A walk over a node visits its parts in turn, and leaves the rest of the node as it is. -/
theorem walk_fills (t : Subtree) : v.Fills Subtree.parts Subtree.bare t (v.walk t) := by
  cases t with
  | statement s => exact (v.fills_walkStatement s).map .statement (fun _ => rfl) (fun _ => rfl) rfl
  | function f => exact (v.fills_walkFunction f).map .function (fun _ => rfl) (fun _ => rfl) rfl
  | expression e =>
    exact (v.fills_walkExpression e).map .expression (fun _ => rfl) (fun _ => rfl) rfl

/-- A walk over a program visits its statements in turn. -/
theorem walkProgram_fills (p : Program) :
    v.Fills (fun p => p.body.map .statement) Program.bare p (v.walkProgram p) :=
  (v.fills_statements p.body).map (fun body => ⟨body, p.span⟩) (fun _ => rfl) (fun _ => rfl) rfl

end Visitor

end AsyncMarkers
