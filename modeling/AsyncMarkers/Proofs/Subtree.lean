import AsyncMarkers.Tree.Load

/-!
# Subtrees

A tree is a mutual family of twelve types, and a statement about all of it would have to be proved
twelve times over. Three of the types hold the nodes that a walk stops at: statements, functions and
expressions. `Subtree` is any of these, and `Subtree.parts` are the nodes right below it, left to
right, whatever lists, properties, declarators and holes stand between. In these terms a tree is a
node with a list of parts, and one induction does for all types:

* `Subtree.descendants_eq` — the pre-order listing of a tree is made of the listings of its parts;
* `Subtree.load_lt_of_mem_parts` — a part has a smaller load than the node;
* `Subtree.parts_mapParts` and `Subtree.mapParts_eq_self` — how a node changes with its parts.
-/

namespace AsyncMarkers

/-- A node of a tree with everything below it. -/
inductive Subtree where
  | statement (s : Statement)
  | function (f : Function)
  | expression (e : Expression)

/-! ### Parts -/

/-- The expression in a place that may be empty. -/
def optionalParts : Option Expression → List Subtree
  | none => []
  | some e => [.expression e]

/-- The statement in a place that may be empty. -/
def branchParts : Option Statement → List Subtree
  | none => []
  | some s => [.statement s]

/-- The value of a property, and its key if that is computed. -/
def Property.parts : Property → List Subtree
  | .named _ value => [.expression value]
  | .literal _ value => [.expression value]
  | .computed key value => [.expression key, .expression value]

/-- The initial value of a variable, if it has one. -/
def Declarator.parts : Declarator → List Subtree
  | .mk _ init => optionalParts init

/-- The nodes right below an expression, left to right. -/
def Expression.parts : Expression → List Subtree
  | .identifier _ _ | .literal _ _ | .this _ => []
  | .array _ elements => elements.flatMap optionalParts
  | .object _ properties => properties.flatMap Property.parts
  | .function _ f | .arrow _ f => [.function f]
  | .unary _ _ argument | .spread _ argument => [.expression argument]
  | .binary _ _ left right | .logical _ _ left right => [.expression left, .expression right]
  | .assignment _ _ target value => [.expression target, .expression value]
  | .conditional _ test consequent alternate =>
    [.expression test, .expression consequent, .expression alternate]
  | .member _ base _ => [.expression base]
  | .index _ base property => [.expression base, .expression property]
  | .call _ callee arguments | .construct _ callee arguments =>
    .expression callee :: arguments.map .expression
  | .sequence _ items => items.map .expression

/-- The statements of a function, or its result. -/
def Function.parts : Function → List Subtree
  | .block _ statements => statements.map .statement
  | .value _ result => [.expression result]

/-- The nodes right below a statement, left to right. -/
def Statement.parts : Statement → List Subtree
  | .expression _ e | .throw _ e => [.expression e]
  | .variables _ _ declarators => declarators.flatMap Declarator.parts
  | .function _ f => [.function f]
  | .return _ result => optionalParts result
  | .ifElse _ test consequent alternate =>
    .expression test :: .statement consequent :: branchParts alternate
  | .while _ test body => [.expression test, .statement body]
  | .block _ statements => statements.map .statement
  | .empty _ => []

/-- The nodes right below a node, left to right. -/
def Subtree.parts : Subtree → List Subtree
  | .statement s => s.parts
  | .function f => f.parts
  | .expression e => e.parts

/-- The comments and the span of a statement are no nodes. -/
theorem Statement.parts_withInfo (s : Statement) (info : StatementInfo) :
    (s.withInfo info).parts = s.parts := by
  cases s <;> rfl

/-! ### The listing -/

mutual

/-- Everything below an expression, in pre-order. -/
def Expression.descendants : Expression → List Subtree
  | .identifier _ _ | .literal _ _ | .this _ => []
  | .array _ elements => elementsListing elements
  | .object _ properties => propertiesListing properties
  | .function _ f | .arrow _ f => .function f :: f.descendants
  | .unary _ _ argument | .spread _ argument => .expression argument :: argument.descendants
  | .binary _ _ left right | .logical _ _ left right =>
    .expression left :: left.descendants ++ .expression right :: right.descendants
  | .assignment _ _ target value =>
    .expression target :: target.descendants ++ .expression value :: value.descendants
  | .conditional _ test consequent alternate =>
    .expression test :: test.descendants ++ .expression consequent :: consequent.descendants ++
      .expression alternate :: alternate.descendants
  | .member _ base _ => .expression base :: base.descendants
  | .index _ base property =>
    .expression base :: base.descendants ++ .expression property :: property.descendants
  | .call _ callee arguments | .construct _ callee arguments =>
    .expression callee :: callee.descendants ++ expressionsListing arguments
  | .sequence _ items => expressionsListing items

/-- The expressions of a list with everything below them. -/
def expressionsListing : List Expression → List Subtree
  | [] => []
  | e :: es => .expression e :: e.descendants ++ expressionsListing es

/-- The expression in a place that may be empty, with everything below it. -/
def optionalListing : Option Expression → List Subtree
  | none => []
  | some e => .expression e :: e.descendants

/-- The elements of an array with everything below them. -/
def elementsListing : List (Option Expression) → List Subtree
  | [] => []
  | e :: es => optionalListing e ++ elementsListing es

/-- The parts of a property with everything below them. -/
def Property.listing : Property → List Subtree
  | .named _ value | .literal _ value => .expression value :: value.descendants
  | .computed key value =>
    .expression key :: key.descendants ++ .expression value :: value.descendants

/-- The parts of properties with everything below them. -/
def propertiesListing : List Property → List Subtree
  | [] => []
  | p :: ps => p.listing ++ propertiesListing ps

/-- Everything below a function, in pre-order. -/
def Function.descendants : Function → List Subtree
  | .block _ statements => statementsListing statements
  | .value _ result => .expression result :: result.descendants

/-- Everything below a statement, in pre-order. -/
def Statement.descendants : Statement → List Subtree
  | .expression _ e | .throw _ e => .expression e :: e.descendants
  | .variables _ _ declarators => declaratorsListing declarators
  | .function _ f => .function f :: f.descendants
  | .return _ result => optionalListing result
  | .ifElse _ test consequent alternate =>
    .expression test :: test.descendants ++ .statement consequent :: consequent.descendants ++
      branchListing alternate
  | .while _ test body =>
    .expression test :: test.descendants ++ .statement body :: body.descendants
  | .block _ statements => statementsListing statements
  | .empty _ => []

/-- The statement in a place that may be empty, with everything below it. -/
def branchListing : Option Statement → List Subtree
  | none => []
  | some s => .statement s :: s.descendants

/-- The statements of a list with everything below them. -/
def statementsListing : List Statement → List Subtree
  | [] => []
  | s :: ss => .statement s :: s.descendants ++ statementsListing ss

/-- The initial value of a variable with everything below it. -/
def Declarator.listing : Declarator → List Subtree
  | .mk _ init => optionalListing init

/-- The initial values of variables with everything below them. -/
def declaratorsListing : List Declarator → List Subtree
  | [] => []
  | d :: ds => d.listing ++ declaratorsListing ds

end

namespace Subtree

/-- Everything below a node, in pre-order. -/
def descendants : Subtree → List Subtree
  | .statement s => s.descendants
  | .function f => f.descendants
  | .expression e => e.descendants

/-- A node and everything below it, in pre-order: each node stands before its parts, and these stand
left to right. -/
def listing (t : Subtree) : List Subtree := t :: t.descendants

end Subtree

/-- All nodes of a program, in pre-order. -/
def Program.listing (p : Program) : List Subtree := statementsListing p.body

section Listing

/-- A place that may be empty lists what its parts list. -/
theorem optionalListing_eq (e : Option Expression) :
    optionalListing e = (optionalParts e).flatMap Subtree.listing := by
  cases e <;> simp [optionalListing, optionalParts, Subtree.listing, Subtree.descendants]

theorem branchListing_eq (s : Option Statement) :
    branchListing s = (branchParts s).flatMap Subtree.listing := by
  cases s <;> simp [branchListing, branchParts, Subtree.listing, Subtree.descendants]

/-- A list of expressions lists what they list as nodes. -/
theorem expressionsListing_eq (es : List Expression) :
    expressionsListing es = (es.map .expression).flatMap Subtree.listing := by
  induction es with
  | nil => rfl
  | cons e es ih => simp [expressionsListing, ih, Subtree.listing, Subtree.descendants]

/-- A list of statements lists what they list as nodes. -/
theorem statementsListing_eq (ss : List Statement) :
    statementsListing ss = (ss.map .statement).flatMap Subtree.listing := by
  induction ss with
  | nil => rfl
  | cons s ss ih => simp [statementsListing, ih, Subtree.listing, Subtree.descendants]

theorem elementsListing_eq (es : List (Option Expression)) :
    elementsListing es = (es.flatMap optionalParts).flatMap Subtree.listing := by
  induction es with
  | nil => rfl
  | cons e es ih => simp only [elementsListing, ih, optionalListing_eq, List.flatMap_cons,
      List.flatMap_append]

theorem propertiesListing_eq (ps : List Property) :
    propertiesListing ps = (ps.flatMap Property.parts).flatMap Subtree.listing := by
  induction ps with
  | nil => rfl
  | cons p ps ih =>
    cases p <;>
      simp [propertiesListing, Property.listing, ih, Property.parts, Subtree.listing,
        Subtree.descendants]

theorem declaratorsListing_eq (ds : List Declarator) :
    declaratorsListing ds = (ds.flatMap Declarator.parts).flatMap Subtree.listing := by
  induction ds with
  | nil => rfl
  | cons d ds ih =>
    cases d
    simp only [declaratorsListing, Declarator.listing, ih, optionalListing_eq, Declarator.parts,
      List.flatMap_cons, List.flatMap_append]

/-- The listing of a tree is made of the listings of its parts. -/
theorem Subtree.descendants_eq (t : Subtree) : t.descendants = t.parts.flatMap Subtree.listing := by
  cases t with
  | statement s =>
    -- every form of a statement names its parts twice, once for each definition
    cases s <;>
      simp [descendants, parts, Statement.descendants, Statement.parts, listing,
        statementsListing_eq, declaratorsListing_eq, optionalListing_eq, branchListing_eq]
  | function f =>
    cases f <;>
      simp [descendants, parts, Function.descendants, Function.parts, listing, statementsListing_eq]
  | expression e =>
    cases e <;>
      simp [descendants, parts, Expression.descendants, Expression.parts, listing,
        expressionsListing_eq, elementsListing_eq, propertiesListing_eq]

/-- A node stands before its parts. -/
theorem Subtree.listing_eq (t : Subtree) : t.listing = t :: t.parts.flatMap Subtree.listing := by
  rw [listing, descendants_eq]

/-- The nodes of a program are those of its statements. -/
theorem Program.listing_eq (p : Program) :
    p.listing = (p.body.map .statement).flatMap Subtree.listing :=
  statementsListing_eq p.body

/-- All nodes of a tree have a property. -/
def Subtree.Everywhere (P : Subtree → Prop) (t : Subtree) : Prop := ∀ n ∈ t.listing, P n

/-- What holds of all nodes of a tree holds of the node on top and of all nodes of its parts. -/
theorem Subtree.everywhere_iff {P : Subtree → Prop} {t : Subtree} :
    t.Everywhere P ↔ P t ∧ ∀ part ∈ t.parts, part.Everywhere P := by
  unfold Everywhere
  -- a node of the listing is the top or stands in the listing of a part
  rw [listing_eq]
  simp only [List.mem_cons, List.mem_flatMap]
  constructor
  · intro h
    exact ⟨h t (.inl rfl), fun part h_part n hn => h n (.inr ⟨part, h_part, hn⟩)⟩
  · rintro ⟨h_top, h_parts⟩ n (rfl | ⟨part, h_part, hn⟩)
    · exact h_top
    · exact h_parts part h_part n hn

/-- What is gathered at the nodes of a tree, in pre-order. -/
def Subtree.gather {β : Type} (f : Subtree → List β) (t : Subtree) : List β := t.listing.flatMap f

/-- What is gathered at the top comes before what is gathered at the parts. -/
theorem Subtree.gather_eq {β : Type} (f : Subtree → List β) (t : Subtree) :
    t.gather f = f t ++ t.parts.flatMap (gather f) := by
  unfold gather
  rw [listing_eq, List.flatMap_cons, List.flatMap_assoc]

/-- The nodes where a property fails: a property holds everywhere if none of these is gathered. -/
def Subtree.failing (P : Subtree → Prop) [DecidablePred P] (n : Subtree) : List Subtree :=
  if P n then [] else [n]

/-- A property holds everywhere if and only if no node fails it. -/
theorem Subtree.everywhere_iff_gather {P : Subtree → Prop} [DecidablePred P] {t : Subtree} :
    t.Everywhere P ↔ t.gather (failing P) = [] := by
  simp only [Everywhere, gather, failing, List.flatMap_eq_nil_iff, ite_eq_left_iff,
    List.cons_ne_nil, imp_false, Decidable.not_not]

theorem Subtree.forall_everywhere_iff {P : Subtree → Prop} [DecidablePred P] {ts : List Subtree} :
    (∀ t ∈ ts, t.Everywhere P) ↔ ts.flatMap (gather (failing P)) = [] := by
  simp only [everywhere_iff_gather, List.flatMap_eq_nil_iff]

/-- All nodes of a program are in the listing of a statement. -/
theorem Program.forall_listing_iff {P : Subtree → Prop} {p : Program} :
    (∀ n ∈ p.listing, P n) ↔ ∀ s ∈ p.body, (Subtree.statement s).Everywhere P := by
  rw [listing_eq]
  constructor
  · intro h s hs n hn
    exact h n (List.mem_flatMap.2 ⟨_, List.mem_map_of_mem hs, hn⟩)
  · intro h n hn
    -- the node stands in the listing of a node that is one of the statements
    obtain ⟨t, ht, hn⟩ := List.mem_flatMap.1 hn
    obtain ⟨s, hs, rfl⟩ := List.mem_map.1 ht
    exact h s hs n hn

end Listing

/-! ### Loads -/

/-- The load of a subtree. -/
def Subtree.load (c : Cost) : Subtree → Nat
  | .statement s => s.load c
  | .function f => f.load c
  | .expression e => e.load c

section Load

variable {c : Cost} {part : Subtree}

@[simp] theorem Subtree.load_statement (s : Statement) :
    (Subtree.statement s).load c = s.load c := rfl

@[simp] theorem Subtree.load_function (f : Function) : (Subtree.function f).load c = f.load c := rfl

@[simp] theorem Subtree.load_expression (e : Expression) :
    (Subtree.expression e).load c = e.load c := rfl

/-- The load of a list of subtrees. -/
def partsLoad (c : Cost) : List Subtree → Nat
  | [] => 0
  | t :: ts => t.load c + partsLoad c ts

/-- As parts, the expressions of a list weigh what they weigh in the list. -/
theorem partsLoad_expressions (es : List Expression) :
    partsLoad c (es.map .expression) = expressionsLoad c es := by
  induction es with
  | nil => rfl
  | cons e es ih => simpa [partsLoad, expressionsLoad] using ih

theorem partsLoad_statements (ss : List Statement) :
    partsLoad c (ss.map .statement) = statementsLoad c ss := by
  induction ss with
  | nil => rfl
  | cons s ss ih => simpa [partsLoad, statementsLoad] using ih

theorem partsLoad_optional (e : Option Expression) :
    partsLoad c (optionalParts e) = optionalLoad c e := by
  cases e <;> simp [partsLoad, optionalParts, optionalLoad]

theorem partsLoad_branch (s : Option Statement) :
    partsLoad c (branchParts s) = branchLoad c s := by
  cases s <;> simp [partsLoad, branchParts, branchLoad]

/-- The load of parts is additive. -/
theorem partsLoad_append (ts us : List Subtree) :
    partsLoad c (ts ++ us) = partsLoad c ts + partsLoad c us := by
  induction ts with
  | nil => exact (Nat.zero_add _).symm
  | cons t ts ih => rw [List.cons_append, partsLoad, ih, partsLoad, Nat.add_assoc]

/-- No part weighs more than all parts together. -/
theorem load_le_partsLoad {ts : List Subtree} (h : part ∈ ts) : part.load c ≤ partsLoad c ts := by
  induction ts with
  | nil => cases h
  | cons t ts ih =>
    rw [partsLoad]
    rcases List.mem_cons.1 h with rfl | h
    · exact Nat.le_add_right _ _
    · exact Nat.le_trans (ih h) (Nat.le_add_left _ _)

/-- The holes of an array may weigh something, but the elements weigh no less as parts. -/
theorem partsLoad_elements_le (es : List (Option Expression)) :
    partsLoad c (es.flatMap optionalParts) ≤ elementsLoad c es := by
  induction es with
  | nil => exact Nat.le_refl _
  | cons e es ih =>
    rw [List.flatMap_cons, partsLoad_append, partsLoad_optional, elementsLoad]
    omega

/-- The keys of properties may weigh something besides their parts. -/
theorem partsLoad_properties_le (ps : List Property) :
    partsLoad c (ps.flatMap Property.parts) ≤ propertiesLoad c ps := by
  induction ps with
  | nil => exact Nat.le_refl _
  | cons p ps ih =>
    -- a key that is not computed is not a part, and only adds to the load of the property
    have h_first : partsLoad c p.parts ≤ p.load c := by
      cases p <;> simp [partsLoad, Property.parts, Property.load]
    rw [List.flatMap_cons, partsLoad_append, propertiesLoad]
    omega

theorem partsLoad_declarators_le (ds : List Declarator) :
    partsLoad c (ds.flatMap Declarator.parts) ≤ declaratorsLoad c ds := by
  induction ds with
  | nil => exact Nat.le_refl _
  | cons d ds ih =>
    obtain ⟨id, init⟩ := d
    rw [List.flatMap_cons, partsLoad_append, Declarator.parts, partsLoad_optional, declaratorsLoad,
      Declarator.load]
    omega

/-- The parts of a node together have a smaller load than the node. -/
theorem Subtree.partsLoad_lt (c : Cost) (t : Subtree) : partsLoad c t.parts < t.load c := by
  -- where holes, keys or names stand between the parts, these weigh something of their own
  cases t with
  | statement s =>
    cases s with
    | «variables» info kind declarators =>
      have := partsLoad_declarators_le (c := c) declarators
      simp only [parts, Statement.parts, load_statement, Statement.load]
      omega
    -- the node itself weighs something, and the parts all of the rest
    | _ =>
      simp only [parts, Statement.parts, load_statement, Statement.load, partsLoad,
        partsLoad_optional, partsLoad_branch, partsLoad_statements, load_expression, load_function]
      omega
  | function f =>
    cases f <;>
      simp only [parts, Function.parts, load_function, Function.load, partsLoad,
        partsLoad_statements, load_expression] <;>
      omega
  | expression e =>
    cases e with
    | array s elements =>
      have := partsLoad_elements_le (c := c) elements
      simp only [parts, Expression.parts, load_expression, Expression.load]
      omega
    | object s properties =>
      have := partsLoad_properties_le (c := c) properties
      simp only [parts, Expression.parts, load_expression, Expression.load]
      omega
    -- the node itself weighs something, and the parts all of the rest
    | _ =>
      simp only [parts, Expression.parts, load_expression, load_function, Expression.load,
        partsLoad, partsLoad_expressions]
      omega

/-- A part has a smaller load than the node that it is a part of. -/
theorem Subtree.load_lt_of_mem_parts (c : Cost) {t part : Subtree} (h : part ∈ t.parts) :
    part.load c < t.load c :=
  Nat.lt_of_le_of_lt (load_le_partsLoad h) (t.partsLoad_lt c)

end Load

/-- What holds of a node as soon as it holds of its parts holds of every node. -/
theorem Subtree.parts_induction {P : Subtree → Prop}
    (step : ∀ t : Subtree, (∀ part ∈ t.parts, P part) → P t) (t : Subtree) : P t := by
  -- the induction is on the load, which is smaller for each part, whatever the costs are
  induction h_load : t.load .none using Nat.strongRecOn generalizing t with
  | ind n ih =>
    refine step t fun part h_part => ih (part.load .none) ?_ part rfl
    rw [← h_load]
    exact load_lt_of_mem_parts .none h_part

/-- What holds everywhere in a tree holds everywhere in the trees below its nodes. -/
theorem Subtree.Everywhere.below {P : Subtree → Prop} {t : Subtree} (h : t.Everywhere P) :
    t.Everywhere (·.Everywhere P) := by
  induction t using Subtree.parts_induction with
  | step t ih =>
    -- the tree below a part is below the node too, so the induction hypothesis applies to it
    rw [everywhere_iff]
    exact ⟨h, fun part h_part => ih part h_part ((everywhere_iff.1 h).2 part h_part)⟩

/-! ### Changing the parts of a node -/

/-- What becomes of each node, kind by kind. -/
structure NodeMap where
  statement : Statement → Statement
  function : Function → Function
  expression : Expression → Expression

/-- What becomes of a node. -/
def NodeMap.apply (m : NodeMap) : Subtree → Subtree
  | .statement s => .statement (m.statement s)
  | .function f => .function (m.function f)
  | .expression e => .expression (m.expression e)

section Map

variable (m : NodeMap)

/-- A property with its parts changed. -/
def Property.mapParts : Property → Property
  | .named key value => .named key (m.expression value)
  | .literal key value => .literal key (m.expression value)
  | .computed key value => .computed (m.expression key) (m.expression value)

/-- A declarator with its initial value changed. -/
def Declarator.mapParts : Declarator → Declarator
  | .mk id init => .mk id (init.map m.expression)

/-- An expression with each of its parts changed, and all else as it was. -/
def Expression.mapParts : Expression → Expression
  | .identifier s id => .identifier s id
  | .literal s value => .literal s value
  | .this s => .this s
  | .array s elements => .array s (elements.map (Option.map m.expression))
  | .object s properties => .object s (properties.map (Property.mapParts m))
  | .function s f => .function s (m.function f)
  | .arrow s f => .arrow s (m.function f)
  | .unary s op argument => .unary s op (m.expression argument)
  | .binary s op left right => .binary s op (m.expression left) (m.expression right)
  | .logical s op left right => .logical s op (m.expression left) (m.expression right)
  | .assignment s op target value => .assignment s op (m.expression target) (m.expression value)
  | .conditional s test consequent alternate =>
    .conditional s (m.expression test) (m.expression consequent) (m.expression alternate)
  | .member s base property => .member s (m.expression base) property
  | .index s base property => .index s (m.expression base) (m.expression property)
  | .call s callee arguments => .call s (m.expression callee) (arguments.map m.expression)
  | .construct s callee arguments => .construct s (m.expression callee) (arguments.map m.expression)
  | .sequence s items => .sequence s (items.map m.expression)
  | .spread s argument => .spread s (m.expression argument)

/-- A function with its statements or its result changed. -/
def Function.mapParts : Function → Function
  | .block head statements => .block head (statements.map m.statement)
  | .value head result => .value head (m.expression result)

/-- A statement with each of its parts changed, and all else as it was. -/
def Statement.mapParts : Statement → Statement
  | .expression i e => .expression i (m.expression e)
  | .variables i kind declarators => .variables i kind (declarators.map (Declarator.mapParts m))
  | .function i f => .function i (m.function f)
  | .return i result => .return i (result.map m.expression)
  | .ifElse i test consequent alternate =>
    .ifElse i (m.expression test) (m.statement consequent) (alternate.map m.statement)
  | .while i test body => .while i (m.expression test) (m.statement body)
  | .block i statements => .block i (statements.map m.statement)
  | .throw i thrown => .throw i (m.expression thrown)
  | .empty i => .empty i

/-- The node with each of its parts changed. -/
def Subtree.mapParts : Subtree → Subtree
  | .statement s => .statement (s.mapParts m)
  | .function f => .function (f.mapParts m)
  | .expression e => .expression (e.mapParts m)

/-- An empty place stays empty. -/
theorem map_optionalParts (e : Option Expression) :
    (optionalParts e).map m.apply = optionalParts (e.map m.expression) := by
  cases e <;> rfl

theorem map_branchParts (s : Option Statement) :
    (branchParts s).map m.apply = branchParts (s.map m.statement) := by
  cases s <;> rfl

theorem map_propertyParts (p : Property) : p.parts.map m.apply = (p.mapParts m).parts := by
  cases p <;> rfl

theorem map_declaratorParts (d : Declarator) : d.parts.map m.apply = (d.mapParts m).parts := by
  cases d
  exact map_optionalParts m _

/-- The parts of a node whose parts have been changed are the changed parts. -/
theorem Subtree.parts_mapParts (t : Subtree) : (t.mapParts m).parts = t.parts.map m.apply := by
  cases t with
  | statement s =>
    -- by the form of the node: the parts that stand in lists are mapped in the list
    cases s <;>
      simp [mapParts, Statement.mapParts, parts, Statement.parts, NodeMap.apply, List.map_flatMap,
        List.flatMap_map, map_optionalParts, map_branchParts, map_declaratorParts]
  | function f =>
    cases f <;> simp [mapParts, Function.mapParts, parts, Function.parts, NodeMap.apply]
  | expression e =>
    cases e <;>
      simp [mapParts, Expression.mapParts, parts, Expression.parts, NodeMap.apply, List.map_flatMap,
        List.flatMap_map, map_optionalParts, map_propertyParts]

/-- The map that leaves every node as it is. -/
def NodeMap.id : NodeMap := ⟨fun s => s, fun f => f, fun e => e⟩

variable {m} {m' : NodeMap}

/-- What becomes of an expression that may be absent depends on its part alone. -/
theorem map_optional_congr {e : Option Expression}
    (h : ∀ part ∈ optionalParts e, m.apply part = m'.apply part) :
    e.map m.expression = e.map m'.expression := by
  cases e with
  | none => rfl
  | some e => simpa [optionalParts, NodeMap.apply] using h

theorem map_branch_congr {s : Option Statement}
    (h : ∀ part ∈ branchParts s, m.apply part = m'.apply part) :
    s.map m.statement = s.map m'.statement := by
  cases s with
  | none => rfl
  | some s => simpa [branchParts, NodeMap.apply] using h

theorem Property.mapParts_congr {p : Property}
    (h : ∀ part ∈ p.parts, m.apply part = m'.apply part) : p.mapParts m = p.mapParts m' := by
  cases p <;> simpa [Property.parts, Property.mapParts, NodeMap.apply] using h

theorem Declarator.mapParts_congr {d : Declarator}
    (h : ∀ part ∈ d.parts, m.apply part = m'.apply part) : d.mapParts m = d.mapParts m' := by
  obtain ⟨id, init⟩ := d
  rw [Declarator.mapParts, map_optional_congr h, Declarator.mapParts]

/-- What becomes of a node depends only on what becomes of its parts. -/
theorem Subtree.mapParts_congr {t : Subtree}
    (h : ∀ part ∈ t.parts, m.apply part = m'.apply part) : t.mapParts m = t.mapParts m' := by
  cases t with
  | statement s =>
    cases s with
    -- the parts stand in declarators, each of which is a function of its own parts
    | «variables» info kind declarators =>
      have h_map : declarators.map (Declarator.mapParts m) =
          declarators.map (Declarator.mapParts m') :=
        List.map_congr_left fun d hd =>
          Declarator.mapParts_congr fun part h_part => h part (List.mem_flatMap.2 ⟨d, hd, h_part⟩)
      simp only [mapParts, Statement.mapParts, h_map]
    | «return» info result =>
      simp only [mapParts, Statement.mapParts, map_optional_congr h]
    | ifElse info test consequent alternate =>
      simp only [parts, Statement.parts, List.forall_mem_cons] at h
      obtain ⟨h_test, h_consequent, h_alternate⟩ := h
      simp_all [mapParts, Statement.mapParts, map_branch_congr h_alternate, NodeMap.apply]
    | _ => simp_all [mapParts, Statement.mapParts, parts, Statement.parts, NodeMap.apply]
  | function f =>
    cases f <;> simp_all [mapParts, Function.mapParts, parts, Function.parts, NodeMap.apply]
  | expression e =>
    cases e with
    -- the parts stand among holes, which stay as they are
    | array s elements =>
      have h_map : elements.map (Option.map m.expression) =
          elements.map (Option.map m'.expression) :=
        List.map_congr_left fun e he =>
          map_optional_congr fun part h_part => h part (List.mem_flatMap.2 ⟨e, he, h_part⟩)
      simp only [mapParts, Expression.mapParts, h_map]
    -- the parts stand in properties, each of which is a function of its own parts
    | object s properties =>
      have h_map : properties.map (Property.mapParts m) = properties.map (Property.mapParts m') :=
        List.map_congr_left fun p hp =>
          Property.mapParts_congr fun part h_part => h part (List.mem_flatMap.2 ⟨p, hp, h_part⟩)
      simp only [mapParts, Expression.mapParts, h_map]
    | _ => simp_all [mapParts, Expression.mapParts, parts, Expression.parts, NodeMap.apply]

/-- Nothing changes if no part changes. -/
theorem Subtree.mapParts_id (t : Subtree) : t.mapParts .id = t := by
  -- the lists between a node and its parts are left alone as well
  have h_property : Property.mapParts .id = fun p => p := by
    funext p
    cases p <;> rfl
  have h_declarator : Declarator.mapParts .id = fun d => d := by
    funext d
    obtain ⟨id, init⟩ := d
    simp [Declarator.mapParts, NodeMap.id]
  have h_optional : (Option.map fun e : Expression => e) = fun e => e := by
    funext e
    cases e <;> rfl
  cases t with
  | statement s =>
    cases s <;> simp [mapParts, Statement.mapParts, h_declarator] <;> simp [NodeMap.id]
  | function f => cases f <;> simp [mapParts, Function.mapParts, NodeMap.id]
  | expression e =>
    cases e <;> simp [mapParts, Expression.mapParts, h_property] <;> simp [NodeMap.id, h_optional]

/-- A node none of whose parts changes does not change. -/
theorem Subtree.mapParts_eq_self {t : Subtree} (h : ∀ part ∈ t.parts, m.apply part = part) :
    t.mapParts m = t := by
  -- on the parts of the node, the map is the one that leaves everything as it is
  have h_id : ∀ part ∈ t.parts, m.apply part = NodeMap.id.apply part := by
    intro part h_part
    rw [h part h_part]
    cases part <;> rfl
  rw [mapParts_congr h_id, mapParts_id]

end Map

end AsyncMarkers
