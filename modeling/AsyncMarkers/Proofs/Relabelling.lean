import Mathlib.Logic.Function.Basic
import AsyncMarkers.Proofs.Comparison

/-!
# Trees with other names and positions

A `Relabelling` gives other names to the variables of a program and other positions to its nodes.
Names are those in binding or reference position: of identifier expressions, of functions, of their
parameters and of declared variables. Names of members, keys of objects and texts are not names in
this sense and stay.

Names that differ still do so afterwards. What a transformation writes down without finding it in
the program or the configuration stays as it is: the name `require`, and the position of a node that
no source text stands behind. A relabelled tree has the shape of the old one
(`Relabelling.keepsShape`), which is what a walk over both of them needs.
-/

namespace AsyncMarkers

/-- Other names for variables, and other positions. -/
structure Relabelling where
  name : String → String
  position : Position → Position
  name_injective : Function.Injective name
  name_require : name "require" = "require"
  position_synthetic : position {} = {}

namespace Relabelling

variable (r : Relabelling)

/-- Other names, and positions as they are. -/
def ofNames (name : String → String) (h_injective : Function.Injective name)
    (h_require : name "require" = "require") : Relabelling :=
  ⟨name, fun p => p, h_injective, h_require, rfl⟩

/-- Names as they are, and no positions. -/
def unplaced : Relabelling := ⟨fun n => n, fun _ => {}, fun _ _ h => h, rfl, rfl⟩

/-! ### Relabelled trees -/

/-- The span with other positions. -/
def span (s : Span) : Span := ⟨r.position s.start, r.position s.stop⟩

/-- The identifier with another name, whether or not it is done. -/
def identifier (id : Identifier) : Identifier := { id with name := r.name id.name }

/-- The info with another span and the comments as they are. -/
def info (i : StatementInfo) : StatementInfo := { i with span := r.span i.span }

/-- The head of a function with other names and another span. -/
def head (h : FunctionHead) : FunctionHead :=
  ⟨h.id.map r.identifier, h.params.map r.identifier, r.span h.span⟩

mutual

/-- The expression with other names and positions. -/
def expression : Expression → Expression
  | .identifier s id => .identifier (r.span s) (r.identifier id)
  | .literal s value => .literal (r.span s) value
  | .this s => .this (r.span s)
  | .array s es => .array (r.span s) (elements es)
  | .object s ps => .object (r.span s) (properties ps)
  | .function s f => .function (r.span s) (function f)
  | .arrow s f => .arrow (r.span s) (function f)
  | .unary s op argument => .unary (r.span s) op (expression argument)
  | .binary s op left right => .binary (r.span s) op (expression left) (expression right)
  | .logical s op left right => .logical (r.span s) op (expression left) (expression right)
  | .assignment s op target value =>
    .assignment (r.span s) op (expression target) (expression value)
  | .conditional s test consequent alternate =>
    .conditional (r.span s) (expression test) (expression consequent) (expression alternate)
  -- what is behind the dot names no variable
  | .member s base property => .member (r.span s) (expression base) property
  | .index s base property => .index (r.span s) (expression base) (expression property)
  | .call s callee arguments => .call (r.span s) (expression callee) (expressions arguments)
  | .construct s callee arguments =>
    .construct (r.span s) (expression callee) (expressions arguments)
  | .sequence s items => .sequence (r.span s) (expressions items)
  | .spread s argument => .spread (r.span s) (expression argument)

/-- Expressions with other names and positions. -/
def expressions : List Expression → List Expression
  | [] => []
  | e :: es => expression e :: expressions es

/-- An expression that may be missing, with other names and positions. -/
def optional : Option Expression → Option Expression
  | none => none
  | some e => some (expression e)

/-- The elements of an array with other names and positions. -/
def elements : List (Option Expression) → List (Option Expression)
  | [] => []
  | e :: es => optional e :: elements es

/-- A property of an object with other names and positions in its value. Its key names no
variable. -/
def property : Property → Property
  | .named key value => .named key (expression value)
  | .literal key value => .literal key (expression value)
  | .computed key value => .computed (expression key) (expression value)

/-- The properties of an object with other names and positions. -/
def properties : List Property → List Property
  | [] => []
  | p :: ps => property p :: properties ps

/-- The function with other names and positions. -/
def function : Function → Function
  | .block h ss => .block (r.head h) (statements ss)
  | .value h result => .value (r.head h) (expression result)

/-- The statement with other names and positions. -/
def statement : Statement → Statement
  | .expression i e => .expression (r.info i) (expression e)
  | .variables i kind ds => .variables (r.info i) kind (declarators ds)
  | .function i f => .function (r.info i) (function f)
  | .return i result => .return (r.info i) (optional result)
  | .ifElse i test consequent alternate =>
    .ifElse (r.info i) (expression test) (statement consequent) (branch alternate)
  | .while i test body => .while (r.info i) (expression test) (statement body)
  | .block i ss => .block (r.info i) (statements ss)
  | .throw i thrown => .throw (r.info i) (expression thrown)
  | .empty i => .empty (r.info i)

/-- A branch that may be missing, with other names and positions. -/
def branch : Option Statement → Option Statement
  | none => none
  | some s => some (statement s)

/-- Statements with other names and positions. -/
def statements : List Statement → List Statement
  | [] => []
  | s :: ss => statement s :: statements ss

/-- The declaration of a variable with another name. -/
def declarator : Declarator → Declarator
  | .mk id init => .mk (r.identifier id) (optional init)

/-- Declarations of variables with other names. -/
def declarators : List Declarator → List Declarator
  | [] => []
  | d :: ds => declarator d :: declarators ds

end

/-- The program with other names and positions. -/
def program (p : Program) : Program := ⟨r.statements p.body, r.span p.span⟩

/-- Relabelling a list is relabelling its members, here and below. -/
@[simp] theorem expressions_eq (es : List Expression) : r.expressions es = es.map r.expression := by
  induction es with
  | nil => rfl
  | cons e es ih => rw [expressions, ih, List.map_cons]

@[simp] theorem optional_eq (e : Option Expression) : r.optional e = e.map r.expression := by
  cases e <;> rfl

@[simp] theorem elements_eq (es : List (Option Expression)) :
    r.elements es = es.map (Option.map r.expression) := by
  induction es with
  | nil => rfl
  | cons e es ih => rw [elements, ih, List.map_cons, optional_eq]

@[simp] theorem properties_eq (ps : List Property) : r.properties ps = ps.map r.property := by
  induction ps with
  | nil => rfl
  | cons p ps ih => rw [properties, ih, List.map_cons]

@[simp] theorem branch_eq (s : Option Statement) : r.branch s = s.map r.statement := by
  cases s <;> rfl

@[simp] theorem statements_eq (ss : List Statement) : r.statements ss = ss.map r.statement := by
  induction ss with
  | nil => rfl
  | cons s ss ih => rw [statements, ih, List.map_cons]

@[simp] theorem declarators_eq (ds : List Declarator) : r.declarators ds = ds.map r.declarator := by
  induction ds with
  | nil => rfl
  | cons d ds ih => rw [declarators, ih, List.map_cons]

/-! ### The shape of a relabelled tree -/

/-- What stands in a relabelled tree in the place of each node. -/
def nodes : NodeMap := ⟨r.statement, r.function, r.expression⟩

@[simp] theorem nodes_statement : r.nodes.statement = r.statement := rfl

@[simp] theorem nodes_function : r.nodes.function = r.function := rfl

@[simp] theorem nodes_expression : r.nodes.expression = r.expression := rfl

/-- The parts of a relabelled property are the relabelled parts. -/
theorem property_parts (p : Property) : (r.property p).parts = p.parts.map r.nodes.apply := by
  cases p <;> rfl

/-- The parts of a relabelled declaration are the relabelled parts. -/
theorem declarator_parts (d : Declarator) : (r.declarator d).parts = d.parts.map r.nodes.apply := by
  obtain ⟨id, init⟩ := d
  rw [declarator, Declarator.parts, Declarator.parts, map_optionalParts, optional_eq]
  rfl

/-- The parts of a relabelled node are the relabelled parts. -/
theorem nodes_parts (t : Subtree) : (r.nodes.apply t).parts = t.parts.map r.nodes.apply := by
  -- node by node, since relabelling goes along with the parts in every form
  cases t with
  | statement s =>
    cases s <;>
      simp [NodeMap.apply, Subtree.parts, statement, Statement.parts, List.map_flatMap,
        List.flatMap_map, map_optionalParts, map_branchParts, declarator_parts, Function.comp_def]
  | function f =>
    cases f <;> simp [NodeMap.apply, Subtree.parts, function, Function.parts, Function.comp_def]
  | expression e =>
    cases e <;>
      simp [NodeMap.apply, Subtree.parts, expression, Expression.parts, List.map_flatMap,
        List.flatMap_map, map_optionalParts, property_parts, Function.comp_def]

section MapParts

variable {r} {k k' : NodeMap}

/-- A part may be changed in the one tree and in the other: the results stand for one another. -/
def Commutes (r : Relabelling) (k k' : NodeMap) (part : Subtree) : Prop :=
  k'.apply (r.nodes.apply part) = r.nodes.apply (k.apply part)

/-- Changes of an expression that may be missing commute with relabelling. -/
theorem optional_map {e : Option Expression} (h : ∀ part ∈ optionalParts e, r.Commutes k k' part) :
    (e.map r.expression).map k'.expression = (e.map k.expression).map r.expression := by
  cases e with
  | none => rfl
  | some e => exact congrArg some (Subtree.expression.inj (h _ (.head _)))

/-- So do those of a branch that may be missing. -/
theorem branch_map {s : Option Statement} (h : ∀ part ∈ branchParts s, r.Commutes k k' part) :
    (s.map r.statement).map k'.statement = (s.map k.statement).map r.statement := by
  cases s with
  | none => rfl
  | some s => exact congrArg some (Subtree.statement.inj (h _ (.head _)))

/-- So do those of a property. -/
theorem property_mapParts {p : Property} (h : ∀ part ∈ p.parts, r.Commutes k k' part) :
    (r.property p).mapParts k' = r.property (p.mapParts k) := by
  cases p <;> simp_all [Property.parts, property, Property.mapParts, Commutes, NodeMap.apply]

/-- So do those of a declaration. -/
theorem declarator_mapParts {d : Declarator} (h : ∀ part ∈ d.parts, r.Commutes k k' part) :
    (r.declarator d).mapParts k' = r.declarator (d.mapParts k) := by
  obtain ⟨id, init⟩ := d
  simp only [declarator, Declarator.mapParts, optional_eq, optional_map h]

/-- A relabelled node is changed part by part as the node itself is. -/
theorem nodes_mapParts {t : Subtree} (h : ∀ part ∈ t.parts, r.Commutes k k' part) :
    (r.nodes.apply t).mapParts k' = r.nodes.apply (t.mapParts k) := by
  cases t with
  | statement s =>
    cases s with
    | «variables» i kind ds =>
      -- the list of declarations is mapped twice on either side, member by member
      have h_map : (ds.map r.declarator).map (Declarator.mapParts k') =
          (ds.map (Declarator.mapParts k)).map r.declarator := by
        rw [List.map_map, List.map_map]
        exact List.map_congr_left fun d hd =>
          declarator_mapParts fun part h_part => h part (List.mem_flatMap.2 ⟨d, hd, h_part⟩)
      simp only [NodeMap.apply, nodes_statement, Subtree.mapParts, statement, Statement.mapParts,
        declarators_eq, h_map]
    | «return» i result =>
      simp only [NodeMap.apply, nodes_statement, Subtree.mapParts, statement, Statement.mapParts,
        optional_eq, optional_map h]
    | ifElse i test consequent alternate =>
      simp only [Subtree.parts, Statement.parts, List.forall_mem_cons] at h
      obtain ⟨h_test, h_consequent, h_alternate⟩ := h
      simp_all [Subtree.mapParts, statement, Statement.mapParts, branch_map h_alternate, Commutes,
        NodeMap.apply]
    | _ =>
      simp_all [Subtree.mapParts, statement, Statement.mapParts, Subtree.parts, Statement.parts,
        Commutes, NodeMap.apply]
  | function f =>
    cases f <;>
      simp_all [Subtree.mapParts, function, Function.mapParts, Subtree.parts, Function.parts,
        Commutes, NodeMap.apply]
  | expression e =>
    cases e with
    | array s es =>
      have h_map : (es.map (Option.map r.expression)).map (Option.map k'.expression) =
          (es.map (Option.map k.expression)).map (Option.map r.expression) := by
        rw [List.map_map, List.map_map]
        exact List.map_congr_left fun e he =>
          optional_map fun part h_part => h part (List.mem_flatMap.2 ⟨e, he, h_part⟩)
      simp only [NodeMap.apply, nodes_expression, Subtree.mapParts, expression, Expression.mapParts,
        elements_eq, h_map]
    | object s ps =>
      have h_map : (ps.map r.property).map (Property.mapParts k') =
          (ps.map (Property.mapParts k)).map r.property := by
        rw [List.map_map, List.map_map]
        exact List.map_congr_left fun p hp =>
          property_mapParts fun part h_part => h part (List.mem_flatMap.2 ⟨p, hp, h_part⟩)
      simp only [NodeMap.apply, nodes_expression, Subtree.mapParts, expression, Expression.mapParts,
        properties_eq, h_map]
    | _ =>
      simp_all [Subtree.mapParts, expression, Expression.mapParts, Subtree.parts, Expression.parts,
        Commutes, NodeMap.apply]

end MapParts

/-- **A relabelled tree has the shape of the old one.** -/
theorem keepsShape : r.nodes.KeepsShape where
  parts := r.nodes_parts
  mapParts _ _ _ h := nodes_mapParts h

end Relabelling

end AsyncMarkers
