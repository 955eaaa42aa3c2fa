import AsyncMarkers.Proofs.UserCode
import AsyncMarkers.Tree.Recorder
import Mathlib.Data.List.Basic

/-!
# Comments and top-level statements

A transformation loses no comment and changes the place of none. Comments stand in front of
statements, on any level, and the comments of a program are listed in the order in which a walk
comes to the statements (`Program.comments`). A file that starts with the declaration keeps that
list. Any other file gets one more comment, in front of the declaration: it stands behind the
comments of what was the first statement, which the declaration has taken over
(`Session.transform_keeps_comments`).

The statements that a file consists of are all still there, each with its span and its form.

That visits keep comments is an instance of what visits do to readings. The reading that writes down
comments only (`Reading.comments`) is blind to what the rules do, and it reads what is listed
(`Reading.comments_ofSubtree`).
-/

namespace AsyncMarkers

/-- The comments in front of a node. Functions and expressions have none of their own. -/
def Subtree.comments : Subtree → List Comment
  | .statement s => s.info.leadingComments
  | .function _ | .expression _ => []

/-- The comments of a program, in the order in which their statements are come to. -/
def Program.comments (p : Program) : List Comment := p.listing.flatMap Subtree.comments

/-! ### The reading of comments -/

namespace Reading

section Parts

variable {τ : Type} (r : Reading τ)

/-- Expressions are read one after another, like any nodes. -/
theorem ofExpressions_eq_flatMap (es : List Expression) :
    r.ofExpressions es = (es.map .expression).flatMap r.ofSubtree := by
  rw [ofExpressions_eq, List.flatMap_map]
  rfl

/-- So are statements. -/
theorem ofStatements_eq_flatMap (ss : List Statement) :
    r.ofStatements ss = (ss.map .statement).flatMap r.ofSubtree := by
  induction ss with
  | nil => rfl
  | cons s ss ih => rw [ofStatements, ih, List.map_cons, List.flatMap_cons, ofSubtree]

/-- An expression that may be missing is read if it is there. -/
theorem ofOptional_eq_flatMap (e : Option Expression) :
    r.ofOptional e = (optionalParts e).flatMap r.ofSubtree := by
  cases e with
  | none => rfl
  | some e => exact (List.append_nil _).symm

/-- So is a branch that may be missing. -/
theorem ofBranch_eq_flatMap (s : Option Statement) :
    r.ofBranch s = (branchParts s).flatMap r.ofSubtree := by
  cases s with
  | none => rfl
  | some s => exact (List.append_nil _).symm

/-- Elements of an array are read one after another, and missing ones are skipped. -/
theorem ofElements_eq_flatMap (es : List (Option Expression)) :
    r.ofElements es = (es.flatMap optionalParts).flatMap r.ofSubtree := by
  induction es with
  | nil => rfl
  | cons e es ih =>
    rw [ofElements, ih, ofOptional_eq_flatMap, List.flatMap_cons, List.flatMap_append]

end Parts

/-- The reading of comments. -/
def comments : Reading Comment where
  info info := info.leadingComments
  declared _ := []
  head _ := []
  name _ _ := []
  literal _ _ := []
  this _ := []
  key _ := []
  literalKey _ := []
  property _ := []

/-- The rules make up no comments below the top level, and they take none out. -/
theorem comments_blind (ctx : Context) : comments.Blind ctx where
  info _ := rfl
  arrow := rfl
  done _ _ _ _ := rfl
  marker _ _ _ := rfl
  binding _ _ _ := rfl
  null _ := rfl
  await := rfl
  array := rfl
  future _ _ := rfl

/-- Of the properties of an object, only what is in their values matters. -/
theorem comments_ofProperties (ps : List Property) :
    comments.ofProperties ps = (ps.flatMap Property.parts).flatMap comments.ofSubtree := by
  induction ps with
  | nil => rfl
  | cons p ps ih =>
    rw [ofProperties, ih, List.flatMap_cons, List.flatMap_append]
    cases p <;> simp [ofProperty, comments, Property.parts, ofSubtree]

/-- Of declarations of variables, only what is in their initial values matters. -/
theorem comments_ofDeclarators (ds : List Declarator) :
    comments.ofDeclarators ds = (ds.flatMap Declarator.parts).flatMap comments.ofSubtree := by
  induction ds with
  | nil => rfl
  | cons d ds ih =>
    obtain ⟨id, init⟩ := d
    rw [ofDeclarators, ih, ofDeclarator, ofOptional_eq_flatMap, List.flatMap_cons,
      List.flatMap_append]
    rfl

/-- The comments that are read are those in front of the node and those in its parts. -/
theorem comments_ofSubtree_eq (t : Subtree) :
    comments.ofSubtree t = t.comments ++ t.parts.flatMap comments.ofSubtree := by
  -- names, keys and heads of functions stand between the parts, but nothing is written for them
  cases t with
  | statement s =>
    cases s with
    | «variables» info kind declarators =>
      exact congrArg (info.leadingComments ++ ·) (comments_ofDeclarators declarators)
    | «return» info result =>
      exact congrArg (info.leadingComments ++ ·) (ofOptional_eq_flatMap _ result)
    | block info statements =>
      exact congrArg (info.leadingComments ++ ·) (ofStatements_eq_flatMap _ statements)
    | _ =>
      simp [ofSubtree, ofStatement, Subtree.comments, Statement.info, Subtree.parts,
        Statement.parts, ofBranch_eq_flatMap, comments]
  | function f =>
    cases f with
    | block head statements => exact ofStatements_eq_flatMap _ statements
    | value head result => exact (List.append_nil _).symm
  | expression e =>
    cases e with
    | array s elements => exact ofElements_eq_flatMap _ elements
    | object s properties => exact comments_ofProperties properties
    | sequence s items => exact ofExpressions_eq_flatMap _ items
    | _ =>
      simp [ofSubtree, ofExpression, Subtree.comments, Subtree.parts, Expression.parts,
        ofExpressions_eq_flatMap, comments]

/-- Comments are read in the order of the listing. -/
theorem comments_ofSubtree (t : Subtree) : comments.ofSubtree t = t.gather Subtree.comments := by
  induction t using Subtree.parts_induction with
  -- a tree reads as the node on top and then its parts, and so it is listed
  | step t ih =>
    rw [comments_ofSubtree_eq, Subtree.gather_eq, List.flatMap_congr ih]

/-- Without its own comments, a statement reads as what stands below it. -/
theorem comments_ofStatement (s : Statement) :
    comments.ofStatement s =
      s.info.leadingComments ++ comments.ofStatement (s.withComments []) := by
  cases s with
  | empty info => exact (List.append_nil _).symm
  | _ => rfl

end Reading

/-- The comments of a program are what is read of its statements. -/
theorem Program.comments_eq (p : Program) : p.comments = Reading.comments.ofStatements p.body := by
  have h_gather : Reading.comments.ofSubtree = Subtree.gather Subtree.comments :=
    funext Reading.comments_ofSubtree
  rw [comments, listing_eq, List.flatMap_assoc, Reading.ofStatements_eq_flatMap, h_gather]
  rfl

/-! ### Top-level statements -/

/-- Where a statement stands in the source text, and what form it has. -/
def Statement.sketch (s : Statement) : Span × String := (s.info.span, s.form)

/-- What becomes of the parts of a statement does not matter to its form and its place. -/
theorem Statement.sketch_mapParts (m : NodeMap) (s : Statement) :
    (s.mapParts m).sketch = s.sketch := by
  cases s <;> rfl

/-- Neither do its comments. -/
theorem Statement.sketch_withComments (comments : List Comment) (s : Statement) :
    (s.withComments comments).sketch = s.sketch := by
  cases s <;> rfl

namespace Engine

variable {g : Engine}

/-- Rules are not offered statements, so a visit goes on to the parts. -/
theorem results_statement {s : Statement} (h : (g.visitor.visit (.statement s)).failure = none) :
    g.visitor.results.statement s = s.mapParts g.visitor.results := by
  have h_value := g.visitor.visit_value h
  rw [← Visitor.results_apply] at h_value
  exact Subtree.statement.inj h_value

/-- Visits leave statements where statements of the same form have been. -/
theorem sketch_results {statements : List Statement}
    (h : ∀ s ∈ statements, (g.visitor.visit (.statement s)).failure = none) :
    (statements.map g.visitor.results.statement).map Statement.sketch =
      statements.map Statement.sketch := by
  rw [List.map_map]
  refine List.map_congr_left fun s h_s => ?_
  rw [Function.comp_apply, results_statement (h s h_s), Statement.sketch_mapParts]

/-- What visits leave of the statements of a program has its comments, and its statements. -/
theorem comments_results (h_rules : g.rules = Rule.all) {statements : List Statement} (span : Span)
    (h : ∀ s ∈ statements, (g.visitor.visit (.statement s)).failure = none) :
    (Program.mk (statements.map g.visitor.results.statement) span).comments =
      (Program.mk statements span).comments := by
  rw [Program.comments_eq, Program.comments_eq]
  exact (Reading.comments_blind g.context).ofStatements_results h_rules h

end Engine

/-- The declaration takes over the comments of the first statement and adds one of its own. The
statements behind it are those of the program. -/
theorem Context.exists_declareIn (ctx : Context) (body : List Statement) (span : Span) :
    let own := body.head?.elim [] fun first => first.info.leadingComments
    ∃ rest, ctx.declareIn body = ctx.declaration own :: rest ∧
      rest.map Statement.sketch = body.map Statement.sketch ∧
      (Program.mk body span).comments = own ++ (Program.mk rest span).comments := by
  intro own
  -- the first statement hands over its comments, and keeps everything else
  cases body with
  | nil => exact ⟨[], rfl, rfl, rfl⟩
  | cons first later =>
    refine ⟨first.withComments [] :: later, rfl, ?_, ?_⟩
    · rw [List.map_cons, List.map_cons, Statement.sketch_withComments]
    · rw [Program.comments_eq, Program.comments_eq]
      show Reading.comments.ofStatement first ++ _ = first.info.leadingComments ++ _
      rw [Reading.comments_ofStatement, Reading.ofStatements, List.append_assoc]

/-- Comments of statements come in the order of the statements. -/
theorem Program.comments_cons (s : Statement) (rest : List Statement) (span : Span) :
    (Program.mk (s :: rest) span).comments =
      (Program.mk [s] span).comments ++ (Program.mk rest span).comments := by
  rw [comments_eq, comments_eq, comments_eq, Reading.ofStatements, Reading.ofStatements,
    Reading.ofStatements, List.append_nil]

/-- There are no comments inside the declaration. -/
theorem Context.comments_declaration (ctx : Context) (comments : List Comment) (span : Span) :
    (Program.mk [ctx.declaration comments] span).comments =
      comments ++ [⟨.block, ctx.config.declarationComment⟩] := by
  rw [Program.comments_eq]
  exact (List.append_nil _).trans (List.append_nil _)

/-- **No comment is lost, and only the declaration brings one.** A file that starts with the
declaration keeps all its comments. Any other file gets the declaration in front, which takes over
the comments of the first statement and has one of its own behind them. In both cases the statements
of the file are still there, in the same order and with their spans and forms. -/
theorem Session.transform_keeps_comments {s : Session} (h_rules : s.rules = Rule.all)
    {file : FileDescriptor} (h_selected : s.selects file = true) {sink : Sink} {p : Program}
    {output : Output} (h : (s.transform sink p file).1.result = .ok output) :
    let declaration := (Context.binding ⟨file, s.config⟩).declaration s.config.moduleName
      s.config.exportName
    let own := p.body.head?.elim [] fun first => first.info.leadingComments
    let added : Comment := ⟨.block, s.config.declarationComment⟩
    let startsWithIt := ∃ info rest, p.body = declaration.withInfo info :: rest
    output.program.span = p.span ∧
    (startsWithIt →
      output.program.body.map Statement.sketch = p.body.map Statement.sketch ∧
      output.program.comments = p.comments) ∧
    (¬startsWithIt →
      ∃ rest later, output.program.body = declaration.withComments (own ++ [added]) :: rest ∧
        rest.map Statement.sketch = p.body.map Statement.sketch ∧
        p.comments = own ++ later ∧
        output.program.comments = own ++ added :: later) := by
  intro declaration own added startsWithIt
  let ctx : Context := ⟨file, s.config⟩
  let g := s.engine file
  obtain ⟨h_run, rfl⟩ := (Session.transform_result_eq_ok h_selected).1 h
  have h_visits := (Engine.run_failure_eq_none (g := g) h_rules).1 h_run
  have h_value : (g.run p).value =
      ⟨(ctx.declaredBody p).map g.visitor.results.statement, p.span⟩ :=
    Engine.run_value h_rules h_run
  change ∀ statement ∈ ctx.declaredBody p, _ at h_visits
  have h_declared : ctx.isDeclared p = true ↔ startsWithIt := Context.isDeclared_iff
  show (g.run p).value.span = _ ∧
    (_ → (g.run p).value.body.map _ = _ ∧ (g.run p).value.comments = _)
    ∧ (_ → ∃ rest later, (g.run p).value.body = _ ∧ _ ∧ _ ∧ (g.run p).value.comments = _)
  rw [h_value]
  refine ⟨rfl, fun h_starts => ?_, fun h_starts => ?_⟩
  · -- nothing is put in front, and visits keep comments and forms
    have h_body : ctx.declaredBody p = p.body := if_pos (h_declared.2 h_starts)
    rw [h_body] at h_visits ⊢
    exact ⟨Engine.sketch_results h_visits, Engine.comments_results h_rules p.span h_visits⟩
  · have h_body : ctx.declaredBody p = ctx.declareIn p.body := if_neg (mt h_declared.1 h_starts)
    obtain ⟨rest, h_front, h_sketch, h_comments⟩ := ctx.exists_declareIn p.body p.span
    rw [h_body, h_front] at h_visits ⊢
    have h_rest := (List.forall_mem_cons.1 h_visits).2
    -- the declaration is visited like all statements, which leaves it as it is
    have h_kept : g.visitor.results.statement (ctx.declaration own) = ctx.declaration own :=
      Engine.results_declaration h_rules (Binding.isDeclaredBy_iff.2 ⟨_, rfl⟩)
    refine ⟨rest.map g.visitor.results.statement, (Program.mk rest p.span).comments, ?_, ?_,
      h_comments, ?_⟩
    · rw [List.map_cons, h_kept]
      rfl
    · rw [Engine.sketch_results h_rest, h_sketch]
    · calc (Program.mk ((ctx.declaration own :: rest).map g.visitor.results.statement)
            p.span).comments
          = (Program.mk [ctx.declaration own] p.span).comments ++
              (Program.mk (rest.map g.visitor.results.statement) p.span).comments := by
            rw [List.map_cons, h_kept, Program.comments_cons]
        _ = (own ++ [added]) ++ (Program.mk rest p.span).comments := by
            rw [ctx.comments_declaration, Engine.comments_results h_rules p.span h_rest]
        _ = own ++ added :: (Program.mk rest p.span).comments := by
            rw [List.append_assoc, List.singleton_append]

/-- In the body of a function that takes a callback there is a comment, which moves along with the
body. Without the declaration its comment comes behind that of the function, and with it none is
added. -/
theorem Session.transform_keeps_comments_nested :
    let s : Session :=
      addMarkerRules { config := { declarationComment := "runtime" }, selector := .always }
    let name (n : String) : Expression := .identifier (.at 2 0 1) ⟨n, false⟩
    let head : Comment := ⟨.block, "head"⟩
    let inner : Comment := ⟨.line, "inner"⟩
    let tail : Comment := ⟨.line, "tail"⟩
    let f : Function := .block ⟨some ⟨"f", false⟩, [⟨"a", false⟩, ⟨"_", false⟩], .synthetic⟩
      [.return ⟨.at 2 2 16, [inner]⟩ (some (.call (.at 2 9 15) (name "g") [name "a", name "_"]))]
    let body : List Statement := [.function ⟨.at 1 0 30, [head]⟩ f,
      .expression ⟨.at 4 0 4, [tail]⟩ (.call (.at 4 0 3) (name "h") [])]
    let declaration : Statement :=
      (Binding.mk "$$streamline").declaration "streamline-runtime" "runtime"
    (∃ output, (s.transform .collected ⟨body, .synthetic⟩ {}).1.result = .ok output ∧
      output.program.body.length = 3 ∧
      output.program.comments = [head, ⟨.block, "runtime"⟩, inner, tail]) ∧
    ∃ output, (s.transform .collected ⟨declaration :: body, .synthetic⟩ {}).1.result = .ok output ∧
      output.program.body.length = 3 ∧
      output.program.comments = [head, inner, tail] := by
  intro s name head inner tail f body declaration
  have h_rules : s.rules = Rule.all := Session.addMarkerRules_rules rfl
  have h_selected : s.selects {} = true := rfl
  refine ⟨?_, ?_⟩
  · obtain ⟨output, h_output⟩ := Session.transform_ok_of_no_offence h_rules h_selected
      (p := ⟨body, .synthetic⟩) (by decide) .collected
    obtain ⟨-, -, h_other⟩ := Session.transform_keeps_comments h_rules h_selected h_output
    -- the program does not start with the declaration, so one is put there
    obtain ⟨rest, later, h_body, h_sketch, h_later, h_comments⟩ := h_other (by
      rintro ⟨info, rest, h_starts⟩
      cases h_starts)
    have h_input : (Program.mk body .synthetic).comments = [head, inner, tail] := by decide
    obtain rfl : [inner, tail] = later := (List.cons.inj (h_input.symm.trans h_later)).2
    refine ⟨output, h_output, ?_, h_comments⟩
    -- a statement has one sketch, so they can be counted by their sketches
    rw [h_body, List.length_cons, ← List.length_map (f := Statement.sketch), h_sketch]
    rfl
  · obtain ⟨output, h_output⟩ := Session.transform_ok_of_no_offence h_rules h_selected
      (p := ⟨declaration :: body, .synthetic⟩) (by decide) .collected
    obtain ⟨-, h_same, -⟩ := Session.transform_keeps_comments h_rules h_selected h_output
    -- now it does start with the declaration
    obtain ⟨h_sketch, h_comments⟩ := h_same ⟨_, _, rfl⟩
    refine ⟨output, h_output, ?_, h_comments.trans (by decide)⟩
    rw [← List.length_map (f := Statement.sketch), h_sketch]
    rfl

end AsyncMarkers
