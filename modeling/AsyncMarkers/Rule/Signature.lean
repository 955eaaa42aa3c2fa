import AsyncMarkers.Rule.Change

/-!
# Completing functions

A function with a marker among its parameters completes through that parameter. Its body is moved
into an arrow function that is called at once, and the result is handed to the parameter:

```text
function f(a, _) { body }   becomes   function f(a, _) { _(null, (() => { body })()); }
(x, _) => x + 1             becomes   (x, _) => { _(null, (() => { return x + 1; })()); }
```

The parameter and the reference to it are done, so the function is not completed a second time.
-/

namespace AsyncMarkers

/-- The body of a function as a list of statements. -/
def Function.statements : Function → List Statement
  | .block _ statements => statements
  | .value _ result => [(Synthetic.returning result).withSpan result.span]

/-- The statement that hands the result of `statements` to a parameter. -/
def completion (param : Identifier) (statements : List Statement) : Statement :=
  Synthetic.statement (Synthetic.call (Synthetic.reference param)
    [Synthetic.null,
      Synthetic.call (Synthetic.arrow (.block ⟨none, [], .synthetic⟩ statements)) []])

namespace Context

/-- Makes a function complete through its parameter at position `index`. -/
def completeThrough (f : Function) (index : Nat) (param : Identifier) : Function :=
  let done : Identifier := { param with done := true }
  .block { f.head with params := f.head.params.set index done } [completion done f.statements]

/-- Makes a function complete through its first marker parameter, if it has one. -/
def complete (ctx : Context) (f : Function) : Change Function :=
  match markerParam? ctx.marker f.head.params with
  | none => { node := f }
  | some index =>
    match f.head.params[index]? with
    | none => { node := f }
    | some param =>
      { node := completeThrough f index param
        outcome := .mutated
        counts := { functions := 1 }
        events := [.functionCompleted ctx.file.displayName (f.head.id.map (·.name)) index] }

end Context

end AsyncMarkers
