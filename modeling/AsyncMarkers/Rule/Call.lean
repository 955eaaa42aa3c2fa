import AsyncMarkers.Rule.Change

/-!
# Calls

Two things happen to a call, in this order.

1. The receiver of an array method is *adapted*: `xs.map_(...)` becomes `b.array(xs).map_(...)`,
with or without markers, unless the receiver is such a call already.
2. A call with markers is *substituted*. With plain markers it becomes
`b.await(b.future_i_n(f)(...))`, with a future marker `b.future_i_n(f)(...)`, where the markers are
gone from the arguments, `i` is where the first one stood and `n` how many arguments are left.

Markers that cannot be transformed are refused before anything is done, so that a refused call is
left exactly as it was.
-/

namespace AsyncMarkers

/-- Which arguments are taken out of a call, and whether its result is waited for. -/
structure Substitution where
  first : Nat
  second : Option Nat := none
  awaited : Bool
deriving DecidableEq

/-- The arguments that are left; the later position is taken out first, so that the earlier one
still holds. -/
def Substitution.rest (s : Substitution) (arguments : List Expression) : List Expression :=
  match s.second with
  | none => arguments.eraseIdx s.first
  | some second => (arguments.eraseIdx second).eraseIdx s.first

namespace Context

/-- The substitution for a plan, unless its markers are refused. -/
def accept (ctx : Context) (span : Span) : CallPlan → Except Diagnostic Substitution
  | .await first second => .ok ⟨first, second, true⟩
  | .future index => .ok ⟨index, none, false⟩
  | .promise _ => .error (.unsupported .promiseMarker (ctx.location span))
  | .array _ => .error (.unsupported .arrayMarker (ctx.location span))
  | .tooMany count => .error (.tooManyMarkers ctx.marker count (ctx.location span))

/-- The substitution for a call with the given arguments, if it has markers and none is refused. -/
def substitution? (ctx : Context) (span : Span) (arguments : List Expression) :
    Except Diagnostic (Option Substitution) :=
  match planCall? ctx.marker arguments with
  | none => .ok none
  | some plan => (ctx.accept span plan).map some

/-! ### Receivers -/

/-- Whether a receiver is a call of the array adapter. -/
def isAdapted (ctx : Context) : Expression → Bool
  | .call _ (.member _ (.identifier _ id) property) _ =>
    property.name == "array" && id.name == ctx.binding.name
  | _ => false

/-- Whether a callee is an array method whose receiver is to be adapted. -/
def needsAdapter (ctx : Context) : Expression → Bool
  | .member _ receiver property =>
    ctx.config.isArrayMethod property.name && !ctx.isAdapted receiver
  | _ => false

/-- A call of the array adapter; it stands where the receiver stood. -/
def adaptReceiver (ctx : Context) (receiver : Expression) : Expression :=
  .call receiver.span ctx.binding.array [receiver]

/-- The callee with its receiver adapted, if that is called for. -/
def adaptCallee (ctx : Context) (callee : Expression) : Expression :=
  if ctx.needsAdapter callee then
    match callee with
    | .member s receiver property => .member s (ctx.adaptReceiver receiver) property
    | e => e
  else callee

/-! ### Calls -/

/-- The call of the adapted function with the arguments that are left. -/
def futureCall (ctx : Context) (span : Span) (callee : Expression) (index : Nat)
    (rest : List Expression) : Expression :=
  .call span (Synthetic.call (ctx.binding.future index rest.length) [callee]) rest

/-- What a substitution puts in the place of a call. -/
def substitute (ctx : Context) (span : Span) (callee : Expression) (arguments : List Expression)
    (s : Substitution) : Expression :=
  let future := ctx.futureCall span callee s.first (s.rest arguments)
  if s.awaited then .call span ctx.binding.await [future] else future

/-- The count and the event for an adapted receiver, if there is one. -/
def adaptation (ctx : Context) (span : Span) (callee : Expression) : Counts × List Event :=
  if ctx.needsAdapter callee then
    ({ receivers := 1 }, [.receiverAdapted ctx.file.displayName span.start.line.toNat])
  else ({}, [])

/-- A receiver is counted if it is adapted. -/
theorem adaptation_counts (ctx : Context) (span : Span) (callee : Expression) :
    (ctx.adaptation span callee).1 = { receivers := if ctx.needsAdapter callee then 1 else 0 } := by
  unfold adaptation
  split <;> rfl

/-- Transforms a call; any other expression is left as it is. -/
def transformCall (ctx : Context) : Expression → Except Diagnostic (Change Expression)
  | .call span callee arguments => do
    let substitution ← ctx.substitution? span arguments
    let (counts, events) := ctx.adaptation span callee
    let adapted := ctx.adaptCallee callee
    match substitution with
    | none =>
      return {
        node := .call span adapted arguments
        outcome := if ctx.needsAdapter callee then .mutated else .unchanged
        counts := counts
        events := events }
    | some s =>
      return {
        node := ctx.substitute span adapted arguments s
        outcome := .replaced
        counts := counts + { calls := 1 }
        events := events ++
          [.callSubstituted ctx.file.displayName span.start.line.toNat s.first
            (s.rest arguments).length s.awaited] }
  | e => .ok { node := e }

/-- Whether a call still has markers to be dealt with. -/
def isPending (ctx : Context) : Expression → Bool
  | .call _ _ arguments => (planCall? ctx.marker arguments).isSome
  | _ => false

end Context

end AsyncMarkers
