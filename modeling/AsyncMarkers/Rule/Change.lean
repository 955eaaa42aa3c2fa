import AsyncMarkers.Binding
import AsyncMarkers.Log
import AsyncMarkers.Marker

/-!
# What a rule knows, and what it does

A rule looks at a node in a `Context`, the file and the configuration, and returns a `Change`: the
node that now stands in its place, how much that differs, and what there is to count and to tell.
-/

namespace AsyncMarkers

/-- What has been done to a file. -/
structure Counts where
  declarations : Nat := 0
  functions : Nat := 0
  receivers : Nat := 0
  calls : Nat := 0
deriving DecidableEq

instance : Add Counts where
  add a b :=
    ⟨a.declarations + b.declarations, a.functions + b.functions, a.receivers + b.receivers,
      a.calls + b.calls⟩

/-- Everything but the declarations. -/
def Counts.changes (c : Counts) : Nat := c.functions + c.receivers + c.calls

/-- A node that a rule has been offered, and where it starts. -/
structure Sighting where
  kind : NodeKind
  line : UInt32
  column : UInt32
deriving DecidableEq

/-- What a rule makes of a node. -/
structure Change (α : Type) where
  node : α
  outcome : Outcome := .unchanged
  counts : Counts := {}
  events : List Event := []
  sightings : List Sighting := []

/-- The file that is being transformed, and the names to be used. -/
structure Context where
  file : FileDescriptor
  config : Config

namespace Context

/-- The name of the marker. -/
def marker (ctx : Context) : String := ctx.config.marker

/-- The variable that generated code goes through. -/
def binding (ctx : Context) : Binding := ⟨ctx.config.binding⟩

/-- Where a span starts. -/
def location (ctx : Context) (span : Span) : Location := .ofSpan ctx.file.displayName span

end Context

end AsyncMarkers
