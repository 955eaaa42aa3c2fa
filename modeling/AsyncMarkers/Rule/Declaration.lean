import AsyncMarkers.Rule.Change

/-!
# Declaring the binding

A transformed file starts with the declaration of the binding. The comments that stood at the top of
the file stay there: they move from the first statement to the declaration, and the configured
comment follows them.
-/

namespace AsyncMarkers.Context

/-- Whether a program starts with the declaration. -/
def isDeclared (ctx : Context) (p : Program) : Bool :=
  p.body.head?.any (ctx.binding.isDeclaredBy ctx.config.moduleName ctx.config.exportName)

/-- The declaration, below the given comments. -/
def declaration (ctx : Context) (comments : List Comment) : Statement :=
  (ctx.binding.declaration ctx.config.moduleName ctx.config.exportName).withComments
    (comments ++ [⟨.block, ctx.config.declarationComment⟩])

/-- The statements of a program behind the declaration. -/
def declareIn (ctx : Context) : List Statement → List Statement
  | [] => [ctx.declaration []]
  | first :: rest =>
    ctx.declaration first.info.leadingComments :: first.withComments [] :: rest

/-- Puts the declaration in front of a program. -/
def declare (ctx : Context) (p : Program) : Change Program where
  node := { p with body := ctx.declareIn p.body }
  outcome := .mutated
  counts := { declarations := 1 }
  events := [.declarationInserted ctx.file.displayName ctx.binding.name]

end AsyncMarkers.Context
