/-
What a statement does to the names of the program: the definitions it makes,
the names it reads, and the names it imports.

Changed names and declarations in literals are looked for in every statement; then the kind
of the statement adds its own definitions. An assignment reads its value, and
an augmented one its target too. Every other statement reads all names in it,
also those that it defines.
-/
import Reaching.Effect.Declaration
import Reaching.Effect.Mutation

namespace Reaching

open Code

/-! ## Names under nodes -/

/-- The name expressions under a node. -/
def Code.Node.names (n : Node) : List Reference :=
  n.breadthFirst.filterMap fun m => m.name?.map fun (id, span) => ⟨id, span⟩

/-- The name expressions under some nodes. -/
def namesUnder (nodes : List Node) : List Reference := nodes.flatMap Node.names

/-! ## Parts of statements -/

/-- The targets of an assignment; none if the statement binds nothing this
way. A type hint without a value binds nothing. -/
def Code.StmtForm.targets? : StmtForm → Option (List Expr)
  | .assign targets _ => some targets
  | .augAssign target _ _ => some [target]
  | .annAssign target _ (some _) _ => some [target]
  | _ => none

/-- The expressions that an assignment reads. -/
def Code.StmtForm.sources? : StmtForm → Option (List Expr)
  | .assign _ value => some [value]
  | .augAssign target _ value => some [value, target]
  | .annAssign _ hint (some value) _ => some [value, hint]
  | _ => none

/-- The names that an import binds, each where it is written. A star binds no
name that is known; `import a.b` binds `a`. -/
def Code.StmtForm.imported : StmtForm → List (String × Span)
  | .importNames names =>
    names.map fun a => (a.bound.getD (String.ofList (a.name.toList.takeWhile (· ≠ '.'))), a.span)
  | .importFrom _ names _ =>
    if names.any fun a => a.name = "*" then []
    else names.map fun a => (a.bound.getD a.name, a.span)
  | _ => []

/-- What a definition statement introduces, with its name. -/
def Code.StmtForm.introduces? : StmtForm → Option (Introduces × String)
  | .function false name .. => some (.function, name)
  | .function true name .. => some (.asyncFunction, name)
  | .classDef name .. => some (.classType, name)
  | _ => none

/-- The kind of definition that a form makes. -/
def Introduces.kind : Introduces → Kind
  | .classType => .classType
  | _ => .function

/-! ## Definitions and uses -/

/-- The definitions that a statement makes by its kind. -/
def Code.Stmt.ownDefinitions (s : Stmt) : List Definition :=
  match s.form.targets?, s.form.introduces? with
  | some targets, _ =>
    (namesUnder (targets.map .expr)).map fun r =>
      { name := r.name, span := r.span, kind := .variable, owner := s }
  | none, some (form, name) =>
    [{ name := name, span := s.span.header form name, kind := form.kind, owner := s }]
  | none, none =>
    s.form.imported.map fun (name, span) =>
      { name := name, span := span, kind := .importName, owner := s }

/-- The definitions that a statement makes. -/
def Code.Stmt.definitions (rules : Rules) (s : Stmt) : Definitions :=
  ((mutationDefinitions rules s).union (declaredDefinitions s).1).union s.ownDefinitions

/-- The names that a statement reads. -/
def Code.Stmt.uses (s : Stmt) : List Reference :=
  match s.form.sources? with
  | some sources => namesUnder (sources.map .expr)
  | none => (Node.stmt s).names

/-! ## Effects -/

/-- What a statement does, as far as the analysis is concerned. `discarded`
has the line of each declaration that could not be read. -/
structure Effect where
  span : Span
  definitions : Definitions
  uses : List Text
  imports : List String
  discarded : List Int

/-- The effect of a statement under some rules. -/
def Code.Stmt.effect (rules : Rules) (s : Stmt) : Effect where
  span := s.span
  definitions := s.definitions rules
  uses := (s.uses.map (·.name)).eraseDups
  imports := s.form.imported.map (·.1)
  discarded := (declaredDefinitions s).2

/-- A missing statement does nothing. -/
def Effect.none : Effect := ⟨Span.unknown, [], [], [], []⟩

/-- The effect of a statement that may be missing. -/
def Effect.of (rules : Rules) : Option Stmt → Effect
  | some s => s.effect rules
  | .none => Effect.none

end Reaching
