/-
Which names of a body the blocks of its graph carry.

The names under a node are its own one and those under its children
(`Node.names_perm`), so that the names of a statement are counted part by part. A
header carries the parts of its statement that are no statements of their own, with
one exception: the patterns and the guards of cases go into no header
(`Code.Stmt.leftOut`). On the other hand a handler that names an exception writes a
name down that no name of the source stands for (`Code.Stmt.added`). But for these
two the graph carries every name of the body once (`Graph.names_carried_iff`).
-/
import Mathlib.Data.List.Perm.Basic
import Reaching.Effect
import Reaching.Proofs.Placement

namespace Reaching

open Code

/-! ## Names under a node and under its children -/

namespace Code.Node

theorem levels_eq (nodes : List Node) : levels nodes = nodes ++ levels (nodes.flatMap children) := by
  cases nodes with
  | nil => simp [levels]
  | cons n rest => rw [levels]; rfl

theorem breadthFirst_eq (n : Node) : n.breadthFirst = n :: levels n.children := by
  rw [breadthFirst, levels_eq]
  simp

theorem largest_children_lt {n : Node} {nodes : List Node} (h : n ∈ nodes) :
    largest n.children < largest nodes := by
  have hlt := largest_flatMap_children_lt n []
  have hle : largest [n] ≤ largest nodes :=
    largest_le.2 fun c hc => List.mem_singleton.1 hc ▸ largest_le.1 (Nat.le_refl _) n h
  rw [List.flatMap_singleton] at hlt
  omega

open scoped List in
/-- **Level by level some trees have the nodes that each of them has.** -/
theorem levels_perm (nodes : List Node) : (levels nodes).Perm (nodes.flatMap breadthFirst) := by
  match nodes with
  | [] => rw [levels]; exact .nil
  | n :: rest =>
    have hbelow : ∀ m ∈ n :: rest, (m.children.flatMap breadthFirst).Perm (levels m.children) :=
      fun m hm => (levels_perm m.children).symm
    calc levels (n :: rest)
        = (n :: rest) ++ levels ((n :: rest).flatMap children) := levels_eq _
      _ ~ (n :: rest) ++ ((n :: rest).flatMap children).flatMap breadthFirst :=
          (levels_perm _).append_left _
      _ = (n :: rest) ++ (n :: rest).flatMap fun m => m.children.flatMap breadthFirst := by
          rw [List.flatMap_assoc]
      _ ~ (n :: rest) ++ (n :: rest).flatMap fun m => levels m.children :=
          (List.Perm.flatMap_left _ hbelow).append_left _
      _ ~ (n :: rest).flatMap fun m => m :: levels m.children := by
          simpa using List.map_append_flatMap_perm (n :: rest) id fun m => levels m.children
      _ = (n :: rest).flatMap breadthFirst :=
          List.flatMap_congr fun m _ => (breadthFirst_eq m).symm
termination_by largest nodes
decreasing_by
  · exact largest_children_lt hm
  · exact largest_flatMap_children_lt n rest

/-- The names under a node are those under its children, unless it is a name itself. -/
theorem names_perm {n : Node} (h : n.name? = none) : n.names.Perm (namesUnder n.children) := by
  rw [names, breadthFirst_eq, List.filterMap_cons_none (by simp [h]), namesUnder]
  refine ((levels_perm n.children).filterMap _).trans ?_
  rw [List.filterMap_flatMap]
  exact .refl _

end Code.Node

@[simp] theorem namesUnder_nil : namesUnder [] = [] := rfl

@[simp] theorem namesUnder_cons (n : Node) (nodes : List Node) :
    namesUnder (n :: nodes) = n.names ++ namesUnder nodes := rfl

@[simp] theorem namesUnder_append (nodes others : List Node) :
    namesUnder (nodes ++ others) = namesUnder nodes ++ namesUnder others := List.flatMap_append

theorem namesUnder_perm {nodes others : List Node} (h : nodes.Perm others) :
    (namesUnder nodes).Perm (namesUnder others) := h.flatMap_right _

section Counting

variable (r : Reference)

@[simp] theorem Code.Node.count_stmt (span : Span) (form : StmtForm) :
    (Node.stmt (.at span form)).names.count r = (namesUnder form.children).count r :=
  (Node.names_perm rfl).count_eq r

@[simp] theorem Code.Node.count_handler (h : Handler) :
    (Node.handler h).names.count r = (namesUnder (Node.handler h).children).count r :=
  (Node.names_perm rfl).count_eq r

@[simp] theorem Code.Node.count_case (c : Case) :
    (Node.case c).names.count r = (namesUnder (Node.case c).children).count r :=
  (Node.names_perm rfl).count_eq r

@[simp] theorem Code.Node.count_withItem (i : WithItem) :
    (Node.withItem i).names.count r = (namesUnder (Node.withItem i).children).count r :=
  (Node.names_perm rfl).count_eq r

end Counting

/-! ## What pieces carry -/

mutual

/-- What is collected from the handlers and the cases of a statement, in the order
of the source. A definition is left alone. -/
def Code.Stmt.collect (ofHandler : Handler → List Node) (ofCase : Case → List Node) : Stmt → List Node
  | .at _ (.ifElse _ body orelse) =>
    collectAll ofHandler ofCase body ++ collectAll ofHandler ofCase orelse
  | .at _ (.whileLoop _ body orelse) =>
    collectAll ofHandler ofCase body ++ collectAll ofHandler ofCase orelse
  | .at _ (.forLoop _ _ _ body orelse) =>
    collectAll ofHandler ofCase body ++ collectAll ofHandler ofCase orelse
  | .at _ (.withItems _ _ body) => collectAll ofHandler ofCase body
  | .at _ (.tryBlock _ body handlers orelse finalbody) =>
    collectAll ofHandler ofCase body ++ collectHandlers ofHandler ofCase handlers
      ++ collectAll ofHandler ofCase orelse ++ collectAll ofHandler ofCase finalbody
  | .at _ (.matchCases _ cases) => collectCases ofHandler ofCase cases
  | .at _ _ => []

def collectAll (ofHandler : Handler → List Node) (ofCase : Case → List Node) : List Stmt → List Node
  | [] => []
  | s :: rest => s.collect ofHandler ofCase ++ collectAll ofHandler ofCase rest

def collectHandlers (ofHandler : Handler → List Node) (ofCase : Case → List Node) :
    List Handler → List Node
  | [] => []
  | .at span type name body :: rest =>
    ofHandler (.at span type name body) ++ collectAll ofHandler ofCase body
      ++ collectHandlers ofHandler ofCase rest

def collectCases (ofHandler : Handler → List Node) (ofCase : Case → List Node) : List Case → List Node
  | [] => []
  | .of p guard body :: rest =>
    ofCase (.of p guard body) ++ collectAll ofHandler ofCase body
      ++ collectCases ofHandler ofCase rest

end

/-- The name that the header of a handler binds. -/
def Code.Handler.written : Handler → List Node
  | .at span (some _) (some name) _ => [.expr (handlerTarget span name)]
  | _ => []

/-- The pattern and the guard of a case. -/
def Code.Case.condition : Case → List Node
  | .of p guard _ => .pattern p :: guard.toList.map .expr

/-- The parts of statements that no piece carries. -/
def allLeftOut : List Stmt → List Node := collectAll (fun _ => []) Case.condition

/-- What the pieces of statements add to the source. -/
def allAdded : List Stmt → List Node := collectAll Handler.written fun _ => []

section Pieces

variable (r : Reference)

/-- The header of an item has the names of the item. -/
theorem count_itemHeaders (items : List WithItem) :
    (namesUnder ((itemHeaders items).map .stmt)).count r = (namesUnder (items.map .withItem)).count r := by
  induction items with
  | nil => rfl
  | cons i rest ih =>
    obtain ⟨context, target⟩ := i
    rw [List.map_cons, namesUnder_cons, List.count_append, ← ih]
    cases target <;>
      simp [itemHeaders, bindingHeader, testHeader, StmtForm.children, Node.children]
    omega

mutual

/-- **Name by name, the pieces of a statement have what the statement has**, but for
what is left out and what is added. -/
theorem Code.Stmt.count_pieces : ∀ s : Stmt,
    (namesUnder (s.pieces.map .stmt)).count r
        + (namesUnder (s.collect (fun _ => []) Case.condition)).count r =
      (Node.stmt s).names.count r
        + (namesUnder (s.collect Handler.written fun _ => [])).count r
  | .at span form => by
    cases form with
    | ifElse test body orelse =>
      have hbody := count_allPieces body
      have horelse := count_allPieces orelse
      simp [Stmt.pieces, Stmt.collect, testHeader, StmtForm.children]
      omega
    | whileLoop test body orelse =>
      have hbody := count_allPieces body
      have horelse := count_allPieces orelse
      simp [Stmt.pieces, Stmt.collect, testHeader, StmtForm.children]
      omega
    | forLoop isAsync target iter body orelse =>
      have hbody := count_allPieces body
      have horelse := count_allPieces orelse
      simp [Stmt.pieces, Stmt.collect, bindingHeader, StmtForm.children]
      omega
    | withItems isAsync items body =>
      have hbody := count_allPieces body
      have hitems := count_itemHeaders r items
      simp [Stmt.pieces, Stmt.collect, StmtForm.children]
      omega
    | tryBlock isGroup body handlers orelse finalbody =>
      have hbody := count_allPieces body
      have hhandlers := count_handlersPieces handlers
      have horelse := count_allPieces orelse
      have hfinal := count_allPieces finalbody
      simp [Stmt.pieces, Stmt.collect, StmtForm.children]
      omega
    | matchCases subject cases =>
      have hcases := count_casesPieces cases
      simp [Stmt.pieces, Stmt.collect, testHeader, StmtForm.children]
      omega
    | breakLoop => simp [Stmt.pieces, Stmt.collect, StmtForm.children]
    | continueLoop => simp [Stmt.pieces, Stmt.collect, StmtForm.children]
    | _ => simp [Stmt.pieces, Stmt.collect]

theorem count_allPieces : ∀ body : List Stmt,
    (namesUnder ((allPieces body).map .stmt)).count r
        + (namesUnder (collectAll (fun _ => []) Case.condition body)).count r =
      (namesUnder (body.map .stmt)).count r
        + (namesUnder (collectAll Handler.written (fun _ => []) body)).count r
  | [] => rfl
  | s :: rest => by
    have hs := s.count_pieces
    have hrest := count_allPieces rest
    simp [allPieces, collectAll]
    omega

theorem count_handlersPieces : ∀ handlers : List Handler,
    (namesUnder ((handlersPieces handlers).map .stmt)).count r
        + (namesUnder (collectHandlers (fun _ => []) Case.condition handlers)).count r =
      (namesUnder (handlers.map .handler)).count r
        + (namesUnder (collectHandlers Handler.written (fun _ => []) handlers)).count r
  | [] => rfl
  | .at span type name body :: rest => by
    have hbody := count_allPieces body
    have hrest := count_handlersPieces rest
    cases type <;> cases name <;>
      simp [handlersPieces, collectHandlers, Handler.written, Node.children, bindingHeader,
        testHeader, StmtForm.children] <;> omega

theorem count_casesPieces : ∀ cases : List Case,
    (namesUnder ((casesPieces cases).map .stmt)).count r
        + (namesUnder (collectCases (fun _ => []) Case.condition cases)).count r =
      (namesUnder (cases.map .case)).count r
        + (namesUnder (collectCases Handler.written (fun _ => []) cases)).count r
  | [] => rfl
  | .of p guard body :: rest => by
    have hbody := count_allPieces body
    have hrest := count_casesPieces rest
    simp [casesPieces, collectCases, Case.condition, Node.children]
    omega

end

end Pieces

/-! ## What graphs carry -/

/-- The names under the statements of a graph. -/
def Graph.names (g : Graph) : List Reference :=
  namesUnder ((g.blocks.flatMap (·.statements)).filterMap fun s => s.map .stmt)

theorem Graph.HoldsBody.names_perm {g : Graph} {bindings body : List Stmt} (h : g.HoldsBody bindings body) :
    g.names.Perm (namesUnder (bindings.map .stmt ++ (allPieces body).map .stmt)) := by
  refine namesUnder_perm ((h.once.filterMap _).trans ?_)
  rw [List.filterMap_map, ← List.map_append, ← List.filterMap_eq_map]
  exact .refl _

theorem Graph.mem_names {g : Graph} {r : Reference} :
    r ∈ g.names ↔ ∃ b ∈ g.blocks, ∃ s, some s ∈ b.statements ∧ r ∈ (Node.stmt s).names := by
  simp only [Graph.names, namesUnder, List.mem_flatMap, List.mem_filterMap, Option.map_eq_some_iff]
  constructor
  · rintro ⟨_, ⟨_, ⟨b, hb, hs⟩, s, rfl, rfl⟩, hr⟩
    exact ⟨b, hb, s, hs, hr⟩
  · rintro ⟨b, hb, s, hs, hr⟩
    exact ⟨_, ⟨_, ⟨b, hb, hs⟩, s, rfl, rfl⟩, hr⟩

/-- The names that a statement binds by its kind are among those it defines. -/
theorem Code.Stmt.mem_definitions_of_target (rules : Rules) {s : Stmt} {targets : List Expr}
    (htargets : s.form.targets? = some targets) {r : Reference} (hr : r ∈ namesUnder (targets.map .expr)) :
    r ∈ (s.definitions rules).identities := by
  refine Definitions.mem_identities_union.2 (.inr ?_)
  simp only [Stmt.ownDefinitions, htargets]
  exact List.mem_map.2 ⟨_, List.mem_map_of_mem hr, rfl⟩

/-- **A statement reads or defines every name under it.** -/
theorem Code.Stmt.mem_uses_or_definitions (rules : Rules) {s : Stmt} {r : Reference}
    (hr : r ∈ (Node.stmt s).names) : r ∈ s.uses ∨ r ∈ (s.definitions rules).identities := by
  obtain ⟨span, form⟩ := s
  have hparts : r ∈ namesUnder form.children := (Node.names_perm rfl).mem_iff.1 hr
  cases form with
  | assign targets value =>
    rw [StmtForm.children, namesUnder_append, List.mem_append] at hparts
    exact hparts.symm.imp id (mem_definitions_of_target rules rfl)
  | augAssign target op value =>
    rw [StmtForm.children, namesUnder_cons, List.mem_append] at hparts
    refine .inl (hparts.elim (fun h => ?_) fun h => ?_)
    all_goals simp_all [Stmt.uses, StmtForm.sources?]
  | annAssign target hint value bare =>
    cases value with
    | none => exact .inl hr
    | some value =>
      rw [StmtForm.children, namesUnder_cons, List.mem_append] at hparts
      refine hparts.symm.imp (fun h => ?_) fun h => ?_
      · simp_all [Stmt.uses, StmtForm.sources?, or_comm]
      · exact mem_definitions_of_target rules rfl (by simpa using h)
  | _ => exact .inl hr

/-- **Which names a graph carries.** Together with the names in the patterns and the
guards of cases, the statements of the blocks have every name of the body and of the
bindings on entry once, and the names that headers of handlers bind. So the graph
carries every name of the body under exactly one statement just when no case outside
of a definition has a name in its pattern or its guard. A name that is carried is read
or defined by its statement. -/
theorem Graph.names_carried_iff (name : String) (line : Int) (bindings body : List Stmt) :
    let g := Graph.ofBody name line bindings body
    let present := namesUnder (bindings.map .stmt ++ body.map .stmt ++ allAdded body)
    (g.names ++ namesUnder (allLeftOut body)).Perm present ∧
      (g.names.Perm present ↔ namesUnder (allLeftOut body) = []) ∧
      ∀ rules, ∀ r ∈ g.names, ∃ b ∈ g.blocks, ∃ s, some s ∈ b.statements ∧
        (r ∈ s.uses ∨ r ∈ (s.definitions rules).identities) := by
  intro g present
  have hcarried : (g.names ++ namesUnder (allLeftOut body)).Perm present := by
    refine List.perm_iff_count.2 fun r => ?_
    have hpieces := count_allPieces r body
    have hplaced := (Graph.ofBody_holdsBody name line bindings body).names_perm.count_eq r
    simp only [namesUnder_append, List.count_append, present, g, allLeftOut, allAdded] at hplaced ⊢
    omega
  refine ⟨hcarried, ⟨fun hall => ?_, fun hnone => by simpa [hnone] using hcarried⟩, ?_⟩
  · have hlength := hcarried.length_eq.trans hall.length_eq.symm
    rw [List.length_append] at hlength
    exact List.length_eq_zero_iff.1 (by omega)
  · intro rules r hr
    obtain ⟨b, hb, s, hs, hrs⟩ := mem_names.1 hr
    exact ⟨b, hb, s, hs, s.mem_uses_or_definitions rules hrs⟩

open Code in
/-- A name that only the guard of a case reads. -/
def Code.Module.guardedCase : Module :=
  let one (line column : Int) : Expr := .at ⟨line, column, line, column + 1⟩ (.constant (.int 1))
  let y (line column : Int) : Expr := .at ⟨line, column, line, column + 1⟩ (.name "y")
  { body :=
      [.at ⟨1, 0, 1, 5⟩ (.assign [y 1 0] (one 1 4)),
      .at ⟨2, 0, 4, 12⟩ (.matchCases (one 2 6)
        [.of (.at ⟨3, 9, 3, 10⟩ (.capture none none)) (some (y 3 14)) [.at ⟨4, 8, 4, 12⟩ .pass]])] }

/-- **A name that is lost.** No statement of a block has the name in the guard. -/
theorem Graph.guardedCase_name_lost :
    ⟨"y", ⟨3, 14, 3, 15⟩⟩ ∈ namesUnder (Module.guardedCase.body.map .stmt) ∧
      ⟨"y", ⟨3, 14, 3, 15⟩⟩ ∉ (Graph.ofModule .guardedCase).names := by
  decide +kernel

end Reaching
