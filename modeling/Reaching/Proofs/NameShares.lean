/-
How a statement divides the names in it between what it reads and what it defines.

Definitions and reads are taken from a statement by two functions, and each has its own
account of which parts belong to it. Together they leave no name out. But for an assignment
a statement reads all its names. The children of an assignment are its targets and its
sources: it reads the sources and defines the targets, and one that adds to its target
reads the target too. Names are counted with their repetitions (`List.Perm`), so none is
lost because another one has the same name and the same span.
-/
import Reaching.Proofs.Mutations

namespace Reaching

open Code

/-- A statement reads each name in it once, but for the names in some targets; these it
defines. -/
structure Code.Stmt.ReadsAllBut (rules : Rules) (s : Stmt) (targets : List Expr) : Prop where
  divided : (Node.stmt s).names.Perm (s.uses ++ namesUnder (targets.map .expr))
  defined : ∀ r ∈ namesUnder (targets.map .expr), r ∈ (s.definitions rules).identities

namespace Code.Stmt

variable {rules : Rules} {s : Stmt} {targets : List Expr} {r : Reference}

theorem ReadsAllBut.mem_names_iff (h : s.ReadsAllBut rules targets) :
    r ∈ (Node.stmt s).names ↔ r ∈ s.uses ∨ r ∈ namesUnder (targets.map .expr) := by
  rw [h.divided.mem_iff, List.mem_append]

/-- Which names in it a statement reads, by its form. A type hint without a value is no
assignment. -/
def Divided (rules : Rules) (s : Stmt) : Prop :=
  match s.form with
  | .assign targets _ => s.ReadsAllBut rules targets
  | .annAssign target _ (some _) _ => s.ReadsAllBut rules [target]
  | .augAssign target _ _ =>
    s.ReadsAllBut rules [] ∧ ∀ r ∈ (Node.expr target).names, r ∈ (s.definitions rules).identities
  | _ => s.ReadsAllBut rules []

/-- The names of a statement are those in its parts. -/
theorem names_perm_children (span : Span) (form : StmtForm) :
    (Node.stmt (.at span form)).names.Perm (namesUnder form.children) :=
  Node.names_perm rfl

/-- A statement that is no assignment reads all names in it. -/
theorem readsAllBut_nil_of_sources (h : s.form.sources? = none) : s.ReadsAllBut rules [] where
  divided := by simp [uses, h]
  defined := by simp

open scoped List in
/-- The names of an assignment are those in its targets and those in its sources. -/
theorem divided (rules : Rules) (s : Stmt) : s.Divided rules := by
  obtain ⟨span, form⟩ := s
  have hparts := names_perm_children span form
  cases form with
  | assign targets value =>
    refine ⟨?_, fun r => mem_definitions_of_target rules rfl⟩
    calc (Node.stmt (.at span (.assign targets value))).names
        ~ namesUnder (targets.map .expr ++ [.expr value]) := hparts
      _ ~ namesUnder ([.expr value] ++ targets.map .expr) := namesUnder_perm List.perm_append_comm
      _ = _ := namesUnder_append ..
  | augAssign target op value =>
    refine ⟨⟨?_, by simp⟩, fun r hr => mem_definitions_of_target rules rfl (by simpa using hr)⟩
    calc (Node.stmt (.at span (.augAssign target op value))).names
        ~ namesUnder [.expr target, .expr value] := hparts
      _ ~ namesUnder [.expr value, .expr target] := namesUnder_perm (.swap ..)
      _ = _ := (List.append_nil _).symm
  | annAssign target hint value bare =>
    cases value with
    | none => exact readsAllBut_nil_of_sources rfl
    | some value =>
      refine ⟨?_, fun r => mem_definitions_of_target rules rfl⟩
      calc (Node.stmt (.at span (.annAssign target hint (some value) bare))).names
          ~ namesUnder ([.expr target] ++ [.expr hint, .expr value]) := hparts
        _ ~ namesUnder ([.expr value, .expr hint] ++ [.expr target]) :=
            namesUnder_perm (List.perm_append_comm.trans ((List.Perm.swap ..).append_right _))
        _ = _ := namesUnder_append ..
  | _ => exact readsAllBut_nil_of_sources rfl

end Code.Stmt

/-- **No name is dropped within a statement.** Each name expression under a statement is
read by it or is, with its span, among its definitions, and only name expressions under it
are read. What a statement reads are all of them, counted with their repetitions, but for
those in the targets of an assignment with a value; a statement that adds to its target
reads the target and defines it. -/
theorem Code.Stmt.names_shared (rules : Rules) (s : Stmt) :
    (∀ id span, (Node.stmt s).Under (.expr (.at span (.name id))) →
      ⟨id, span⟩ ∈ s.uses ∨ ⟨id, span⟩ ∈ (s.definitions rules).identities) ∧
    (∀ r ∈ s.uses, ∃ n, (Node.stmt s).Under n ∧ n.Names r) ∧
    s.Divided rules := by
  have hdivided := s.divided rules
  -- whatever the form, the statement reads all but the names in some targets
  obtain ⟨targets, hbut⟩ : ∃ targets, s.ReadsAllBut rules targets := by
    unfold Divided at hdivided
    split at hdivided
    · exact ⟨_, hdivided⟩
    · exact ⟨_, hdivided⟩
    · exact ⟨_, hdivided.1⟩
    · exact ⟨_, hdivided⟩
  refine ⟨fun id span h => ?_, fun r hr => ?_, hdivided⟩
  · exact s.mem_uses_or_definitions rules (Node.mem_names_iff.2 ⟨_, h, id, rfl, rfl⟩)
  · exact Node.mem_names_iff.1 (hbut.mem_names_iff.2 (.inl hr))

end Reaching
