/-
The names that a program imports.

An import statement binds an alias, the first part of a dotted name, or a member, and
nothing at all if one of its members is a star (`Code.StmtForm.ImportsAs`). What it notes
are these names (`Code.StmtForm.mem_imported_iff`). They are also the names of the definitions
it makes by its kind: no other statement makes such definitions, and under an import there is
no name to be changed and no literal to declare one that could stand in for them
(`Code.Stmt.mem_imports_iff_definitions`).

A visit adds what the statements of its block note, whatever was found before. So at every
moment only names that placed statements import have been noted; a call without a budget
visits every block, and has noted all of them (`Graph.Resolved.module_names_exact`).
-/
import Mathlib.Data.List.TakeWhile
import Reaching.Proofs.Recovery
import Reaching.Proofs.Mutations

namespace Reaching

open Code

/-! ## The names that an import binds -/

/-- The first part of a dotted name is what stands in front of its first dot, or all of it
if it has none. -/
def FirstPart (part whole : String) : Prop :=
  '.' ∉ part.toList ∧ (whole = part ∨ ∃ rest, whole = part ++ "." ++ rest)

/-- The names that a form binds by importing them. A definition statement imports nothing,
whatever its body imports. -/
inductive Code.StmtForm.ImportsAs : StmtForm → String → Prop
  | moduleAlias {names : List Alias} {a : Alias} {name : String} :
      a ∈ names → a.bound = some name → ImportsAs (.importNames names) name
  | modulePart {names : List Alias} {a : Alias} {name : String} :
      a ∈ names → a.bound = none → FirstPart name a.name → ImportsAs (.importNames names) name
  | memberAlias {module : Option String} {names : List Alias} {level : Nat} {a : Alias} {name : String} :
      (∀ b ∈ names, b.name ≠ "*") → a ∈ names → a.bound = some name →
      ImportsAs (.importFrom module names level) name
  | member {module : Option String} {names : List Alias} {level : Nat} {a : Alias} :
      (∀ b ∈ names, b.name ≠ "*") → a ∈ names → a.bound = none →
      ImportsAs (.importFrom module names level) a.name

theorem dot_toList : ".".toList = ['.'] := rfl

theorem firstPart_iff {part whole : String} :
    FirstPart part whole ↔ String.ofList (whole.toList.takeWhile (· ≠ '.')) = part := by
  constructor
  · rintro ⟨hdot, hwhole⟩
    have hall : ∀ c ∈ part.toList, decide (c ≠ '.') = true := fun c hc =>
      decide_eq_true fun h => hdot (h ▸ hc)
    have htake : whole.toList.takeWhile (· ≠ '.') = part.toList := by
      rcases hwhole with rfl | ⟨rest, rfl⟩
      · exact List.takeWhile_eq_self_iff.2 hall
      · rw [String.toList_append, String.toList_append, dot_toList, List.append_assoc,
          List.takeWhile_append_of_pos hall]
        simp
    rw [htake, String.ofList_toList]
  · rintro rfl
    refine ⟨fun hdot => ?_, ?_⟩
    · rw [String.toList_ofList] at hdot
      simpa using List.mem_takeWhile_imp hdot
    · have hsplit := List.takeWhile_append_dropWhile (p := fun c => decide (c ≠ '.')) (l := whole.toList)
      cases hrest : whole.toList.dropWhile (· ≠ '.') with
      | nil =>
        refine .inl (String.toList_inj.1 ?_)
        rw [String.toList_ofList]
        rw [hrest, List.append_nil] at hsplit
        exact hsplit.symm
      | cons c rest =>
        have hc : c = '.' := by
          have := List.head?_dropWhile_not (fun c => decide (c ≠ '.')) whole.toList
          rw [hrest] at this
          simpa using this
        refine .inr ⟨String.ofList rest, String.toList_inj.1 ?_⟩
        rw [hrest, hc] at hsplit
        rw [String.toList_append, String.toList_append, dot_toList, String.toList_ofList,
          String.toList_ofList, List.append_assoc]
        exact hsplit.symm

/-- Without a star every member is taken over. -/
theorem Code.StmtForm.imported_of_members {module : Option String} {names : List Alias} {level : Nat}
    (h : ∀ b ∈ names, b.name ≠ "*") :
    (StmtForm.importFrom module names level).imported = names.map fun a => (a.bound.getD a.name, a.span) :=
  if_neg (by simpa using h)

/-- **What a statement notes as imported** are the names that it binds by importing them. -/
theorem Code.StmtForm.mem_imported_iff {form : StmtForm} {name : String} :
    name ∈ form.imported.map (·.1) ↔ form.ImportsAs name := by
  constructor
  · intro h
    cases form with
    | importNames names =>
      simp only [imported, List.map_map, List.mem_map, Function.comp_apply] at h
      obtain ⟨a, ha, hname⟩ := h
      cases hbound : a.bound with
      | none =>
        rw [hbound] at hname
        exact .modulePart ha hbound (firstPart_iff.2 hname)
      | some bound =>
        rw [hbound] at hname
        exact .moduleAlias ha (hname ▸ hbound)
    | importFrom module names level =>
      by_cases hstar : names.any fun a => a.name = "*"
      · simp [imported, hstar] at h
      · have hnone : ∀ b ∈ names, b.name ≠ "*" := by simpa using hstar
        rw [imported_of_members hnone, List.map_map, List.mem_map] at h
        obtain ⟨a, ha, rfl⟩ := h
        cases hbound : a.bound with
        | none =>
          rw [Function.comp_apply, hbound]
          exact .member hnone ha hbound
        | some bound =>
          rw [Function.comp_apply, hbound]
          exact .memberAlias hnone ha hbound
    | _ => cases h
  · intro h
    cases h with
    | moduleAlias ha hbound =>
      simp only [imported, List.map_map, List.mem_map, Function.comp_apply]
      exact ⟨_, ha, by rw [hbound]; rfl⟩
    | modulePart ha hbound hpart =>
      simp only [imported, List.map_map, List.mem_map, Function.comp_apply]
      exact ⟨_, ha, by rw [hbound]; exact firstPart_iff.1 hpart⟩
    | memberAlias hnone ha hbound =>
      rw [imported_of_members hnone, List.map_map, List.mem_map]
      exact ⟨_, ha, by rw [Function.comp_apply, hbound]; rfl⟩
    | member hnone ha hbound =>
      rw [imported_of_members hnone, List.map_map, List.mem_map]
      exact ⟨_, ha, by rw [Function.comp_apply, hbound]; rfl⟩

/-! ## The definitions that an import makes -/

theorem Introduces.kind_ne_importName (form : Introduces) : form.kind ≠ .importName := by
  cases form <;> exact fun h => nomatch h

theorem declaredDefinitions_kind {s : Stmt} {d : Definition} (h : d ∈ (declaredDefinitions s).1) :
    d.kind = .declared := by
  obtain ⟨found, hfound, hd⟩ :=
    List.mem_flatMap.1 ((Definitions.mem_of_mem_union h).resolve_left List.not_mem_nil)
  obtain ⟨⟨text, span⟩, -, rfl⟩ := List.mem_map.1 hfound
  simp only [Declaration.ofLiteral] at hd
  split at hd
  · cases hd
  · cases hd
  · obtain ⟨declared, -, rfl⟩ := List.mem_map.1 hd
    rfl

/-- The definitions of imported names are those that a statement makes by its kind, from
what it notes. -/
theorem Code.Stmt.mem_imported_of_kind {rules : Rules} {s : Stmt} {d : Definition}
    (h : d ∈ s.definitions rules) (hkind : d.kind = .importName) :
    ∃ name ∈ s.form.imported.map (·.1), Text.ofString name = d.name := by
  rcases Definitions.mem_of_mem_union h with h | h
  · rcases Definitions.mem_of_mem_union h with h | h
    · obtain ⟨r, -, rfl⟩ := mem_mutationDefinitions.1 h
      cases hkind
    · rw [declaredDefinitions_kind h] at hkind
      cases hkind
  · simp only [ownDefinitions] at h
    split at h
    · obtain ⟨r, -, rfl⟩ := List.mem_map.1 h
      cases hkind
    · obtain rfl := List.mem_singleton.1 h
      exact absurd hkind (Introduces.kind_ne_importName _)
    · obtain ⟨item, hitem, rfl⟩ := List.mem_map.1 h
      exact ⟨item.1, List.mem_map_of_mem hitem, rfl⟩

/-- Under an import there is nothing but the names that it takes over. -/
theorem Code.Stmt.mem_breadthFirst_of_import {s : Stmt} {names : List Alias}
    (h : s.form.children = names.map .importName) {m : Node} (hm : m ∈ (Node.stmt s).breadthFirst) :
    m = .stmt s ∨ ∃ a, m = .importName a := by
  obtain ⟨span, form⟩ := s
  rw [Node.breadthFirst_eq, List.mem_cons, (Node.levels_perm _).mem_iff, List.mem_flatMap] at hm
  refine hm.imp_right ?_
  rintro ⟨c, hc, hm⟩
  obtain ⟨a, -, rfl⟩ := List.mem_map.1 ((h ▸ hc : c ∈ names.map Node.importName))
  rw [Node.breadthFirst_eq, Node.children, Node.levels, List.mem_singleton] at hm
  exact ⟨a, hm⟩

/-- An import makes no definitions but those of its kind. -/
theorem Code.Stmt.definitions_of_import {s : Stmt} {names : List Alias}
    (h : s.form.children = names.map .importName) (rules : Rules) :
    s.definitions rules = .ofList s.ownDefinitions := by
  have hmutations : mutationDefinitions rules s = [] := by
    refine List.eq_nil_iff_forall_not_mem.2 fun d hd => ?_
    obtain ⟨r, hr, -⟩ := mem_mutationDefinitions.1 hd
    obtain ⟨m, hm, hname⟩ := List.mem_filterMap.1 (mem_markedNames_visits.1 hr).mem_names
    rcases mem_breadthFirst_of_import h hm with rfl | ⟨a, rfl⟩ <;> cases hname
  have hliterals : s.literals = [] := by
    refine List.eq_nil_iff_forall_not_mem.2 fun literal hliteral => ?_
    obtain ⟨m, hm, htext⟩ := List.mem_filterMap.1 hliteral
    rcases mem_breadthFirst_of_import h hm with rfl | ⟨a, rfl⟩ <;> cases htext
  rw [definitions, hmutations, declaredDefinitions, hliterals]
  rfl

/-- **The names that a statement notes as imported** are those of the definitions that it
makes for what it imports. -/
theorem Code.Stmt.mem_imports_iff_definitions {rules : Rules} {s : Stmt} {name : String} :
    name ∈ (s.effect rules).imports ↔ ∃ d ∈ s.definitions rules, d.kind = .importName ∧ d.name = name := by
  constructor
  · intro h
    obtain ⟨item, hitem, rfl⟩ := List.mem_map.1 h
    obtain ⟨names, hchildren, hown⟩ : ∃ names : List Alias, s.form.children = names.map .importName ∧
        s.ownDefinitions = s.form.imported.map fun item =>
          { name := item.1, span := item.2, kind := .importName, owner := s } := by
      obtain ⟨span, form⟩ := s
      cases form with
      | importNames names => exact ⟨names, rfl, rfl⟩
      | importFrom module names level => exact ⟨names, rfl, rfl⟩
      | _ => cases hitem
    -- of two definitions with one identity one may be left out, but not both
    have hid : (⟨item.1, item.2⟩ : Reference) ∈ (s.definitions rules).identities := by
      rw [definitions_of_import hchildren, hown]
      exact Definitions.mem_identities_union.2
        (.inr (List.mem_map.2 ⟨_, List.mem_map_of_mem hitem, rfl⟩))
    obtain ⟨d, hd, hdid⟩ := List.mem_map.1 hid
    refine ⟨d, hd, ?_, congrArg Reference.name hdid⟩
    rw [definitions_of_import hchildren, hown] at hd
    obtain ⟨item', -, rfl⟩ := List.mem_map.1 ((Definitions.mem_of_mem_union hd).resolve_left List.not_mem_nil)
    rfl
  · rintro ⟨d, hd, hkind, hname⟩
    obtain ⟨name', hmem, hname'⟩ := mem_imported_of_kind hd hkind
    rwa [← Text.ofString_inj.1 (hname'.trans hname)]

/-! ## The names that a graph imports -/

/-- A statement in some block of a graph binds a name by importing it. -/
def Graph.Imports (g : Graph) (name : String) : Prop :=
  ∃ b ∈ g.blocks, ∃ s, some s ∈ b.statements ∧ s.form.ImportsAs name

theorem Block.imported_iff {b : Block} {rules : Rules} {name : String} :
    (∃ e ∈ (b.site rules).effects, name ∈ e.imports) ↔
      ∃ s, some s ∈ b.statements ∧ s.form.ImportsAs name := by
  simp only [Block.site, List.mem_map, exists_exists_and_eq_and]
  constructor
  · rintro ⟨s, hs, hname⟩
    cases s with
    | none => cases hname
    | some s => exact ⟨s, hs, StmtForm.mem_imported_iff.1 hname⟩
  · rintro ⟨s, hs, hname⟩
    exact ⟨some s, hs, StmtForm.mem_imported_iff.2 hname⟩

theorem Graph.imported_iff {g : Graph} {rules : Rules} {name : String} :
    Imported (g.sites rules) name ↔ g.Imports name := by
  constructor
  · rintro ⟨site, hsite, hname⟩
    obtain ⟨b, hb, rfl⟩ := Graph.mem_sites.1 hsite
    exact ⟨b, hb, Block.imported_iff.1 hname⟩
  · rintro ⟨b, hb, hname⟩
    exact ⟨_, Graph.site_mem_sites hb rules, Block.imported_iff.2 hname⟩

/-- **After calls of which one had no budget all imported names are noted.** -/
theorem modules_of_analyzeAll {sites : List Site} (hres : Resolved sites) {budgets : List (Option Int)}
    (hnone : none ∈ budgets) {s s' : Session} (hs : s.Bounded sites)
    (hok : analyzeAll sites budgets s = .ok s') {name : String} (hname : Imported sites name) :
    name ∈ s'.modules := by
  refine analyzeAll_of_none hres (Q := Session.Bounded sites) (P := fun s => name ∈ s.modules)
    (·.covers) (·.bounded hres) (·.modules) ?_ hnone hs hok
  intro s hs
  obtain ⟨places, t, hrun, -, hok⟩ := exists_run hres hs
  exact ⟨t, _, hok, hrun.modules hres hs.covers hname⟩

/-- **Imported names are complete, and no others are noted.** The links of a graph lead to
blocks; they may disagree, blocks may share numbers and stand in any order. Calls with any
budgets are made one after another, and then some visits of one more call. At that moment
only names are noted that a statement in some block imports; and if one of the calls had no
budget, all of these are, those of blocks that are reached from nowhere included. Noted
names stay, with more visits of a call and with more calls. A visit notes what the statements
of its block note, and what a statement notes are the names of the definitions that it makes
for what it imports. -/
theorem Graph.Resolved.module_names_exact {g : Graph} (hg : g.Resolved) (rules : Rules) :
    (∀ budgets, ∃ s, analyzeAll (g.sites rules) budgets (.fresh (g.sites rules)) = .ok s ∧
      (∀ n, ∃ now waiting,
        visitUpTo (g.sites rules) n s (List.range (g.sites rules).length) = .ok (now, waiting) ∧
        (∀ name ∈ now.modules, g.Imports name) ∧
        (none ∈ budgets → ∀ name, name ∈ now.modules ↔ g.Imports name) ∧
        ∀ m, n ≤ m → ∃ next waiting',
          visitUpTo (g.sites rules) m s (List.range (g.sites rules).length) = .ok (next, waiting') ∧
          now.modules ⊆ next.modules) ∧
      ∀ more, ∃ t, analyzeAll (g.sites rules) more s = .ok t ∧ s.modules ⊆ t.modules) ∧
    (∀ b ∈ g.blocks, ∀ s : Session, s.Covers (g.sites rules) → ∀ waiting, ∃ s' waiting',
      visit (g.sites rules) (b.site rules) s waiting = .ok (s', waiting') ∧
      ∀ name, name ∈ s'.modules ↔ name ∈ s.modules ∨
        ∃ statement, some statement ∈ b.statements ∧ name ∈ (statement.effect rules).imports) ∧
    ∀ (statement : Stmt) (name : String), name ∈ (statement.effect rules).imports ↔
      ∃ d ∈ statement.definitions rules, d.kind = .importName ∧ d.name = name := by
  have hres := hg.sites rules
  have hfresh : ∀ name ∈ (Session.fresh (g.sites rules)).modules, Imported (g.sites rules) name :=
    fun name hname => by cases hname
  refine ⟨fun budgets => ?_, fun b hb s hs waiting => ?_, fun _ _ => Stmt.mem_imports_iff_definitions⟩
  · obtain ⟨s, hok, hlater⟩ := exists_analyzeAll hres budgets Session.fresh_covers
    have hcov := hlater.covers Session.fresh_covers
    refine ⟨s, hok, fun n => ?_, fun more => ?_⟩
    · obtain ⟨now, waiting, hvisits, hnow, hnext⟩ := exists_moment hres hcov n
      have honly : ∀ name ∈ now.modules, g.Imports name := fun name hname =>
        Graph.imported_iff.1 ((hlater.trans hnow).imported hfresh name hname)
      refine ⟨now, waiting, hvisits, honly, fun hnone name => ⟨honly name, fun hname => ?_⟩, fun m hm => ?_⟩
      · have hall := modules_of_analyzeAll hres hnone Session.fresh_bounded hok (Graph.imported_iff.2 hname)
        exact hnow.modules hall
      · obtain ⟨next, waiting', hvisits', hlater'⟩ := hnext m hm
        exact ⟨next, waiting', hvisits', fun name => hlater'.modules⟩
    · obtain ⟨t, hok', hmore⟩ := exists_analyzeAll hres more hcov
      exact ⟨t, hok', fun name => hmore.modules⟩
  · obtain ⟨waiting', hv, -⟩ := visit_ok hres hs (Graph.site_mem_sites hb rules) waiting
    refine ⟨_, waiting', hv, fun name => Session.mem_modules_visited.trans (or_congr_right ?_)⟩
    rw [Block.imported_iff]
    exact exists_congr fun statement => and_congr_right fun _ => StmtForm.mem_imported_iff.symm

/-- Three blocks with `import os.path, json as j`, with `from sys import *` and
`def f(): import re`, and with `from pathlib import Path as P, sep`. The last one is reached
from nowhere. -/
def Graph.importing : Graph :=
  let path : Stmt := .at ⟨1, 0, 1, 25⟩
    (.importNames [⟨⟨1, 7, 1, 14⟩, "os.path", none⟩, ⟨⟨1, 16, 1, 25⟩, "json", some "j"⟩])
  let star : Stmt := .at ⟨2, 0, 2, 17⟩ (.importFrom (some "sys") [⟨⟨2, 16, 2, 17⟩, "*", none⟩] 0)
  let nested : Stmt := .at ⟨3, 9, 3, 18⟩ (.importNames [⟨⟨3, 16, 3, 18⟩, "re", none⟩])
  let function : Stmt := .at ⟨3, 0, 3, 18⟩ (.function false "f" (.of [] [] none [] none) [nested] [] none)
  let members : Stmt := .at ⟨4, 0, 4, 35⟩ (.importFrom (some "pathlib")
    [⟨⟨4, 20, 4, 29⟩, "Path", some "P"⟩, ⟨⟨4, 31, 4, 34⟩, "sep", none⟩] 0)
  { name := "importing"
    blocks :=
      [{ id := 0, statements := [some path], succs := [1] },
       { id := 1, statements := [some star, some function], preds := [0] },
       { id := 2, statements := [some members] }] }

theorem Graph.importing_resolved : Graph.importing.Resolved := by
  simp [Graph.Resolved, Graph.importing]

theorem Graph.importing_imports (name : String) :
    Graph.importing.Imports name ↔ name ∈ ["os", "j", "P", "sep"] := by
  simp only [Graph.Imports, ← StmtForm.mem_imported_iff]
  simp [Graph.importing, StmtForm.imported, exists_or, or_assoc]

/-- The hypothesis of `module_names_exact` holds of a graph with an unreachable block: after a
call cut short and one without a budget, and some visits more, the names noted are the first
part of the dotted name, the aliases and the member. -/
theorem Graph.importing_module_names :
    Graph.importing.Resolved ∧
      ∃ s, analyzeAll (Graph.importing.sites .default) [some 1, none]
          (.fresh (Graph.importing.sites .default)) = .ok s ∧
        ∃ now waiting, visitUpTo (Graph.importing.sites .default) 2 s (List.range 3) = .ok (now, waiting) ∧
          ∀ name, name ∈ now.modules ↔ name ∈ ["os", "j", "P", "sep"] := by
  obtain ⟨hcalls, -⟩ := Graph.Resolved.module_names_exact Graph.importing_resolved .default
  obtain ⟨s, hok, hmoments, -⟩ := hcalls [some 1, none]
  obtain ⟨now, waiting, hvisits, -, hexact, -⟩ := hmoments 2
  exact ⟨Graph.importing_resolved, s, hok, now, waiting, hvisits, fun name =>
    (hexact (by simp) name).trans (Graph.importing_imports name)⟩

end Reaching
