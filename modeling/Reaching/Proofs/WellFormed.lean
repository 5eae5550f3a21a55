/-
Every graph of a body is well formed.

Its blocks are numbered in order, its links are just its transfers, the blocks without a
predecessor are the entry and those that open right after a jump, and the exits are the
blocks without a successor: those that end in a `return`, and the one in which the body
ends (`Graph.WellFormed`). All of it is read off the shape of the layout (`Tidy`).
-/
import Mathlib.Data.List.Nodup
import Mathlib.Data.Prod.Basic
import Reaching.Proofs.Shape

namespace Reaching

open Code Fragment

/-! ## Links -/

theorem eraseDups_of_nodup {α : Type} [BEq α] [LawfulBEq α] {items : List α} (h : items.Nodup) :
    items.eraseDups = items := by
  induction items with
  | nil => rfl
  | cons a items ih =>
    obtain ⟨hnot, hrest⟩ := List.nodup_cons.1 h
    have hother : (items.filter fun b => !b == a) = items :=
      List.filter_eq_self.2 fun b hb => by
        have hne : b ≠ a := fun hba => hnot (hba ▸ hb)
        simpa using hne
    rw [List.eraseDups_cons, hother, ih hrest]

/-- Where no two transfers join the same blocks, the far ends of those at one block differ. -/
theorem nodup_far {transfers : List Transfer} {near far : Transfer → BlockId}
    (h : (transfers.map fun t => (near t, far t)).Nodup) (a : BlockId) :
    ((transfers.filter fun t => near t = a).map far).Nodup := by
  have hpairs : (transfers.filter fun t => near t = a).map (fun t => (near t, far t)) =
      ((transfers.filter fun t => near t = a).map far).map fun b => (a, b) := by
    rw [List.map_map]
    exact List.map_congr_left fun t ht => Prod.ext (by simpa using (List.mem_filter.1 ht).2) rfl
  have hnodup := h.sublist (List.filter_sublist.map _ :
    ((transfers.filter fun t => near t = a).map fun t => (near t, far t)).Sublist _)
  rw [hpairs] at hnodup
  exact hnodup.of_map _

namespace Fragment

variable {f : Fragment}

/-- Where no two transfers join the same blocks, the successors of a block are the
targets of its transfers, each once. -/
theorem successors_eq (h : f.links.Nodup) (a : BlockId) :
    successors f.transfers a = (f.transfers.filter fun t => t.source = a).map (·.target) ∧
      (successors f.transfers a).Nodup := by
  have hnodup := nodup_far h a
  rw [successors, eraseDups_of_nodup hnodup]
  exact ⟨rfl, hnodup⟩

/-- Where no two transfers join the same blocks, the predecessors of a block are the
sources of the transfers to it, each once. -/
theorem predecessors_eq (h : f.links.Nodup) (b : BlockId) :
    predecessors f.transfers b = (f.transfers.filter fun t => t.target = b).map (·.source) ∧
      (predecessors f.transfers b).Nodup := by
  have hswapped : (f.transfers.map fun t => (t.target, t.source)).Nodup := by
    have := h.map Prod.swap_injective
    rwa [links, List.map_map] at this
  have hnodup := nodup_far hswapped b
  rw [predecessors, eraseDups_of_nodup hnodup]
  exact ⟨rfl, hnodup⟩

theorem successors_eq_nil {a : BlockId} : successors f.transfers a = [] ↔ ∀ b, ¬ f.Leads a b := by
  simp only [List.eq_nil_iff_forall_not_mem, mem_successors]

theorem predecessors_eq_nil {b : BlockId} : predecessors f.transfers b = [] ↔ ¬ f.Enters b := by
  simp only [List.eq_nil_iff_forall_not_mem, mem_predecessors, Enters, not_exists]

end Fragment

/-! ## Graphs -/

/-- The last statement of a block leaves the body. -/
def Block.EndsInReturn (b : Block) : Prop :=
  ∃ s, b.statements.getLast? = some (some s) ∧ s.isReturn = true

/-- The block in which a body ends. -/
def finalBlock (body : List Stmt) : BlockId := (layOutAll none 0 1 body).2

/-- What holds of the graph of a body. -/
structure Graph.WellFormed (g : Graph) (body : List Stmt) : Prop where
  /-- Blocks are numbered in the order of the list. -/
  numbered : ∀ (i : Nat) (b : Block), g.blocks[i]? = some b → b.id = i
  /-- Transfers join blocks of the graph. -/
  joined : ∀ t ∈ g.transfers, (∃ a ∈ g.blocks, a.id = t.source) ∧ ∃ b ∈ g.blocks, b.id = t.target
  /-- No two transfers join the same blocks. -/
  single : (g.transfers.map fun t => (t.source, t.target)).Nodup
  /-- The successors of a block are the targets of its transfers, in order. -/
  succs : ∀ b ∈ g.blocks,
    b.succs = (g.transfers.filter fun t => t.source = b.id).map (·.target) ∧ b.succs.Nodup
  /-- The predecessors of a block are the sources of the transfers to it, in order. -/
  preds : ∀ b ∈ g.blocks,
    b.preds = (g.transfers.filter fun t => t.target = b.id).map (·.source) ∧ b.preds.Nodup
  /-- The entry is the first block, and has no predecessor. -/
  entry : ∃ b, g.blocks[0]? = some b ∧ b.id = g.entry ∧ b.preds = []
  /-- The other blocks are those that the statements open; the ones that open right
  after a jump, and only these, have no predecessor. -/
  opened : g.blocks.length = (allOpenings false body).length + 1 ∧
    ∀ (i : Nat) (o : Opening), (allOpenings false body)[i]? = some o →
      ∃ b, g.blocks[i + 1]? = some b ∧ b.firstLine = o.block.line ∧
        (b.preds = [] ↔ o.afterJump = true)
  /-- No exit is listed twice. -/
  once : g.exits.Nodup
  /-- The exits are the blocks without a successor. -/
  exits : ∀ i, i ∈ g.exits ↔ ∃ b ∈ g.blocks, b.id = i ∧ b.succs = []
  /-- These are the blocks that end in a `return`, and the one in which the body ends. -/
  ends : ∀ b ∈ g.blocks, b.succs = [] ↔ b.EndsInReturn ∨ b.id = finalBlock body

/-! ## Whole layouts -/

namespace Fragment

variable {F : Fragment} {last a : BlockId}

theorem getElem?_blocks (name : String) (i : Nat) :
    (F.toGraph name last).blocks[i]? = F.opened[i]?.map fun o => F.blockOf last i o := by
  simp [toGraph, List.getElem?_zipIdx, Function.comp_def]

/-- The body is left where a block ends in a `return`. -/
theorem Clean.mem_returns_iff (h : F.Clean) :
    a ∈ F.returns ↔ ∃ s ∈ (F.statementsOf a).getLast?, s.isReturn = true := by
  constructor
  · exact h.ending a
  · rintro ⟨s, hs, hret⟩
    obtain ⟨p, hp, rfl⟩ := List.mem_map.1 (List.mem_of_getLast? hs)
    obtain ⟨hp, hblock⟩ := List.mem_filter.1 hp
    rw [h.returned, List.mem_map]
    exact ⟨p, List.mem_filter.2 ⟨hp, hret⟩, by simpa using hblock⟩

/-- Control leads nowhere from the blocks where the body is left and from the last one. -/
theorem Clean.leads_nowhere_iff (h : F.Clean) (hopen : ¬ F.Leaves last)
    (hleft : a ≠ last → F.Leaves a) : (∀ b, ¬ F.Leads a b) ↔ a ∈ F.returns ∨ a = last := by
  constructor
  · intro hno
    refine or_iff_not_imp_right.2 fun hne => ?_
    exact (hleft hne).resolve_left fun ⟨b, hb⟩ => hno b hb
  · rintro (hret | rfl)
    · exact h.nowhere a hret
    · exact fun b hb => hopen hb.leaves

theorem mem_exits_iff {name : String} :
    a ∈ (F.toGraph name last).exits ↔ a ∈ F.returns ∨ a = last := by
  simp [toGraph]

end Fragment

/-- A whole layout: its first block is the entry, its last one is where the body ends. -/
structure Fragment.Whole (F : Fragment) (last : BlockId) (line : Int) (os : List Opening) : Prop where
  clean : F.Clean
  opened : F.opened = ⟨.entry, line⟩ :: os.map (·.block)
  inside : ∀ a b, F.Leads a b → (0 ≤ a ∧ a < F.next 0) ∧ (0 ≤ b ∧ b < F.next 0)
  entry : ¬ F.Enters 0
  entered : F.EntersAll 1 os
  isOpen : ¬ F.Leaves last
  left : ∀ a, 0 ≤ a → a < F.next 0 → a ≠ last → F.Leaves a
  exits : ∀ a, a ∈ F.returns ∨ a = last → 0 ≤ a ∧ a < F.next 0

/-- The graph of a body is a whole layout, behind bindings that are no `return`. -/
theorem Graph.exists_whole (name : String) (line : Int) {bindings : List Stmt}
    (hbindings : ∀ s ∈ bindings, s.isReturn = false) (body : List Stmt) :
    ∃ F : Fragment, Graph.ofBody name line bindings body = F.toGraph name (finalBlock body) ∧
      F.Whole (finalBlock body) line (allOpenings false body) := by
  cases hf : layOutAll none 0 1 body with
  | mk f last =>
    have hroom : Room none 0 1 := ⟨by decide, by decide, by simp [Loop.Ends]⟩
    have hlies := hf ▸ layOutAll_lies none body 0 1 (by decide)
    obtain ⟨hopened, hclean, hentered, hleft⟩ := hf ▸ layOutAll_tidy none body 0 1 hroom
    have hn := f.le_next 1
    have hlast := hlies.last
    dsimp only at hopened hclean hentered hleft hlast
    have hfinal : finalBlock body = last := by rw [finalBlock, hf]
    have hentry : ((opens .entry line).placing 0 bindings).Clean :=
      clean_placing (clean_opens ..) rfl 0 hbindings
    refine ⟨(opens .entry line).placing 0 bindings ++ f, ?graph, ?clean, ?opened, ?inside, ?entry, ?entered,
      ?isOpen, ?left, ?exits⟩
    case graph => rw [Graph.ofBody_eq name line bindings hf, hfinal]
    case clean => exact hentry.behind hclean fun a ha => by simp at ha
    case opened => simpa [opened_append] using hopened
    case inside => exact fun a b => hlies.leads_inside line bindings
    case entry =>
      intro hent
      have := (hlies.within.enters 0 (by simpa using hent)).resolve_left (by simp [Loop.Ends])
      lia
    case entered => exact hentered.of_part hopened fun a _ _ => by simp
    case isOpen => simpa [hfinal] using hlies.isOpen
    case left =>
      intro a h1 h2 hne
      simp [next_append] at h2 ⊢
      exact hleft a (by lia) (hfinal ▸ hne)
    case exits =>
      intro a ha
      simp only [next_append, next_placing, next_opens]
      rcases ha with ha | rfl
      · have := hlies.within.touches a (touches_of_mem_returns (by simpa using ha))
        dsimp only at this
        lia
      · lia

namespace Fragment.Whole

variable {F : Fragment} {last : BlockId} {line : Int} {os : List Opening} {name : String} {b : Block}

/-- What a whole layout says of a block. -/
theorem of_mem_blocks (hb : b ∈ (F.toGraph name last).blocks) :
    (0 ≤ b.id ∧ b.id < F.next 0) ∧ b.preds = predecessors F.transfers b.id ∧
      b.succs = successors F.transfers b.id ∧ b.statements = (F.statementsOf b.id).map some := by
  obtain ⟨i, o, hi, rfl⟩ := mem_blocks.1 hb
  have hlt := (List.getElem?_eq_some_iff.1 hi).1
  refine ⟨⟨Int.natCast_nonneg i, ?_⟩, rfl, rfl, rfl⟩
  simp only [blockOf, next]
  lia

/-- A block has no successor where the body is left. -/
theorem succs_eq_nil_iff (h : F.Whole last line os) (hb : b ∈ (F.toGraph name last).blocks) :
    b.succs = [] ↔ b.id ∈ F.returns ∨ b.id = last := by
  obtain ⟨hin, -, hsuccs, -⟩ := of_mem_blocks hb
  rw [hsuccs, successors_eq_nil]
  exact h.clean.leads_nowhere_iff h.isOpen (h.left b.id hin.1 hin.2)

/-- The block that opens has no predecessor just when it opens right after a jump. -/
theorem preds_eq_nil_iff (h : F.Whole last line os) {i : Nat} {o : Opening} (hi : os[i]? = some o) :
    predecessors F.transfers (i + 1 : Nat) = [] ↔ o.afterJump = true := by
  have hentered := h.entered i o hi
  rw [show (1 : BlockId) + i = (i + 1 : Nat) by lia] at hentered
  rw [predecessors_eq_nil, hentered]
  simp

/-- **A whole layout of a body is a well-formed graph.** -/
theorem toGraph_wellFormed {body : List Stmt} (h : F.Whole (finalBlock body) line (allOpenings false body)) :
    (F.toGraph name (finalBlock body)).WellFormed body where
  numbered := by
    intro i b hb
    rw [getElem?_blocks] at hb
    obtain ⟨o, -, rfl⟩ := Option.map_eq_some_iff.1 hb
    rfl
  joined := by
    intro t ht
    have hends := h.inside t.source t.target ⟨t, ht, rfl, rfl⟩
    exact ⟨exists_block name _ hends.1, exists_block name _ hends.2⟩
  single := h.clean.links
  succs := by
    intro b hb
    obtain ⟨-, -, hsuccs, -⟩ := of_mem_blocks hb
    rw [hsuccs]
    exact successors_eq h.clean.links b.id
  preds := by
    intro b hb
    obtain ⟨-, hpreds, -, -⟩ := of_mem_blocks hb
    rw [hpreds]
    exact predecessors_eq h.clean.links b.id
  entry := by
    refine ⟨F.blockOf (finalBlock body) 0 ⟨.entry, line⟩, by simp [getElem?_blocks, h.opened], rfl, ?_⟩
    exact predecessors_eq_nil.2 h.entry
  opened := by
    refine ⟨by simp [toGraph, h.opened], fun i o hi => ?_⟩
    exact ⟨F.blockOf (finalBlock body) (i + 1 : Nat) o.block, by simp [getElem?_blocks, h.opened, hi], rfl,
      h.preds_eq_nil_iff hi⟩
  once := by
    refine List.nodup_append.2 ⟨h.clean.once, List.nodup_singleton _, ?_⟩
    rintro a ha b hb rfl
    exact h.isOpen (leaves_of_mem_returns (List.mem_singleton.1 hb ▸ ha))
  exits := by
    intro i
    rw [mem_exits_iff]
    constructor
    · intro hi
      obtain ⟨b, hb, rfl⟩ := exists_block name _ (h.exits i hi)
      exact ⟨b, hb, rfl, (h.succs_eq_nil_iff hb).2 hi⟩
    · rintro ⟨b, hb, rfl, hsuccs⟩
      exact (h.succs_eq_nil_iff hb).1 hsuccs
  ends := by
    intro b hb
    obtain ⟨-, -, -, hstatements⟩ := of_mem_blocks hb
    rw [h.succs_eq_nil_iff hb, h.clean.mem_returns_iff, Block.EndsInReturn, hstatements]
    simp

end Fragment.Whole

theorem Graph.ofBody_wellFormed (name : String) (line : Int) {bindings : List Stmt}
    (hbindings : ∀ s ∈ bindings, s.isReturn = false) (body : List Stmt) :
    (Graph.ofBody name line bindings body).WellFormed body := by
  obtain ⟨F, heq, hF⟩ := Graph.exists_whole name line hbindings body
  rw [heq]
  exact hF.toGraph_wellFormed

/-- **The graphs of module-level code and of functions are well formed.** -/
theorem Graph.wellFormed :
    (∀ m : Module, (Graph.ofModule m).WellFormed m.body) ∧
      ∀ (span : Span) (isAsync : Bool) (name : String) (ps : Parameters) (body : List Stmt)
        (decorators : List Expr) (returns : Option Expr),
        ∃ g, Graph.ofFunction? (.at span (.function isAsync name ps body decorators returns)) = some g ∧
          g.WellFormed body := by
  refine ⟨fun m => Graph.ofBody_wellFormed _ _ (by simp) m.body,
    fun span isAsync name ps body decorators returns => ⟨_, rfl, ?_⟩⟩
  refine Graph.ofBody_wellFormed name _ (fun s hs => ?_) body
  obtain ⟨p, -, rfl⟩ := List.mem_map.1 hs
  rfl

end Reaching
