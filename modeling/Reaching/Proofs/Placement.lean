/-
Which statements the blocks of a laid out body hold.

A body is taken apart into pieces: its simple statements and definitions as they
are, and a header for every test, loop target, item and handler
(`Code.Stmt.pieces`). A layout places the pieces one after the other, in the order
of the source (`layOut_pieces`), and each of them in a block that opens. So the
blocks hold every piece once, and inside of a block pieces keep their order
(`Graph.ofBody_holds`).
-/
import Reaching.Proofs.Region
import Reaching.Proofs.Runs

namespace Reaching

open Code Fragment

/-! ## Pieces -/

mutual

/-- What is placed for a statement, in the order of the source. Jumps inside of a
body leave nothing behind; a definition is one piece, whatever its body. -/
def Code.Stmt.pieces : Stmt → List Stmt
  | .at _ (.ifElse test body orelse) => testHeader test :: (allPieces body ++ allPieces orelse)
  | .at _ (.whileLoop test body orelse) => testHeader test :: (allPieces body ++ allPieces orelse)
  | .at _ (.forLoop _ target iter body orelse) =>
    bindingHeader (some target) iter :: (allPieces body ++ allPieces orelse)
  | .at _ (.withItems _ items body) => itemHeaders items ++ allPieces body
  | .at _ (.tryBlock _ body handlers orelse finalbody) =>
    allPieces body ++ handlersPieces handlers ++ allPieces orelse ++ allPieces finalbody
  | .at _ (.matchCases subject cases) => testHeader subject :: casesPieces cases
  | .at _ .breakLoop => []
  | .at _ .continueLoop => []
  | .at span form => [.at span form]

/-- The pieces of statements one after the other. -/
def allPieces : List Stmt → List Stmt
  | [] => []
  | s :: rest => s.pieces ++ allPieces rest

/-- The pieces of handlers: a handler that names an exception type has a header. -/
def handlersPieces : List Handler → List Stmt
  | [] => []
  | .at span type name body :: rest =>
    (type.map (bindingHeader (name.map (handlerTarget span)))).toList ++ allPieces body
      ++ handlersPieces rest

/-- The pieces of cases. -/
def casesPieces : List Case → List Stmt
  | [] => []
  | .of _ _ body :: rest => allPieces body ++ casesPieces rest

end

/-! ## Pieces of a layout -/

namespace Fragment

/-- The statements that a fragment places, in the order in which it does. -/
def pieces (f : Fragment) : List Stmt := f.placed.map (·.2)

@[simp] theorem pieces_append (f g : Fragment) : (f ++ g).pieces = f.pieces ++ g.pieces :=
  List.map_append

@[simp] theorem pieces_places (b : BlockId) (s : Stmt) : (places b s).pieces = [s] := rfl

@[simp] theorem pieces_empty : Fragment.pieces {} = [] := rfl

@[simp] theorem pieces_opens (kind : BlockKind) (line : Int) : (opens kind line).pieces = [] := rfl

@[simp] theorem pieces_passes (a b : BlockId) (kind : TransferKind) (text : Option String) :
    (passes a b kind text).pieces = [] := rfl

@[simp] theorem pieces_turns (b : BlockId) (kind : BlockKind) : (turns b kind).pieces = [] := rfl

@[simp] theorem pieces_returnsFrom (b : BlockId) : (returnsFrom b).pieces = [] := rfl

@[simp] theorem pieces_decides : decides.pieces = [] := rfl

theorem placed_placing (f : Fragment) (b : BlockId) (statements : List Stmt) :
    (f.placing b statements).placed = f.placed ++ statements.map fun s => (b, s) := by
  unfold placing
  induction statements generalizing f with
  | nil => simp
  | cons s rest ih =>
    rw [List.foldl_cons, ih]
    show f.placed ++ [(b, s)] ++ _ = _
    simp

@[simp] theorem pieces_placing (f : Fragment) (b : BlockId) (statements : List Stmt) :
    (f.placing b statements).pieces = f.pieces ++ statements := by
  simp [pieces, placed_placing, List.map_map, Function.comp_def]

/-- A block in which a statement is placed is touched. -/
theorem touches_of_mem_placed {f : Fragment} {p : BlockId × Stmt} (h : p ∈ f.placed) :
    f.Touches p.1 := by
  refine .inl (List.ne_nil_of_mem (a := p.2) ?_)
  exact List.mem_map.2 ⟨p, List.mem_filter.2 ⟨h, by simp⟩, rfl⟩

end Fragment

variable {loop : Option Loop}

theorem elsePart_pieces (before after fresh : BlockId) (kind : TransferKind) (text : Option String)
    {orelse : List Stmt}
    (horelse : ∀ current fresh, (layOutAll loop current fresh orelse).1.pieces = allPieces orelse) :
    (elsePart loop before after fresh kind text orelse).pieces = allPieces orelse := by
  cases orelse with
  | nil => rfl
  | cons s rest => simp [elsePart, horelse]

theorem layOutLoop_pieces (header : Stmt) (links : LoopLinks) (span : Span) (bodyLine : Int)
    {body orelse : List Stmt} (current fresh : BlockId)
    (hbody : ∀ inner current fresh, (layOutAll (some inner) current fresh body).1.pieces = allPieces body)
    (horelse : ∀ current fresh, (layOutAll loop current fresh orelse).1.pieces = allPieces orelse) :
    (layOutLoop header links span bodyLine (orelse.head?.map (·.span.firstLine))
        (fun inner c f => layOutAll (some inner) c f body) (fun _ c f => layOutAll loop c f orelse)
        current fresh).1.pieces = header :: (allPieces body ++ allPieces orelse) := by
  rw [layOutLoop_eq header links span bodyLine orelse rfl]
  simp [hbody, elsePart_pieces _ _ _ _ _ horelse]

mutual

/-- **A layout places the pieces of a statement in the order of the source**, wherever
it is laid out. -/
theorem layOut_pieces (loop : Option Loop) : ∀ (s : Stmt) (current fresh : BlockId),
    (layOut loop current fresh s).1.pieces = s.pieces
  | .at span form, current, fresh => by
    cases form with
    | ifElse test body orelse =>
      rw [layOut_ifElse span test orelse rfl]
      simp [Stmt.pieces, layOutAll_pieces loop body,
        elsePart_pieces _ _ _ _ _ (layOutAll_pieces loop orelse)]
    | whileLoop test body orelse =>
      simp only [layOut, Stmt.pieces]
      exact layOutLoop_pieces _ _ span _ current fresh (fun inner => layOutAll_pieces (some inner) body)
        (layOutAll_pieces loop orelse)
    | forLoop isAsync target iter body orelse =>
      simp only [layOut, Stmt.pieces]
      exact layOutLoop_pieces _ _ span _ current fresh (fun inner => layOutAll_pieces (some inner) body)
        (layOutAll_pieces loop orelse)
    | withItems isAsync items body =>
      rw [layOut_withItems span isAsync items rfl, ← itemHeaders]
      simp [Stmt.pieces, layOutAll_pieces loop body]
    | tryBlock isGroup body handlers orelse finalbody =>
      rw [layOut_tryBlock span isGroup handlers orelse finalbody rfl rfl]
      simp [Stmt.pieces, layOutAll_pieces loop body, layOutHandlers_pieces loop handlers,
        elsePart_pieces _ _ _ _ _ (layOutAll_pieces loop orelse), layOutAll_pieces loop finalbody]
    | matchCases subject cases => simp [layOut, Stmt.pieces, layOutCases_pieces loop cases]
    | ret value => rfl
    | breakLoop => cases loop <;> rfl
    | continueLoop => cases loop <;> rfl
    | _ => rfl

theorem layOutAll_pieces (loop : Option Loop) : ∀ (body : List Stmt) (current fresh : BlockId),
    (layOutAll loop current fresh body).1.pieces = allPieces body
  | [], _, _ => rfl
  | s :: rest, current, fresh => by
    simp [layOutAll, allPieces, layOut_pieces loop s, layOutAll_pieces loop rest]

theorem layOutHandlers_pieces (loop : Option Loop) :
    ∀ (handlers : List Handler) (before bodyEnd after fresh : BlockId),
      (layOutHandlers loop before bodyEnd after fresh handlers).pieces = handlersPieces handlers
  | [], _, _, _, _ => rfl
  | .at span type name body :: rest, before, bodyEnd, after, fresh => by
    rw [layOutHandlers_cons before bodyEnd after span type name rest rfl]
    simp [handlersPieces, layOutAll_pieces loop body, layOutHandlers_pieces loop rest]

theorem layOutCases_pieces (loop : Option Loop) :
    ∀ (cases : List Case) (branch after fresh : BlockId),
      (layOutCases loop branch after fresh cases).pieces = casesPieces cases
  | [], _, _, _ => rfl
  | .of p guard body :: rest, branch, after, fresh => by
    simp [layOutCases, casesPieces, layOutAll_pieces loop body, layOutCases_pieces loop rest]

end

/-! ## Statements in blocks -/

/-- The blocks of a graph hold some statements, each in the block that is given with
it: a block holds all that are given with it, in their order, and nothing else. -/
structure Graph.Holds (g : Graph) (placed : List (BlockId × Stmt)) : Prop where
  distinct : (g.blocks.map (·.id)).Nodup
  inside : ∀ p ∈ placed, ∃ b ∈ g.blocks, b.id = p.1
  statements : ∀ b ∈ g.blocks,
    b.statements = (placed.filter fun p => p.1 = b.id).map fun p => some p.2

/-- Items that are sorted into parts by a key are all there, each once. -/
theorem perm_flatMap_filter {α β : Type} [DecidableEq α] (key : β → α) :
    ∀ {keys : List α} (items : List β), keys.Nodup → (∀ b ∈ items, key b ∈ keys) →
      (keys.flatMap fun a => items.filter fun b => key b = a).Perm items
  | [], items, _, hmem => by
    obtain rfl : items = [] := List.eq_nil_iff_forall_not_mem.2 fun b hb => nomatch hmem b hb
    exact .nil
  | a :: keys, items, hnodup, hmem => by
    obtain ⟨hnot, hnodup⟩ := List.nodup_cons.1 hnodup
    -- the items of the other keys are those that are left
    have hrest : ∀ c ∈ keys, items.filter (fun b => key b = c) =
        (items.filter fun b => !decide (key b = a)).filter fun b => key b = c := by
      intro c hc
      rw [List.filter_filter]
      refine List.filter_congr fun b _ => ?_
      by_cases hbc : key b = c
      · have hne : key b ≠ a := fun h => hnot (h ▸ hbc ▸ hc)
        simp [hbc, hbc ▸ hne]
      · simp [hbc]
    have ih := perm_flatMap_filter key (items.filter fun b => !decide (key b = a)) hnodup
      fun b hb => by
        obtain ⟨hb, hne⟩ := List.mem_filter.1 hb
        exact (List.mem_cons.1 (hmem b hb)).resolve_left (by simpa using hne)
    rw [List.flatMap_cons, List.flatMap_congr hrest]
    exact (ih.append_left _).trans (List.filter_append_perm (fun b => decide (key b = a)) items)

/-- **All blocks together hold every statement once.** -/
theorem Graph.Holds.perm {g : Graph} {placed : List (BlockId × Stmt)} (h : g.Holds placed) :
    (g.blocks.flatMap (·.statements)).Perm (placed.map fun p => some p.2) := by
  have hblocks : g.blocks.flatMap (·.statements) =
      ((g.blocks.map (·.id)).flatMap fun a => placed.filter fun p => p.1 = a).map fun p => some p.2 := by
    rw [List.flatMap_map, List.map_flatMap]
    exact List.flatMap_congr fun b hb => h.statements b hb
  rw [hblocks]
  refine (perm_flatMap_filter Prod.fst placed h.distinct fun p hp => ?_).map _
  obtain ⟨b, hb, hid⟩ := h.inside p hp
  exact List.mem_map.2 ⟨b, hb, hid⟩

/-- **Inside of a block statements keep their order.** -/
theorem Graph.Holds.sublist {g : Graph} {placed : List (BlockId × Stmt)} (h : g.Holds placed)
    {b : Block} (hb : b ∈ g.blocks) : b.statements.Sublist (placed.map fun p => some p.2) := by
  rw [h.statements b hb]
  exact List.filter_sublist.map _

/-- The blocks of a whole layout hold what it places in blocks that open. -/
theorem Fragment.toGraph_holds {F : Fragment} (name : String) {last : BlockId}
    (hlinked : (F.toGraph name last).Linked) (hin : ∀ p ∈ F.placed, 0 ≤ p.1 ∧ p.1 < F.next 0) :
    (F.toGraph name last).Holds F.placed where
  distinct := hlinked.distinct
  inside := fun p hp => exists_block name last (hin p hp)
  statements := by
    intro b hb
    obtain ⟨i, o, -, rfl⟩ := mem_blocks.1 hb
    exact List.map_map ..

theorem Fragment.placed_entry (line : Int) (bindings : List Stmt) (f : Fragment) :
    ((opens .entry line).placing 0 bindings ++ f).placed = bindings.map (fun s => (0, s)) ++ f.placed := by
  show (placing _ _ _).placed ++ _ = _
  rw [placed_placing]
  rfl

/-- A body outside of any loop is placed in blocks that open. -/
theorem Lies.placed_inside {f : Fragment} {last : BlockId} (h : Lies none 0 1 (f, last)) (line : Int)
    (bindings : List Stmt) {p : BlockId × Stmt}
    (hp : p ∈ ((opens .entry line).placing 0 bindings ++ f).placed) :
    0 ≤ p.1 ∧ p.1 < ((opens .entry line).placing 0 bindings ++ f).next 0 := by
  obtain ⟨⟨htouches, -⟩, -⟩ := h
  have hn := f.le_next 1
  simp only [next_append, next_placing, next_opens]
  rw [placed_entry, List.mem_append] at hp
  rcases hp with hp | hp
  · obtain ⟨s, -, rfl⟩ := List.mem_map.1 hp
    exact ⟨Int.le_refl _, by lia⟩
  · have := htouches _ (touches_of_mem_placed hp)
    dsimp only at this hn
    lia

/-- **The graph of a body holds its pieces**, behind the bindings on entry. -/
theorem Graph.ofBody_holds (name : String) (line : Int) (bindings body : List Stmt) :
    ∃ placed, placed.map (·.2) = allPieces body ∧
      (Graph.ofBody name line bindings body).Holds (bindings.map (fun s => (0, s)) ++ placed) := by
  cases hf : layOutAll none 0 1 body with
  | mk f last =>
    have hlies := hf ▸ layOutAll_lies none body 0 1 (by decide)
    have hpieces := hf ▸ layOutAll_pieces none body 0 1
    have hlinked := Graph.ofBody_linked name line bindings body
    rw [Graph.ofBody_eq name line bindings hf] at hlinked ⊢
    refine ⟨f.placed, hpieces, ?_⟩
    rw [← placed_entry line]
    exact toGraph_holds name hlinked fun p hp => hlies.placed_inside line bindings hp

/-! ## Bodies -/

/-- A graph holds the statements of a body, behind some bindings on entry. -/
structure Graph.HoldsBody (g : Graph) (bindings body : List Stmt) : Prop where
  /-- Every piece of the body has its block, and the blocks hold nothing else. -/
  assigned : ∃ placed, placed.map (·.2) = allPieces body ∧
    g.Holds (bindings.map (fun s => (g.entry, s)) ++ placed)
  /-- All blocks together hold every statement once. -/
  once : (g.blocks.flatMap (·.statements)).Perm ((bindings ++ allPieces body).map some)
  /-- Inside of a block statements stand in the order of the source. -/
  ordered : ∀ b ∈ g.blocks, b.statements.Sublist ((bindings ++ allPieces body).map some)
  /-- The entry starts with the bindings. -/
  bound : ∃ b ∈ g.blocks, b.id = g.entry ∧ bindings.map some <+: b.statements

theorem Graph.Holds.entry_bound {g : Graph} {bindings : List Stmt} {placed : List (BlockId × Stmt)}
    (h : g.Holds (bindings.map (fun s => (g.entry, s)) ++ placed)) {b : Block} (hb : b ∈ g.blocks)
    (hid : b.id = g.entry) : bindings.map some <+: b.statements := by
  have hall : (bindings.map fun s => (g.entry, s)).filter (fun p => p.1 = b.id) =
      bindings.map fun s => (g.entry, s) :=
    List.filter_eq_self.2 fun p hp => by
      obtain ⟨s, -, rfl⟩ := List.mem_map.1 hp
      simpa using hid.symm
  rw [h.statements b hb, List.filter_append, hall, List.map_append, List.map_map]
  exact List.prefix_append ..

/-- The entry is a block. -/
theorem Graph.ofBody_entry (name : String) (line : Int) (bindings body : List Stmt) :
    ∃ b ∈ (Graph.ofBody name line bindings body).blocks,
      b.id = (Graph.ofBody name line bindings body).entry := by
  cases hf : layOutAll none 0 1 body with
  | mk f last =>
    rw [Graph.ofBody_eq name line bindings hf]
    have hn := f.le_next 1
    refine exists_block name last (a := 0) ⟨Int.le_refl _, ?_⟩
    simp only [next_append, next_placing, next_opens]
    lia

theorem Graph.ofBody_holdsBody (name : String) (line : Int) (bindings body : List Stmt) :
    (Graph.ofBody name line bindings body).HoldsBody bindings body := by
  obtain ⟨placed, hpieces, hholds⟩ := Graph.ofBody_holds name line bindings body
  have hall : (bindings.map (fun s => ((0 : BlockId), s)) ++ placed).map (fun p => some p.2) =
      (bindings ++ allPieces body).map some := by
    simp [← hpieces, List.map_map, Function.comp_def]
  obtain ⟨b, hb, hid⟩ := Graph.ofBody_entry name line bindings body
  exact {
    assigned := ⟨placed, hpieces, hholds⟩
    once := hall ▸ hholds.perm
    ordered := fun b hb => hall ▸ hholds.sublist hb
    bound := ⟨b, hb, hid, hholds.entry_bound hb hid⟩ }

end Reaching
