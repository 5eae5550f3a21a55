/-
What a part of a layout says about a block, piece by piece.

A fragment places statements in blocks, leads from block to block, and leaves
the body at blocks. Each of these is known of a joined fragment when it is known
of its parts, so that a layout is read off by rewriting with the lemmas here.
-/
import Reaching.Graph.Layout

namespace Reaching
namespace Fragment

/-! ## What a fragment says -/

/-- Control passes from one block to another. -/
def Leads (f : Fragment) (a b : BlockId) : Prop := ∃ t ∈ f.transfers, t.source = a ∧ t.target = b

/-- Control passes from a block to some other, or the body is left there. -/
def Leaves (f : Fragment) (a : BlockId) : Prop := (∃ b, f.Leads a b) ∨ a ∈ f.returns

/-- A statement stands in a block, or control leaves it. -/
def Touches (f : Fragment) (a : BlockId) : Prop := f.statementsOf a ≠ [] ∨ f.Leaves a

/-- Control passes to a block. -/
def Enters (f : Fragment) (b : BlockId) : Prop := ∃ a, f.Leads a b

@[grind →]
theorem Leaves.touches {f : Fragment} {a : BlockId} (h : f.Leaves a) : f.Touches a := .inr h

@[grind →]
theorem Leads.touches {f : Fragment} {a b : BlockId} (h : f.Leads a b) : f.Touches a :=
  .inr (.inl ⟨b, h⟩)

@[grind →]
theorem touches_of_mem_returns {f : Fragment} {a : BlockId} (h : a ∈ f.returns) : f.Touches a :=
  .inr (.inr h)

@[grind →]
theorem Leads.leaves {f : Fragment} {a b : BlockId} (h : f.Leads a b) : f.Leaves a := .inl ⟨b, h⟩

@[grind →]
theorem leaves_of_mem_returns {f : Fragment} {a : BlockId} (h : a ∈ f.returns) : f.Leaves a := .inr h

@[grind =]
theorem statementsOf_eq_nil {f : Fragment} {a : BlockId} (h : ¬ f.Touches a) :
    f.statementsOf a = [] := Classical.byContradiction fun hne => h (.inl hne)

/-- A fragment says nothing about a block that it does not touch. -/
theorem untouched {f : Fragment} {a : BlockId} (h : ¬ f.Touches a) :
    f.statementsOf a = [] ∧ (∀ b, ¬ f.Leads a b) ∧ a ∉ f.returns :=
  ⟨statementsOf_eq_nil h, fun _ hl => h hl.touches, fun hr => h (touches_of_mem_returns hr)⟩

theorem append_assoc (f g h : Fragment) : f ++ g ++ h = f ++ (g ++ h) := by
  show append (append f g) h = append f (append g h)
  simp only [append, List.append_assoc, Nat.add_assoc]

/-! ## Numbers of blocks that open -/

theorem opened_append (f g : Fragment) : (f ++ g).opened = f.opened ++ g.opened := rfl

@[simp] theorem opened_opens (kind : BlockKind) (line : Int) :
    (opens kind line).opened = [⟨kind, line⟩] := rfl

@[simp] theorem opened_empty : Fragment.opened {} = [] := rfl

@[simp] theorem opened_places (b : BlockId) (s : Code.Stmt) : (places b s).opened = [] := rfl

@[simp] theorem opened_passes (a b : BlockId) (kind : TransferKind) (text : Option String) :
    (passes a b kind text).opened = [] := rfl

@[simp] theorem opened_turns (b : BlockId) (kind : BlockKind) : (turns b kind).opened = [] := rfl

@[simp] theorem opened_returnsFrom (b : BlockId) : (returnsFrom b).opened = [] := rfl

@[simp] theorem opened_decides : decides.opened = [] := rfl

theorem next_append (f g : Fragment) (fresh : BlockId) :
    (f ++ g).next fresh = g.next (f.next fresh) := by
  simp only [next, opened_append, List.length_append]
  lia

theorem le_next (f : Fragment) (fresh : BlockId) : fresh ≤ f.next fresh := by
  simp only [next]
  lia

@[simp] theorem next_opens (kind : BlockKind) (line : Int) (fresh : BlockId) :
    (opens kind line).next fresh = fresh + 1 := rfl

@[simp] theorem next_empty (fresh : BlockId) : Fragment.next {} fresh = fresh := Int.add_zero _

@[simp] theorem next_places (b : BlockId) (s : Code.Stmt) (fresh : BlockId) :
    (places b s).next fresh = fresh := Int.add_zero _

@[simp] theorem next_passes (a b : BlockId) (kind : TransferKind) (text : Option String)
    (fresh : BlockId) : (passes a b kind text).next fresh = fresh := Int.add_zero _

@[simp] theorem next_turns (b : BlockId) (kind : BlockKind) (fresh : BlockId) :
    (turns b kind).next fresh = fresh := Int.add_zero _

@[simp] theorem next_returnsFrom (b fresh : BlockId) : (returnsFrom b).next fresh = fresh :=
  Int.add_zero _

@[simp] theorem next_decides (fresh : BlockId) : decides.next fresh = fresh := Int.add_zero _

/-! ## Statements -/

@[simp] theorem statementsOf_append (f g : Fragment) (a : BlockId) :
    (f ++ g).statementsOf a = f.statementsOf a ++ g.statementsOf a := by
  show ((f.placed ++ g.placed).filter _).map _ = _
  simp [statementsOf]

theorem statementsOf_places (b a : BlockId) (s : Code.Stmt) :
    (places b s).statementsOf a = if b = a then [s] else [] := by
  unfold statementsOf places
  by_cases h : b = a <;> simp [h]

@[simp] theorem statementsOf_empty (a : BlockId) : Fragment.statementsOf {} a = [] := rfl

@[simp] theorem statementsOf_opens (kind : BlockKind) (line : Int) (a : BlockId) :
    (opens kind line).statementsOf a = [] := rfl

@[simp] theorem statementsOf_passes (b c : BlockId) (kind : TransferKind) (text : Option String)
    (a : BlockId) : (passes b c kind text).statementsOf a = [] := rfl

@[simp] theorem statementsOf_turns (b : BlockId) (kind : BlockKind) (a : BlockId) :
    (turns b kind).statementsOf a = [] := rfl

@[simp] theorem statementsOf_returnsFrom (b a : BlockId) : (returnsFrom b).statementsOf a = [] := rfl

@[simp] theorem statementsOf_decides (a : BlockId) : decides.statementsOf a = [] := rfl

/-! ## Transfers -/

@[simp] theorem leads_append {f g : Fragment} {a b : BlockId} :
    (f ++ g).Leads a b ↔ f.Leads a b ∨ g.Leads a b := by
  show (∃ t ∈ f.transfers ++ g.transfers, _) ↔ _
  simp only [List.mem_append, or_and_right, exists_or, Leads]

@[simp] theorem leads_passes {b c : BlockId} {kind : TransferKind} {text : Option String}
    {a d : BlockId} : (passes b c kind text).Leads a d ↔ a = b ∧ d = c := by
  simp [Leads, passes, eq_comm]

@[simp] theorem leads_empty {a b : BlockId} : ¬ Fragment.Leads {} a b := by simp [Leads]

@[simp] theorem leads_opens {kind : BlockKind} {line : Int} {a b : BlockId} :
    ¬ (opens kind line).Leads a b := by simp [Leads, opens]

@[simp] theorem leads_places {c : BlockId} {s : Code.Stmt} {a b : BlockId} :
    ¬ (places c s).Leads a b := by simp [Leads, places]

@[simp] theorem leads_turns {c : BlockId} {kind : BlockKind} {a b : BlockId} :
    ¬ (turns c kind).Leads a b := by simp [Leads, turns]

@[simp] theorem leads_returnsFrom {c a b : BlockId} : ¬ (returnsFrom c).Leads a b := by
  simp [Leads, returnsFrom]

@[simp] theorem leads_decides {a b : BlockId} : ¬ decides.Leads a b := by simp [Leads, decides]

/-! ## Returns -/

@[simp] theorem mem_returns_append {f g : Fragment} {a : BlockId} :
    a ∈ (f ++ g).returns ↔ a ∈ f.returns ∨ a ∈ g.returns := List.mem_append

@[simp] theorem mem_returns_returnsFrom {b a : BlockId} : a ∈ (returnsFrom b).returns ↔ a = b :=
  List.mem_singleton

@[simp] theorem returns_empty : Fragment.returns {} = [] := rfl

@[simp] theorem returns_opens (kind : BlockKind) (line : Int) : (opens kind line).returns = [] := rfl

@[simp] theorem returns_places (b : BlockId) (s : Code.Stmt) : (places b s).returns = [] := rfl

@[simp] theorem returns_passes (b c : BlockId) (kind : TransferKind) (text : Option String) :
    (passes b c kind text).returns = [] := rfl

@[simp] theorem returns_turns (b : BlockId) (kind : BlockKind) : (turns b kind).returns = [] := rfl

@[simp] theorem returns_decides : decides.returns = [] := rfl

/-! ## Blocks that are left, touched and entered -/

@[simp] theorem leaves_append {f g : Fragment} {a : BlockId} :
    (f ++ g).Leaves a ↔ f.Leaves a ∨ g.Leaves a := by
  simp only [Leaves, leads_append, exists_or, mem_returns_append]
  exact or_or_or_comm

@[simp] theorem leaves_passes {b c : BlockId} {kind : TransferKind} {text : Option String}
    {a : BlockId} : (passes b c kind text).Leaves a ↔ a = b := by simp [Leaves]

@[simp] theorem leaves_returnsFrom {b a : BlockId} : (returnsFrom b).Leaves a ↔ a = b := by
  simp [Leaves]

@[simp] theorem leaves_empty {a : BlockId} : ¬ Fragment.Leaves {} a := by simp [Leaves]

@[simp] theorem leaves_opens {kind : BlockKind} {line : Int} {a : BlockId} :
    ¬ (opens kind line).Leaves a := by simp [Leaves]

@[simp] theorem leaves_places {b : BlockId} {s : Code.Stmt} {a : BlockId} :
    ¬ (places b s).Leaves a := by simp [Leaves]

@[simp] theorem leaves_turns {b : BlockId} {kind : BlockKind} {a : BlockId} :
    ¬ (turns b kind).Leaves a := by simp [Leaves]

@[simp] theorem leaves_decides {a : BlockId} : ¬ decides.Leaves a := by simp [Leaves]

@[simp] theorem touches_append {f g : Fragment} {a : BlockId} :
    (f ++ g).Touches a ↔ f.Touches a ∨ g.Touches a := by
  simp only [Touches, statementsOf_append, leaves_append, ne_eq, List.append_eq_nil_iff,
    Classical.not_and_iff_not_or_not]
  exact or_or_or_comm

@[simp] theorem touches_places {b : BlockId} {s : Code.Stmt} {a : BlockId} :
    (places b s).Touches a ↔ a = b := by
  simp [Touches, statementsOf_places, eq_comm]

@[simp] theorem touches_passes {b c : BlockId} {kind : TransferKind} {text : Option String}
    {a : BlockId} : (passes b c kind text).Touches a ↔ a = b := by simp [Touches]

@[simp] theorem touches_returnsFrom {b a : BlockId} : (returnsFrom b).Touches a ↔ a = b := by
  simp [Touches]

@[simp] theorem touches_empty {a : BlockId} : ¬ Fragment.Touches {} a := by simp [Touches]

@[simp] theorem touches_opens {kind : BlockKind} {line : Int} {a : BlockId} :
    ¬ (opens kind line).Touches a := by simp [Touches]

@[simp] theorem touches_turns {b : BlockId} {kind : BlockKind} {a : BlockId} :
    ¬ (turns b kind).Touches a := by simp [Touches]

@[simp] theorem touches_decides {a : BlockId} : ¬ decides.Touches a := by simp [Touches]

@[simp] theorem enters_append {f g : Fragment} {b : BlockId} :
    (f ++ g).Enters b ↔ f.Enters b ∨ g.Enters b := by simp only [Enters, leads_append, exists_or]

@[simp] theorem enters_passes {a c : BlockId} {kind : TransferKind} {text : Option String}
    {b : BlockId} : (passes a c kind text).Enters b ↔ b = c := by simp [Enters]

@[simp] theorem enters_empty {b : BlockId} : ¬ Fragment.Enters {} b := by simp [Enters]

@[simp] theorem enters_opens {kind : BlockKind} {line : Int} {b : BlockId} :
    ¬ (opens kind line).Enters b := by simp [Enters]

@[simp] theorem enters_places {a : BlockId} {s : Code.Stmt} {b : BlockId} :
    ¬ (places a s).Enters b := by simp [Enters]

@[simp] theorem enters_turns {a : BlockId} {kind : BlockKind} {b : BlockId} :
    ¬ (turns a kind).Enters b := by simp [Enters]

@[simp] theorem enters_returnsFrom {a b : BlockId} : ¬ (returnsFrom a).Enters b := by simp [Enters]

@[simp] theorem enters_decides {b : BlockId} : ¬ decides.Enters b := by simp [Enters]

/-! ## Statements placed one after another -/

/-- A fragment with some statements placed in a block. -/
def placing (f : Fragment) (b : BlockId) (statements : List Code.Stmt) : Fragment :=
  statements.foldl (fun f s => f ++ places b s) f

theorem statementsOf_placing (f : Fragment) (b a : BlockId) (statements : List Code.Stmt) :
    (f.placing b statements).statementsOf a =
      f.statementsOf a ++ if b = a then statements else [] := by
  unfold placing
  induction statements generalizing f with
  | nil => simp
  | cons s rest ih =>
    rw [List.foldl_cons, ih, statementsOf_append, statementsOf_places]
    by_cases h : b = a <;> simp [h]

/-- Placing statements opens no blocks and passes no control. -/
theorem placing_keeps (f : Fragment) (b : BlockId) (statements : List Code.Stmt) :
    (f.placing b statements).opened = f.opened ∧
      (f.placing b statements).transfers = f.transfers ∧
      (f.placing b statements).returns = f.returns := by
  unfold placing
  induction statements generalizing f with
  | nil => exact ⟨rfl, rfl, rfl⟩
  | cons s rest ih =>
    obtain ⟨hopened, htransfers, hreturns⟩ := ih (f ++ places b s)
    refine ⟨hopened.trans ?_, htransfers.trans ?_, hreturns.trans ?_⟩ <;> exact List.append_nil _

@[simp] theorem opened_placing (f : Fragment) (b : BlockId) (statements : List Code.Stmt) :
    (f.placing b statements).opened = f.opened := (f.placing_keeps b statements).1

@[simp] theorem next_placing (f : Fragment) (b : BlockId) (statements : List Code.Stmt)
    (fresh : BlockId) : (f.placing b statements).next fresh = f.next fresh := by
  simp only [next, (f.placing_keeps b statements).1]

@[simp] theorem leads_placing {f : Fragment} {b : BlockId} {statements : List Code.Stmt}
    {a c : BlockId} : (f.placing b statements).Leads a c ↔ f.Leads a c := by
  simp only [Leads, (f.placing_keeps b statements).2.1]

@[simp] theorem returns_placing (f : Fragment) (b : BlockId) (statements : List Code.Stmt) :
    (f.placing b statements).returns = f.returns := (f.placing_keeps b statements).2.2

@[simp] theorem leaves_placing {f : Fragment} {b : BlockId} {statements : List Code.Stmt}
    {a : BlockId} : (f.placing b statements).Leaves a ↔ f.Leaves a := by simp [Leaves]

@[simp] theorem enters_placing {f : Fragment} {b : BlockId} {statements : List Code.Stmt}
    {a : BlockId} : (f.placing b statements).Enters a ↔ f.Enters a := by simp [Enters]

theorem touches_placing {f : Fragment} {b : BlockId} {statements : List Code.Stmt} {a : BlockId}
    (h : (f.placing b statements).Touches a) : a = b ∨ f.Touches a := by
  by_cases hab : b = a
  · exact .inl hab.symm
  · exact .inr (by simpa [Touches, statementsOf_placing, hab] using h)

end Fragment
end Reaching
