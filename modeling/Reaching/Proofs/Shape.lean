/-
The shape of a laid out body: how its blocks are entered and left.

The blocks that a body opens are known from its statements (`Code.Stmt.openings`), and
which of them come right after a jump. Control passes to all the others and to none of
these, every block but the current one is left, and where a `return` stands the body is
left and control passes nowhere else. No two transfers join the same blocks. Each of this
holds of a part where it is laid out (`Tidy`) and is kept when parts are joined, because
they do not leave the same blocks.
-/
import Reaching.Proofs.Outflow
import Reaching.Proofs.Placement

namespace Reaching

open Code Fragment

/-! ## Blocks that open -/

/-- A block that opens, and whether it does so right after a jump. -/
structure Opening where
  block : Opened
  afterJump : Bool
  deriving DecidableEq, Repr

namespace Opening

/-- A block that is part of a statement. -/
def part (kind : BlockKind) (line : Int) : Opening := ⟨⟨kind, line⟩, false⟩

/-- The block that opens right after a jump. -/
def jump (line : Int) : Opening := ⟨⟨.body, line⟩, true⟩

/-- The first block of an `else` part, if there is one. -/
def orElse (orelse : List Stmt) : List Opening :=
  (orelse.head?.map fun s => part .body s.span.firstLine).toList

end Opening

open Opening in
mutual

/-- The blocks that a statement opens, in order. Jumps outside of any loop do nothing. -/
def Code.Stmt.openings (inLoop : Bool) : Stmt → List Opening
  | .at span (.ifElse _ body orelse) =>
    part .body (startLine body span.firstLine) :: part .body span.lastLine ::
      (allOpenings inLoop body ++ (orElse orelse ++ allOpenings inLoop orelse))
  | .at span (.whileLoop _ body orelse) =>
    part .loopHeader span.firstLine :: part .body span.lastLine ::
      part .loopBody (startLine body span.firstLine) ::
      (allOpenings true body ++ (orElse orelse ++ allOpenings inLoop orelse))
  | .at span (.forLoop _ _ _ body orelse) =>
    part .loopHeader span.firstLine :: part .body span.lastLine ::
      part .loopBody (startLine body span.firstLine) ::
      (allOpenings true body ++ (orElse orelse ++ allOpenings inLoop orelse))
  | .at _ (.withItems _ _ body) => allOpenings inLoop body
  | .at span (.tryBlock _ body handlers orelse finalbody) =>
    part .body (startLine body span.firstLine) :: (allOpenings inLoop body ++
      part .body span.lastLine :: (handlersOpenings inLoop handlers ++
        (orElse orelse ++ allOpenings inLoop orelse ++ allOpenings inLoop finalbody)))
  | .at span (.matchCases _ cases) => part .body span.lastLine :: casesOpenings inLoop cases
  | .at span (.ret _) => [jump span.firstLine]
  | .at span .breakLoop => if inLoop then [jump span.firstLine] else []
  | .at span .continueLoop => if inLoop then [jump span.firstLine] else []
  | .at _ _ => []

/-- The blocks that statements open one after the other. -/
def allOpenings (inLoop : Bool) : List Stmt → List Opening
  | [] => []
  | s :: rest => s.openings inLoop ++ allOpenings inLoop rest

/-- The blocks that handlers open. -/
def handlersOpenings (inLoop : Bool) : List Handler → List Opening
  | [] => []
  | .at span _ _ body :: rest =>
    part .handler span.firstLine :: (allOpenings inLoop body ++ handlersOpenings inLoop rest)

/-- The blocks that cases open. -/
def casesOpenings (inLoop : Bool) : List Case → List Opening
  | [] => []
  | .of p _ body :: rest =>
    part .body p.span.firstLine :: (allOpenings inLoop body ++ casesOpenings inLoop rest)

end

/-! ## How control enters the blocks that open -/

namespace Fragment

variable {f g : Fragment} {m : BlockId} {os os' : List Opening} {o : Opening}

/-- Control passes to those blocks that do not open right after a jump. -/
def EntersAll (f : Fragment) (m : BlockId) (os : List Opening) : Prop :=
  ∀ (i : Nat) (o : Opening), os[i]? = some o → (f.Enters (m + i) ↔ o.afterJump = false)

theorem entersAll_nil : f.EntersAll m [] := fun i o h => by simp at h

theorem entersAll_cons :
    f.EntersAll m (o :: os) ↔ (f.Enters m ↔ o.afterJump = false) ∧ f.EntersAll (m + 1) os := by
  constructor
  · refine fun h => ⟨by simpa using h 0 o rfl, fun i o' hi => ?_⟩
    have := h (i + 1) o' (by simpa using hi)
    rwa [show m + ((i + 1 : Nat) : Int) = m + 1 + i by lia] at this
  · rintro ⟨hfirst, hrest⟩ i o' hi
    cases i with
    | zero =>
      obtain rfl : o = o' := by simpa using hi
      simpa using hfirst
    | succ i =>
      rw [show m + ((i + 1 : Nat) : Int) = m + 1 + i by lia]
      exact hrest i o' (by simpa using hi)

theorem entersAll_append :
    f.EntersAll m (os ++ os') ↔ f.EntersAll m os ∧ f.EntersAll (m + os.length) os' := by
  induction os generalizing m with
  | nil => simp [entersAll_nil]
  | cons o os ih =>
    rw [List.cons_append, entersAll_cons, entersAll_cons, ih, and_assoc, List.length_cons,
      show m + 1 + (os.length : Int) = m + ((os.length + 1 : Nat) : Int) by lia]

/-- The blocks of a part are entered in a whole as in the part, if nothing else enters
them. -/
theorem EntersAll.of_part (h : g.EntersAll m os) (hopened : g.opened = os.map (·.block))
    (hsame : ∀ a, m ≤ a → a < g.next m → (f.Enters a ↔ g.Enters a)) : f.EntersAll m os := by
  intro i o hi
  have hlt := (List.getElem?_eq_some_iff.1 hi).1
  refine (hsame (m + i) (by lia) ?_).trans (h i o hi)
  rw [next, hopened, List.length_map]
  lia

theorem next_of_opened (hopened : f.opened = os.map (·.block)) (m : BlockId) :
    m + (os.length : Int) = f.next m := by
  rw [next, hopened, List.length_map]

/-! ## How control leaves blocks -/

/-- The ends of the transfers of a fragment. -/
def links (f : Fragment) : List (BlockId × BlockId) := f.transfers.map fun t => (t.source, t.target)

theorem mem_links {a b : BlockId} : (a, b) ∈ f.links ↔ f.Leads a b := by
  simp [links, Leads]

@[simp] theorem links_append : (f ++ g).links = f.links ++ g.links := List.map_append ..

end Fragment

/-- Whether a statement leaves the body. -/
def Code.Stmt.isReturn (s : Stmt) : Bool :=
  match s.form with
  | .ret _ => true
  | _ => false

theorem isReturn_bindingHeader (target : Option Expr) (value : Expr) :
    (bindingHeader target value).isReturn = false := by
  cases target <;> rfl

namespace Fragment

/-- Control leaves no block twice: no two transfers join the same blocks, and a block
where the body is left ends in its only `return` and leads nowhere. -/
structure Clean (f : Fragment) : Prop where
  links : f.links.Nodup
  once : f.returns.Nodup
  nowhere : ∀ a ∈ f.returns, ∀ b, ¬ f.Leads a b
  ending : ∀ a ∈ f.returns, ∃ s ∈ (f.statementsOf a).getLast?, s.isReturn = true
  returned : f.returns = (f.placed.filter fun p => p.2.isReturn).map (·.1)

variable {f g : Fragment}

/-- A fragment without `return`. -/
theorem Clean.of_returns_nil (hreturns : f.returns = []) (hlinks : f.links.Nodup)
    (hplaced : ∀ p ∈ f.placed, p.2.isReturn = false) : f.Clean where
  links := hlinks
  once := by simp [hreturns]
  nowhere := by simp [hreturns]
  ending := by simp [hreturns]
  returned := by
    have hnone : f.placed.filter (fun p => p.2.isReturn) = [] := by simpa using hplaced
    rw [hreturns, hnone, List.map_nil]

/-- A fragment that only opens blocks and passes control between them. -/
theorem Clean.of_placed_nil (hplaced : f.placed = []) (hreturns : f.returns = [])
    (hlinks : f.links.Nodup) : f.Clean :=
  .of_returns_nil hreturns hlinks (by simp [hplaced])

/-- **Joined parts are clean** if they do not lead from a block to the same one, and if
neither touches a block where the other has left the body. -/
theorem Clean.append (hf : f.Clean) (hg : g.Clean) (hlinks : ∀ a b, f.Leads a b → ¬ g.Leads a b)
    (hfg : ∀ a ∈ f.returns, ¬ g.Touches a) (hgf : ∀ a ∈ g.returns, ¬ f.Leaves a) :
    (f ++ g).Clean where
  links := by
    rw [links_append, List.nodup_append]
    refine ⟨hf.links, hg.links, ?_⟩
    rintro ⟨a, b⟩ hab p hp rfl
    exact hlinks a b (mem_links.1 hab) (mem_links.1 hp)
  once := by
    refine List.nodup_append.2 ⟨hf.once, hg.once, ?_⟩
    rintro a ha b hb rfl
    exact hfg a ha (touches_of_mem_returns hb)
  nowhere := by
    intro a ha b hab
    rcases mem_returns_append.1 ha with ha | ha <;> rcases leads_append.1 hab with hab | hab
    · exact hf.nowhere a ha b hab
    · exact hfg a ha hab.touches
    · exact hgf a ha hab.leaves
    · exact hg.nowhere a ha b hab
  ending := by
    intro a ha
    rw [statementsOf_append]
    rcases mem_returns_append.1 ha with ha | ha
    · rw [statementsOf_eq_nil (hfg a ha), List.append_nil]
      exact hf.ending a ha
    · obtain ⟨s, hs, hret⟩ := hg.ending a ha
      exact ⟨s, by simpa [List.getLast?_append] using .inl hs, hret⟩
  returned := by
    show f.returns ++ g.returns = ((f.placed ++ g.placed).filter _).map _
    rw [hf.returned, hg.returned, List.filter_append, List.map_append]

/-- A part is clean behind another one that leaves none of its blocks. -/
theorem Clean.behind (hf : f.Clean) (hg : g.Clean) (h : ∀ a, f.Leaves a → ¬ g.Touches a) :
    (f ++ g).Clean :=
  hf.append hg (fun _ _ hab hg' => h _ hab.leaves hg'.touches)
    (fun _ ha => h _ (leaves_of_mem_returns ha))
    (fun a ha hl => h a hl (touches_of_mem_returns ha))

theorem clean_empty : Clean {} := .of_placed_nil rfl rfl List.nodup_nil

theorem clean_opens (kind : BlockKind) (line : Int) : (opens kind line).Clean :=
  .of_placed_nil rfl rfl List.nodup_nil

theorem clean_passes (a b : BlockId) (kind : TransferKind) (text : Option String) :
    (passes a b kind text).Clean :=
  .of_placed_nil rfl rfl (List.nodup_singleton _)

/-- Control passes on from a block that was not left before. -/
theorem Clean.pass (hf : f.Clean) {a : BlockId} (h : ¬ f.Leaves a) (b : BlockId) (kind : TransferKind)
    (text : Option String) : (f ++ passes a b kind text).Clean :=
  hf.behind (clean_passes ..) fun _ hc ht => h (touches_passes.1 ht ▸ hc)

theorem clean_placing (hf : f.Clean) (hreturns : f.returns = []) (b : BlockId) {statements : List Stmt}
    (h : ∀ s ∈ statements, s.isReturn = false) : (f.placing b statements).Clean := by
  refine .of_returns_nil ((returns_placing ..).trans hreturns) ?_ fun p hp => ?_
  · rw [Fragment.links, (placing_keeps f b statements).2.1]
    exact hf.links
  · rw [placed_placing, List.mem_append] at hp
    rcases hp with hp | hp
    · have hnone : f.placed.filter (fun p => p.2.isReturn) = [] :=
        List.map_eq_nil_iff.1 (hf.returned.symm.trans hreturns)
      simpa using List.filter_eq_nil_iff.1 hnone p hp
    · obtain ⟨s, hs, rfl⟩ := List.mem_map.1 hp
      exact h s hs

end Fragment

namespace Fragment

/-- A part that control leaves: every block that it opens is left, and the body is left
only in these. -/
structure Closed (f : Fragment) (fresh : BlockId) (os : List Opening) : Prop where
  opened : f.opened = os.map (·.block)
  clean : f.Clean
  entered : f.EntersAll fresh os
  left : ∀ a, fresh ≤ a → a < f.next fresh → f.Leaves a
  inside : ∀ a ∈ f.returns, fresh ≤ a

/-- Such a part that is entered from outside only at blocks that it opens. -/
structure Branches (f : Fragment) (fresh : BlockId) (os : List Opening) : Prop
    extends f.Closed fresh os where
  inward : ∀ a b, f.Leads a b → a < fresh → fresh ≤ b

end Fragment

/-- The blocks of a part of a body are opened, entered and left as they should be: all
but the last one are left. -/
structure Tidy (current fresh : BlockId) (laid : Laid) (os : List Opening) : Prop where
  opened : laid.1.opened = os.map (·.block)
  clean : laid.1.Clean
  entered : laid.1.EntersAll fresh os
  left : ∀ a, a = current ∨ (fresh ≤ a ∧ a < laid.1.next fresh) → a ≠ laid.2 → laid.1.Leaves a

/-- A list of statements is tidy wherever it is laid out. -/
def AllTidy (loop : Option Loop) (body : List Stmt) : Prop :=
  ∀ current fresh, Room loop current fresh →
    Tidy current fresh (layOutAll loop current fresh body) (allOpenings loop.isSome body)

variable {loop : Option Loop} {current fresh : BlockId}

/-! ## Joining parts -/

/-- **A body is closed off** behind a start that leaves none of its blocks: control passes on
from its end. -/
theorem Tidy.closedOff {start b : Fragment} {top m last : BlockId} {os : List Opening}
    (hb : Tidy top m (b, last) os) (hlies : Lies loop top m (b, last)) (hstart : start.Clean)
    (hbelow : ∀ a, start.Leaves a → a ≠ top ∧ a < m) (target : BlockId) (kind : TransferKind)
    (text : Option String) : (start ++ b ++ passes last target kind text).Clean := by
  have hout : ∀ a, start.Leaves a → ¬ b.Touches a ∧ a ≠ last := by
    intro a ha
    have htouches := hlies.within.touches a
    have hlast := hlies.last
    have := hbelow a ha
    dsimp only at htouches hlast
    exact ⟨fun ht => by have := htouches ht; lia, by lia⟩
  refine (hstart.behind hb.clean fun a ha => (hout a ha).1).pass (fun hleaves => ?_) target kind text
  rcases leaves_append.1 hleaves with hleaves | hleaves
  · exact (hout last hleaves).2 rfl
  · exact hlies.isOpen hleaves

/-- **A closed part joins those before it** in the outer blocks that both touch. -/
theorem Fragment.Closed.joins {p r : Fragment} {outer entered : BlockId → Prop} {n : BlockId}
    {os : List Opening} (hr : r.Closed n os) (hin : r.Within outer entered n) (hp : p.Clean)
    (hbelow : ∀ a, p.Leaves a → a < n)
    (houter : ∀ a, outer a → a ∉ p.returns ∧ ∀ c, p.Leads a c → ¬ r.Leads a c) : (p ++ r).Clean := by
  have hsplit : ∀ a, p.Leaves a → r.Touches a → outer a := fun a ha ht =>
    (hin.touches a ht).resolve_right fun h => by have := hbelow a ha; lia
  refine hp.append hr.clean (fun a c hac hrac => ?_) (fun a ha ht => ?_) fun a ha hleaves => ?_
  · exact (houter a (hsplit a hac.leaves hrac.touches)).2 c hac hrac
  · exact (houter a (hsplit a (leaves_of_mem_returns ha) ht)).1 ha
  · have := hbelow a hleaves
    have := hr.inside a ha
    lia

/-! ## Simple statements and jumps -/

theorem tidy_places {s : Stmt} (hs : s.isReturn = false) :
    Tidy current fresh (places current s, current) [] where
  opened := rfl
  clean := .of_returns_nil rfl List.nodup_nil (by simpa [places] using hs)
  entered := entersAll_nil
  left := by
    intro a ha hne
    simp at ha
    lia

theorem tidy_nothing : Tidy current fresh ({}, current) [] where
  opened := rfl
  clean := clean_empty
  entered := entersAll_nil
  left := by
    intro a ha hne
    simp at ha
    lia

theorem tidy_ret (span : Span) (value : Option Expr) :
    Tidy current fresh (layOut loop current fresh (.at span (.ret value))) [.jump span.firstLine] where
  opened := rfl
  clean := {
    links := List.nodup_nil
    once := List.nodup_singleton _
    nowhere := by simp [layOut]
    ending := by simp [layOut, statementsOf_places, Stmt.isReturn]
    returned := rfl }
  entered := by
    rw [entersAll_cons]
    exact ⟨by simp [layOut, Opening.jump], entersAll_nil⟩
  left := by
    intro a ha hne
    simp [layOut, next_append] at ha hne ⊢
    lia

theorem tidy_jump (h : Room loop current fresh) {target : BlockId} (htarget : Loop.Ends loop target)
    (kind : TransferKind) (line : Int) :
    Tidy current fresh (passes current target kind ++ opens .body line, fresh) [.jump line] where
  opened := rfl
  clean := .of_placed_nil rfl rfl (List.nodup_singleton _)
  entered := by
    have hlt := h.ends target htarget
    have hne : fresh ≠ target := by lia
    rw [entersAll_cons]
    exact ⟨by simp [Opening.jump, hne], entersAll_nil⟩
  left := by
    intro a ha hne
    simp [next_append] at ha hne ⊢
    lia

/-! ## `else` parts -/

/-- Control passes to an `else` part, or past it, and from it. -/
theorem elsePart_joins (loop : Option Loop) (before after fresh : BlockId) (kind : TransferKind)
    (text : Option String) (orelse : List Stmt) :
    (elsePart loop before after fresh kind text orelse).Leaves before ∧
      (elsePart loop before after fresh kind text orelse).Enters after := by
  cases orelse <;> simp [elsePart]

theorem elsePart_closed {before after : BlockId} (h : Room loop before fresh) (hafter : after < fresh)
    (kind : TransferKind) (text : Option String) {orelse : List Stmt} (horelse : AllTidy loop orelse) :
    (elsePart loop before after fresh kind text orelse).Closed fresh
      (Opening.orElse orelse ++ allOpenings loop.isSome orelse) := by
  cases orelse with
  | nil =>
    refine ⟨rfl, clean_passes .., entersAll_nil, ?_, ?_⟩
    · intro a h1 h2
      simp [elsePart] at h2
      lia
    · intro a ha
      simp [elsePart] at ha
  | cons s rest =>
    have hlt := h.lt
    have hnonneg := h.nonneg
    cases ho : layOutAll loop fresh (fresh + 1) (s :: rest) with
    | mk o last =>
      have hlies := ho ▸ layOutAll_lies loop (s :: rest) fresh (fresh + 1) (by lia)
      have htidy := ho ▸ horelse fresh (fresh + 1) (h.later (by lia) (by lia) (by lia))
      obtain ⟨hot, hoe⟩ := hlies.within
      have hol := hlies.last
      have hoo := hlies.isOpen
      have hopened := htidy.opened
      have hleft := htidy.left
      have hnot := fun a => h.not_ends (a := a)
      have hon := o.le_next (fresh + 1)
      dsimp only at hot hoe hol hoo hopened hleft
      simp only [elsePart, ho]
      refine ⟨?opened, ?clean, ?entered, ?left, ?inside⟩
      case opened => simp [opened_append, hopened, Opening.orElse, Opening.part]
      case clean =>
        have hstart : (opens .body s.span.firstLine ++ passes before fresh kind text).Clean :=
          .of_placed_nil rfl rfl (List.nodup_singleton _)
        refine htidy.closedOff hlies hstart (fun a ha => ?_) after .unconditional none
        simp at ha
        lia
      case entered =>
        have hne : fresh ≠ after := by lia
        simp only [Opening.orElse, List.head?_cons, Option.map_some, Option.toList_some,
          List.singleton_append, entersAll_cons]
        refine ⟨by simp [Opening.part], htidy.entered.of_part hopened fun a h1 h2 => ?_⟩
        simp
        lia
      case left =>
        intro a h1 h2
        simp [next_append] at h2 ⊢
        grind
      case inside =>
        intro a ha
        simp at ha
        grind

/-! ## Statements with parts -/

theorem tidy_ifElse (h : Room loop current fresh) (span : Span) (test : Expr) {body orelse : List Stmt}
    (hbody : AllTidy loop body) (horelse : AllTidy loop orelse) :
    Tidy current fresh (layOut loop current fresh (.at span (.ifElse test body orelse)))
      ((Stmt.at span (.ifElse test body orelse)).openings loop.isSome) := by
  have hlt := h.lt
  have hnonneg := h.nonneg
  have hnot := fun a => h.not_ends (a := a)
  cases hb : layOutAll loop fresh (fresh + 2) body with
  | mk b bodyEnd =>
    have hlies := hb ▸ layOutAll_lies loop body fresh (fresh + 2) (by lia)
    have htidy := hb ▸ hbody fresh (fresh + 2) (h.later (by lia) (by lia) (by lia))
    obtain ⟨hbt, hbe⟩ := hlies.within
    have hbl := hlies.last
    have hbo := hlies.isOpen
    have hopened := htidy.opened
    have hleft := htidy.left
    have hbn := b.le_next (fresh + 2)
    dsimp only at hbt hbe hbl hbo hopened hleft
    rw [layOut_ifElse span test orelse hb]
    have hroom : Room loop current (b.next (fresh + 2)) := h.later hnonneg (by lia) (by lia)
    have howithin := elsePart_within current (fresh + 1) (b.next (fresh + 2)) .whenFalse
      (some (negated (conditionText test))) (layOutAll_lies loop orelse)
    have hoclosed := elsePart_closed hroom (by lia : fresh + 1 < _) .whenFalse
      (some (negated (conditionText test))) horelse
    have hot := howithin.touches
    have hoe := howithin.enters
    have holeft := hoclosed.left
    have hoinside := hoclosed.inside
    have hojoins := elsePart_joins loop current (fresh + 1) (b.next (fresh + 2)) .whenFalse
      (some (negated (conditionText test))) orelse
    generalize elsePart loop current (fresh + 1) (b.next (fresh + 2)) .whenFalse
      (some (negated (conditionText test))) orelse = o at *
    have hon := o.le_next (b.next (fresh + 2))
    refine ⟨?opened, ?clean, ?entered, ?left⟩
    case opened => simp [opened_append, hopened, hoclosed.opened, Stmt.openings, Opening.part]
    case clean =>
      have hstart : (decides ++ places current (testHeader test) ++ turns current .branch
          ++ opens .body (startLine body span.firstLine)
          ++ passes current fresh .whenTrue (some (conditionText test))
          ++ opens .body span.lastLine).Clean := by
        refine .of_returns_nil rfl (List.nodup_singleton _) fun p hp => ?_
        obtain rfl := List.mem_singleton.1 hp
        rfl
      have hthen := htidy.closedOff hlies hstart (fun a ha => ?start) (fresh + 1) .unconditional none
      refine hoclosed.joins howithin hthen (fun a ha => ?below) fun a ha => ?outer
      case start =>
        simp at ha
        lia
      case below =>
        simp at ha
        grind
      case outer =>
        -- control passes from the current block to both branches, which are different blocks
        simp
        grind
    case entered =>
      have hnext : fresh + 1 + 1 = fresh + 2 := by lia
      rw [Stmt.openings, entersAll_cons, entersAll_cons, hnext, entersAll_append,
        next_of_opened hopened]
      refine ⟨by simp [Opening.part], by simp [Opening.part], ?_, ?_⟩
      · refine htidy.entered.of_part hopened fun a h1 h2 => ?_
        simp
        grind
      · refine hoclosed.entered.of_part hoclosed.opened fun a h1 h2 => ?_
        simp
        grind
    case left =>
      intro a ha hne
      simp [next_append, Int.add_assoc] at ha ⊢
      grind

theorem tidy_loop (h : Room loop current fresh) {header : Stmt} (hheader : header.isReturn = false)
    (links : LoopLinks) (span : Span) {body orelse : List Stmt}
    (hbody : ∀ inner, AllTidy (some inner) body) (horelse : AllTidy loop orelse) :
    Tidy current fresh
      (layOutLoop header links span (startLine body span.firstLine)
        (orelse.head?.map (·.span.firstLine)) (fun inner c f => layOutAll (some inner) c f body)
        (fun _ c f => layOutAll loop c f orelse) current fresh)
      (.part .loopHeader span.firstLine :: .part .body span.lastLine ::
        .part .loopBody (startLine body span.firstLine) ::
        (allOpenings true body ++ (Opening.orElse orelse ++ allOpenings loop.isSome orelse))) := by
  have hlt := h.lt
  have hnonneg := h.nonneg
  have hnot := fun a => h.not_ends (a := a)
  have hends : ∀ a, Loop.Ends (some ⟨fresh, fresh + 1⟩) a ↔ a = fresh ∨ a = fresh + 1 := by
    simp [Loop.Ends]
  have hinner : Room (some ⟨fresh, fresh + 1⟩) (fresh + 2) (fresh + 3) :=
    ⟨by lia, by lia, fun a ha => by rw [hends] at ha; lia⟩
  cases hb : layOutAll (some ⟨fresh, fresh + 1⟩) (fresh + 2) (fresh + 3) body with
  | mk b bodyEnd =>
    have hlies :=
      hb ▸ layOutAll_lies (some ⟨fresh, fresh + 1⟩) body (fresh + 2) (fresh + 3) (by lia)
    have htidy := hb ▸ hbody ⟨fresh, fresh + 1⟩ (fresh + 2) (fresh + 3) hinner
    obtain ⟨hbt, hbe⟩ := hlies.within
    have hbl := hlies.last
    have hbo := hlies.isOpen
    have hopened := htidy.opened
    have hentered := htidy.entered
    have hleft := htidy.left
    have hbn := b.le_next (fresh + 3)
    simp only [hends, Option.isSome_some] at hbt hbe hbl hbo hopened hentered hleft
    rw [layOutLoop_eq header links span _ orelse hb]
    have hroom : Room loop fresh (b.next (fresh + 3)) := h.later (by lia) (by lia) (by lia)
    have howithin := elsePart_within fresh (fresh + 1) (b.next (fresh + 3)) links.leave
      links.leaveText (layOutAll_lies loop orelse)
    have hoclosed := elsePart_closed hroom (by lia : fresh + 1 < _) links.leave links.leaveText horelse
    have hot := howithin.touches
    have hoe := howithin.enters
    have holeft := hoclosed.left
    have hoinside := hoclosed.inside
    have hojoins := elsePart_joins loop fresh (fresh + 1) (b.next (fresh + 3)) links.leave
      links.leaveText orelse
    generalize elsePart loop fresh (fresh + 1) (b.next (fresh + 3)) links.leave links.leaveText
      orelse = o at *
    have hon := o.le_next (b.next (fresh + 3))
    refine ⟨?opened, ?clean, ?entered, ?left⟩
    case opened => simp [opened_append, hopened, hoclosed.opened, Opening.part]
    case clean =>
      have hstart : (decides ++ opens .loopHeader span.firstLine ++ passes current fresh .unconditional
          ++ places fresh header ++ opens .body span.lastLine
          ++ opens .loopBody (startLine body span.firstLine)
          ++ passes fresh (fresh + 2) links.enter links.enterText).Clean := by
        refine .of_returns_nil rfl ?_ fun p hp => ?_
        · have hne : current ≠ fresh := by lia
          show List.Nodup [(current, fresh), (fresh, fresh + 2)]
          simp [hne]
        · obtain rfl := List.mem_singleton.1 hp
          exact hheader
      have hturn := htidy.closedOff hlies hstart (fun a ha => ?start) fresh .backEdge none
      refine hoclosed.joins howithin hturn (fun a ha => ?below) fun a ha => ?outer
      case start =>
        simp at ha
        lia
      case below =>
        simp at ha
        grind
      case outer =>
        simp
        grind
    case entered =>
      have hnext : fresh + 1 + 1 = fresh + 2 ∧ fresh + 2 + 1 = fresh + 3 := by lia
      rw [entersAll_cons, entersAll_cons, entersAll_cons, hnext.1, hnext.2, entersAll_append,
        next_of_opened hopened]
      refine ⟨by simp [Opening.part], by simp [Opening.part, hojoins], by simp [Opening.part], ?_, ?_⟩
      · refine hentered.of_part hopened fun a h1 h2 => ?_
        simp
        grind
      · refine hoclosed.entered.of_part hoclosed.opened fun a h1 h2 => ?_
        simp
        grind
    case left =>
      intro a ha hne
      simp [next_append, Int.add_assoc] at ha ⊢
      grind

theorem tidy_with (h : Room loop current fresh) (span : Span) (isAsync : Bool) (items : List WithItem)
    {body : List Stmt} (hbody : AllTidy loop body) :
    Tidy current fresh (layOut loop current fresh (.at span (.withItems isAsync items body)))
      (allOpenings loop.isSome body) := by
  cases hb : layOutAll loop current fresh body with
  | mk b bodyEnd =>
    obtain ⟨hopened, hclean, hentered, hleft⟩ := hb ▸ hbody current fresh h
    dsimp only at hopened hclean hentered hleft
    rw [layOut_withItems span isAsync items hb]
    have hheaders : ∀ s ∈ items.map fun i => bindingHeader i.target i.context, s.isReturn = false := by
      intro s hs
      obtain ⟨i, -, rfl⟩ := List.mem_map.1 hs
      exact isReturn_bindingHeader ..
    refine ⟨by simpa [opened_append] using hopened, ?_, ?_, ?_⟩
    · exact (clean_placing clean_empty rfl current hheaders).behind hclean fun a ha => by simp at ha
    · exact hentered.of_part hopened fun a _ _ => by simp
    · intro a ha hne
      simpa using hleft a (by simpa [next_append] using ha) hne

/-! ## Handlers and cases -/

/-- Handlers are branches wherever they are laid out. -/
def HandlersBranch (loop : Option Loop) (handlers : List Handler) : Prop :=
  ∀ before bodyEnd after fresh, Room loop before fresh → bodyEnd < fresh → before ≠ bodyEnd →
    after < fresh → (layOutHandlers loop before bodyEnd after fresh handlers).Branches fresh
      (handlersOpenings loop.isSome handlers)

theorem handlersBranch_nil : HandlersBranch loop [] := fun _ _ _ _ _ _ _ _ =>
  ⟨⟨rfl, clean_empty, entersAll_nil,
    fun a h1 h2 => by simp [layOutHandlers] at h2; lia, fun a ha => by simp [layOutHandlers] at ha⟩,
    fun a b hab => by simp [layOutHandlers] at hab⟩

theorem handlersBranch_cons (span : Span) (type : Option Expr) (name : Option String)
    {body : List Stmt} {rest : List Handler} (hbody : AllTidy loop body)
    (hrest : HandlersBranch loop rest) : HandlersBranch loop (.at span type name body :: rest) := by
  intro before bodyEnd after fresh h hend hne hafter
  have hlt := h.lt
  have hnonneg := h.nonneg
  have hnot := fun a => h.not_ends (a := a)
  cases hb : layOutAll loop fresh (fresh + 1) body with
  | mk b last =>
    have hlies := hb ▸ layOutAll_lies loop body fresh (fresh + 1) (by lia)
    have htidy := hb ▸ hbody fresh (fresh + 1) (h.later (by lia) (by lia) (by lia))
    obtain ⟨hbt, hbe⟩ := hlies.within
    have hbl := hlies.last
    have hbo := hlies.isOpen
    have hopened := htidy.opened
    have hleft := htidy.left
    have hbn := b.le_next (fresh + 1)
    dsimp only at hbt hbe hbl hbo hopened hleft
    have hrwithin := layOutHandlers_lie loop rest before bodyEnd after (b.next (fresh + 1)) (by lia)
      (by lia)
    have hrbranches := hrest before bodyEnd after (b.next (fresh + 1)) (h.later (by lia) (by lia) (by lia))
      (by lia) hne (by lia)
    have hrt := hrwithin.touches
    have hre := hrwithin.enters
    have hrleft := hrbranches.left
    have hrinside := hrbranches.inside
    have hrinward := hrbranches.inward
    rw [layOutHandlers_cons before bodyEnd after span type name rest hb]
    generalize layOutHandlers loop before bodyEnd after (b.next (fresh + 1)) rest = r at *
    have hrn := r.le_next (b.next (fresh + 1))
    have htouched {a : BlockId} (ht : (placing {} fresh
        (type.map (bindingHeader (name.map (handlerTarget span)))).toList).Touches a) : a = fresh :=
      (touches_placing ht).resolve_right touches_empty
    refine ⟨⟨?opened, ?clean, ?entered, ?left, ?inside⟩, ?inward⟩
    case opened => simp [opened_append, hopened, hrbranches.opened, handlersOpenings, Opening.part]
    case clean =>
      have hstart : (decides ++ opens .handler span.firstLine
          ++ passes before fresh .error (type.map conditionText)
          ++ passes bodyEnd fresh .error (type.map conditionText)).Clean := by
        refine .of_placed_nil rfl rfl ?_
        show List.Nodup [(before, fresh), (bodyEnd, fresh)]
        simp [hne]
      have hheaders : ∀ s ∈ (type.map (bindingHeader (name.map (handlerTarget span)))).toList,
          s.isReturn = false := by
        intro s hs
        obtain ⟨t, -, rfl⟩ := Option.map_eq_some_iff.1 (Option.mem_toList.1 hs)
        exact isReturn_bindingHeader ..
      have hheader := hstart.behind (clean_placing clean_empty rfl fresh hheaders) fun a ha ht => ?headers
      case headers =>
        have := htouched ht
        simp at ha
        lia
      have hhandler := htidy.closedOff hlies hheader (fun a ha => ?start) after .unconditional none
      refine hrbranches.toClosed.joins hrwithin hhandler (fun a ha => ?below) fun a ha => ?outer
      case start =>
        simp at ha
        lia
      case below =>
        simp at ha
        grind
      case outer =>
        simp
        grind
    case entered =>
      rw [handlersOpenings, entersAll_cons, entersAll_append, next_of_opened hopened]
      refine ⟨by simp [Opening.part], ?_, ?_⟩
      · refine htidy.entered.of_part hopened fun a h1 h2 => ?_
        simp
        grind
      · refine hrbranches.entered.of_part hrbranches.opened fun a h1 h2 => ?_
        simp
        grind
    case left =>
      intro a h1 h2
      simp [next_append] at h2 ⊢
      grind
    case inside =>
      intro a ha
      simp at ha
      grind
    case inward =>
      intro a c hac hlt
      simp at hac
      grind

/-- Cases are branches wherever they are laid out. -/
def CasesBranch (loop : Option Loop) (cases : List Case) : Prop :=
  ∀ branch after fresh, Room loop branch fresh → after < fresh →
    (layOutCases loop branch after fresh cases).Branches fresh (casesOpenings loop.isSome cases)

theorem casesBranch_nil : CasesBranch loop [] := fun _ _ _ _ _ =>
  ⟨⟨rfl, clean_empty, entersAll_nil,
    fun a h1 h2 => by simp [layOutCases] at h2; lia, fun a ha => by simp [layOutCases] at ha⟩,
    fun a b hab => by simp [layOutCases] at hab⟩

theorem casesBranch_cons (p : Code.Pattern) (guard : Option Expr) {body : List Stmt} {rest : List Case}
    (hbody : AllTidy loop body) (hrest : CasesBranch loop rest) :
    CasesBranch loop (.of p guard body :: rest) := by
  intro branch after fresh h hafter
  have hlt := h.lt
  have hnonneg := h.nonneg
  have hnot := fun a => h.not_ends (a := a)
  cases hb : layOutAll loop fresh (fresh + 1) body with
  | mk b last =>
    have hlies := hb ▸ layOutAll_lies loop body fresh (fresh + 1) (by lia)
    have htidy := hb ▸ hbody fresh (fresh + 1) (h.later (by lia) (by lia) (by lia))
    obtain ⟨hbt, hbe⟩ := hlies.within
    have hbl := hlies.last
    have hbo := hlies.isOpen
    have hopened := htidy.opened
    have hleft := htidy.left
    have hbn := b.le_next (fresh + 1)
    dsimp only at hbt hbe hbl hbo hopened hleft
    have hrwithin := layOutCases_lie loop rest branch after (b.next (fresh + 1)) (by lia)
    have hrbranches := hrest branch after (b.next (fresh + 1)) (h.later (by lia) (by lia) (by lia))
      (by lia)
    have hrt := hrwithin.touches
    have hre := hrwithin.enters
    have hrleft := hrbranches.left
    have hrinside := hrbranches.inside
    have hrinward := hrbranches.inward
    simp only [layOutCases, hb, next_append, next_decides, next_opens, next_passes]
    generalize layOutCases loop branch after (b.next (fresh + 1)) rest = r at *
    have hrn := r.le_next (b.next (fresh + 1))
    refine ⟨⟨?opened, ?clean, ?entered, ?left, ?inside⟩, ?inward⟩
    case opened => simp [opened_append, hopened, hrbranches.opened, casesOpenings, Opening.part]
    case clean =>
      have hstart : (decides ++ opens .body p.span.firstLine
          ++ passes branch fresh .case (some (patternText p))).Clean :=
        .of_placed_nil rfl rfl (List.nodup_singleton _)
      have hcase := htidy.closedOff hlies hstart (fun a ha => ?start) after .unconditional none
      refine hrbranches.toClosed.joins hrwithin hcase (fun a ha => ?below) fun a ha => ?outer
      case start =>
        simp at ha
        lia
      case below =>
        simp at ha
        grind
      case outer =>
        simp
        grind
    case entered =>
      rw [casesOpenings, entersAll_cons, entersAll_append, next_of_opened hopened]
      refine ⟨by simp [Opening.part], ?_, ?_⟩
      · refine htidy.entered.of_part hopened fun a h1 h2 => ?_
        simp
        grind
      · refine hrbranches.entered.of_part hrbranches.opened fun a h1 h2 => ?_
        simp
        grind
    case left =>
      intro a h1 h2
      simp [next_append] at h2 ⊢
      grind
    case inside =>
      intro a ha
      simp at ha
      grind
    case inward =>
      intro a c hac hlt
      simp at hac
      grind

theorem tidy_match (h : Room loop current fresh) (span : Span) (subject : Expr) {cases : List Case}
    (hcases : CasesBranch loop cases) :
    Tidy current fresh (layOut loop current fresh (.at span (.matchCases subject cases)))
      (.part .body span.lastLine :: casesOpenings loop.isSome cases) := by
  have hlt := h.lt
  have hnonneg := h.nonneg
  have hnot := fun a => h.not_ends (a := a)
  obtain ⟨hct, hce⟩ := layOutCases_lie loop cases current fresh (fresh + 1) (by lia)
  obtain ⟨⟨hopened, hclean, hentered, hleft, hinside⟩, hinward⟩ :=
    hcases current fresh (fresh + 1) (h.later (by lia) (by lia) (by lia)) (by lia)
  simp only [layOut]
  generalize layOutCases loop current fresh (fresh + 1) cases = c at *
  have hcn := c.le_next (fresh + 1)
  refine ⟨?opened, ?clean, ?entered, ?left⟩
  case opened => simp [opened_append, hopened, Opening.part]
  case clean =>
    have hstart : (places current (testHeader subject) ++ turns current .branch
        ++ opens .body span.lastLine).Clean := by
      refine .of_returns_nil rfl List.nodup_nil fun p hp => ?_
      obtain rfl := List.mem_singleton.1 hp
      rfl
    refine (hstart.behind hclean fun a ha => by simp at ha).append (clean_passes ..)
      (fun a b hab hpass => ?links) (fun a ha ht => ?returned) fun a ha => by simp at ha
    case links =>
      simp at hab hpass
      grind
    case returned =>
      simp at ha ht
      grind
  case entered =>
    rw [entersAll_cons]
    refine ⟨by simp [Opening.part], hentered.of_part hopened fun a h1 h2 => ?_⟩
    simp
    lia
  case left =>
    intro a ha hne
    simp [next_append] at ha ⊢
    grind

theorem tidy_try (h : Room loop current fresh) (span : Span) (isGroup : Bool) {body : List Stmt}
    {handlers : List Handler} {orelse finalbody : List Stmt} (hbody : AllTidy loop body)
    (hhandlers : HandlersBranch loop handlers) (horelse : AllTidy loop orelse)
    (hfinal : AllTidy loop finalbody) :
    Tidy current fresh
      (layOut loop current fresh (.at span (.tryBlock isGroup body handlers orelse finalbody)))
      ((Stmt.at span (.tryBlock isGroup body handlers orelse finalbody)).openings loop.isSome) := by
  have hlt := h.lt
  have hnonneg := h.nonneg
  have hnot := fun a => h.not_ends (a := a)
  cases hb : layOutAll loop fresh (fresh + 1) body with
  | mk b bodyEnd =>
    obtain ⟨⟨hbt, hbe⟩, hbl, hbo⟩ := hb ▸ layOutAll_lies loop body fresh (fresh + 1) (by lia)
    obtain ⟨hopened, hclean, hentered, hleft⟩ :=
      hb ▸ hbody fresh (fresh + 1) (h.later (by lia) (by lia) (by lia))
    have hbn := b.le_next (fresh + 1)
    dsimp only at hbt hbe hbl hbo hopened hclean hentered hleft
    generalize hafter : b.next (fresh + 1) = after at *
    rw [layOut_tryBlock span isGroup handlers orelse finalbody hb hafter]
    dsimp only
    have hhwithin := layOutHandlers_lie loop handlers current bodyEnd after (after + 1) (by lia) (by lia)
    have hhbranches := hhandlers current bodyEnd after (after + 1) (h.later (by lia) (by lia) (by lia))
      (by lia) (by lia) (by lia)
    have hht := hhwithin.touches
    have hhe := hhwithin.enters
    have hhleft := hhbranches.left
    have hhinside := hhbranches.inside
    have hhinward := hhbranches.inward
    generalize layOutHandlers loop current bodyEnd after (after + 1) handlers = hs at *
    have hhn := hs.le_next (after + 1)
    have howithin := elsePart_within bodyEnd after (hs.next (after + 1)) .unconditional none
      (layOutAll_lies loop orelse)
    have hoclosed := elsePart_closed
      (h.later (by lia) (by lia) (by lia) : Room loop bodyEnd (hs.next (after + 1)))
      (by lia : after < _) .unconditional none horelse
    have hot := howithin.touches
    have hoe := howithin.enters
    have holeft := hoclosed.left
    have hoinside := hoclosed.inside
    have hojoins := elsePart_joins loop bodyEnd after (hs.next (after + 1)) .unconditional
      none orelse
    generalize elsePart loop bodyEnd after (hs.next (after + 1)) .unconditional none orelse = o at *
    have hon := o.le_next (hs.next (after + 1))
    cases hf : layOutAll loop after (o.next (hs.next (after + 1))) finalbody with
    | mk f finalEnd =>
      obtain ⟨⟨hft, hfe⟩, hfl, hfo⟩ :=
        hf ▸ layOutAll_lies loop finalbody after (o.next (hs.next (after + 1))) (by lia)
      obtain ⟨hfopened, hfclean, hfentered, hfleft⟩ :=
        hf ▸ hfinal after (o.next (hs.next (after + 1))) (h.later (by lia) (by lia) (by lia))
      have hfn := f.le_next (o.next (hs.next (after + 1)))
      dsimp only at hft hfe hfl hfo hfopened hfclean hfentered hfleft
      dsimp only
      refine ⟨?opened, ?clean, ?entered, ?left⟩
      case opened =>
        simp [opened_append, hopened, hhbranches.opened, hoclosed.opened, hfopened, Stmt.openings, Opening.part]
      case clean =>
        have hstart : (opens .body (startLine body span.firstLine)
            ++ passes current fresh .unconditional).Clean :=
          .of_placed_nil rfl rfl (List.nodup_singleton _)
        have htry := (hstart.behind hclean fun a ha ht => ?body).behind
          (clean_opens .body span.lastLine) fun a _ ht => by simp at ht
        have hhandled := hhbranches.toClosed.joins hhwithin htry (fun a ha => ?tryBelow)
          fun a ha => ?tryOuter
        have hjoined := hoclosed.joins howithin hhandled (fun a ha => ?handledBelow)
          fun a ha => ?handledOuter
        refine hjoined.behind hfclean fun a ha ht => ?final
        case body =>
          simp at ha
          grind
        case tryBelow =>
          simp at ha
          grind
        case tryOuter =>
          simp
          grind
        case handledBelow =>
          simp at ha
          grind
        case handledOuter =>
          simp
          grind
        case final =>
          have hin := hft a ht
          simp at ha
          rcases ha with ((rfl | ha) | ha) | ha
          · lia
          · have := hbt a ha.touches
            lia
          · have := hht a ha.touches
            lia
          · have := hot a ha.touches
            lia
      case entered =>
        rw [Stmt.openings, entersAll_cons, entersAll_append, next_of_opened hopened, hafter,
          entersAll_cons, entersAll_append, next_of_opened hhbranches.opened, entersAll_append,
          next_of_opened hoclosed.opened]
        refine ⟨by simp [Opening.part], ?_, by simp [Opening.part, hojoins], ?_, ?_, ?_⟩
        · refine hentered.of_part hopened fun a h1 h2 => ?_
          simp
          grind
        · refine hhbranches.entered.of_part hhbranches.opened fun a h1 h2 => ?_
          simp
          grind
        · refine hoclosed.entered.of_part hoclosed.opened fun a h1 h2 => ?_
          simp
          grind
        · refine hfentered.of_part hfopened fun a h1 h2 => ?_
          simp
          grind
      case left =>
        intro a ha hne
        simp [next_append, hafter] at ha ⊢
        grind

/-! ## Bodies -/

theorem allTidy_nil : AllTidy loop [] := fun _ _ _ => tidy_nothing

theorem allTidy_cons {s : Stmt} {rest : List Stmt}
    (hs : ∀ current fresh, Room loop current fresh →
      Tidy current fresh (layOut loop current fresh s) (s.openings loop.isSome))
    (hrest : AllTidy loop rest) : AllTidy loop (s :: rest) := by
  intro current fresh h
  have hlt := h.lt
  have hnonneg := h.nonneg
  have hnot := fun a => h.not_ends (a := a)
  cases hf : layOut loop current fresh s with
  | mk f mid =>
    obtain ⟨⟨hft, hfe⟩, hfl, hfo⟩ := hf ▸ layOut_lies loop s current fresh hlt
    obtain ⟨hfopened, hfclean, hfentered, hfleft⟩ := hf ▸ hs current fresh h
    have hfn := f.le_next fresh
    dsimp only at hft hfe hfl hfo hfopened hfclean hfentered hfleft
    cases hg : layOutAll loop mid (f.next fresh) rest with
    | mk g last =>
      obtain ⟨⟨hgt, hge⟩, hgl, hgo⟩ := hg ▸ layOutAll_lies loop rest mid (f.next fresh) (by lia)
      obtain ⟨hgopened, hgclean, hgentered, hgleft⟩ :=
        hg ▸ hrest mid (f.next fresh) (h.later (by lia) (by lia) hfn)
      have hgn := g.le_next (f.next fresh)
      dsimp only at hgt hge hgl hgo hgopened hgclean hgentered hgleft
      simp only [layOutAll, hf, hg]
      refine ⟨?opened, ?clean, ?entered, ?left⟩
      case opened => simp [opened_append, hfopened, hgopened, allOpenings]
      case clean =>
        exact hfclean.behind hgclean fun a ha ht => by grind
      case entered =>
        rw [allOpenings, entersAll_append, next_of_opened hfopened]
        refine ⟨hfentered.of_part hfopened fun a h1 h2 => ?_,
          hgentered.of_part hgopened fun a h1 h2 => ?_⟩
        · simp
          grind
        · simp
          grind
      case left =>
        intro a ha hne
        simp [next_append] at ha ⊢
        grind

mutual

/-- **A statement is tidy where it is laid out**, whatever its form. -/
theorem layOut_tidy (loop : Option Loop) : ∀ (s : Stmt) (current fresh : BlockId),
    Room loop current fresh → Tidy current fresh (layOut loop current fresh s) (s.openings loop.isSome)
  | .at span form, current, fresh, h => by
    cases form with
    | ifElse test body orelse =>
      exact tidy_ifElse h span test (layOutAll_tidy loop body) (layOutAll_tidy loop orelse)
    | whileLoop test body orelse =>
      simp only [layOut, Stmt.openings]
      exact tidy_loop h rfl _ span (fun inner => layOutAll_tidy (some inner) body)
        (layOutAll_tidy loop orelse)
    | forLoop isAsync target iter body orelse =>
      simp only [layOut, Stmt.openings]
      exact tidy_loop h rfl _ span (fun inner => layOutAll_tidy (some inner) body)
        (layOutAll_tidy loop orelse)
    | withItems isAsync items body => exact tidy_with h span isAsync items (layOutAll_tidy loop body)
    | tryBlock isGroup body handlers orelse finalbody =>
      exact tidy_try h span isGroup (layOutAll_tidy loop body) (layOutHandlers_branch loop handlers)
        (layOutAll_tidy loop orelse) (layOutAll_tidy loop finalbody)
    | matchCases subject cases => exact tidy_match h span subject (layOutCases_branches loop cases)
    | ret value => exact tidy_ret span value
    | breakLoop =>
      cases loop with
      | none => exact tidy_nothing
      | some l => exact tidy_jump h ⟨l, rfl, .inr rfl⟩ .breakOut span.firstLine
    | continueLoop =>
      cases loop with
      | none => exact tidy_nothing
      | some l => exact tidy_jump h ⟨l, rfl, .inl rfl⟩ .continueLoop span.firstLine
    | _ => exact tidy_places rfl

theorem layOutAll_tidy (loop : Option Loop) : ∀ body : List Stmt, AllTidy loop body
  | [] => allTidy_nil
  | s :: rest => allTidy_cons (layOut_tidy loop s) (layOutAll_tidy loop rest)

theorem layOutHandlers_branch (loop : Option Loop) : ∀ handlers : List Handler,
    HandlersBranch loop handlers
  | [] => handlersBranch_nil
  | .at span type name body :: rest =>
    handlersBranch_cons span type name (layOutAll_tidy loop body) (layOutHandlers_branch loop rest)

theorem layOutCases_branches (loop : Option Loop) : ∀ cases : List Case, CasesBranch loop cases
  | [] => casesBranch_nil
  | .of p guard body :: rest =>
    casesBranch_cons p guard (layOutAll_tidy loop body) (layOutCases_branches loop rest)

end

end Reaching
