/-
Which rules matter to an analysis.

At a call only the rules for its name are looked up, and what they mark is only asked for
membership. So the names that the calls of a statement change depend on the set of rules
for the functions it calls, not on their order or number, and not on other rules
(`Code.Stmt.effect_congr`). The calls under the statements of a graph are calls of the body
(`Code.Stmt.calls_pieces`), so the same holds of a whole analysis. Of two lists of rules put
together, each changes what it changes by itself (`mem_mutationDefinitions_merge`).
-/
import Reaching.Proofs.Exactness
import Reaching.Proofs.Names

namespace Reaching

open Code

/-! ## Calls -/

/-- The name by which a node calls a function, if it does. -/
def Code.Node.called? : Node → Option String
  | .expr (.at _ (.call callee _ _)) => calleeName? callee
  | _ => none

/-- The names of the functions that are called under a node. -/
def Code.Node.calls (n : Node) : List String := n.breadthFirst.filterMap Node.called?

/-- The names of the functions that are called under some nodes. -/
def callsUnder (nodes : List Node) : List String := nodes.flatMap Node.calls

@[simp] theorem callsUnder_nil : callsUnder [] = [] := rfl

@[simp] theorem callsUnder_cons (n : Node) (nodes : List Node) :
    callsUnder (n :: nodes) = n.calls ++ callsUnder nodes := rfl

@[simp] theorem callsUnder_append (nodes others : List Node) :
    callsUnder (nodes ++ others) = callsUnder nodes ++ callsUnder others := List.flatMap_append

/-- The nodes under a child are under its parent. -/
theorem Code.Node.breadthFirst_subset {n c : Node} (h : c ∈ n.children) :
    c.breadthFirst ⊆ n.breadthFirst := by
  intro m hm
  rw [breadthFirst_eq n]
  exact List.mem_cons_of_mem _ ((levels_perm n.children).mem_iff.2 (List.mem_flatMap.2 ⟨c, h, hm⟩))

theorem Code.Node.mem_calls {n m : Node} {name : String} (hm : m ∈ n.breadthFirst)
    (hcall : m.called? = some name) : name ∈ n.calls :=
  List.mem_filterMap.2 ⟨m, hm, hcall⟩

/-- **The calls under a node** are its own one and those under its children. -/
theorem Code.Node.mem_calls_iff {n : Node} {name : String} :
    name ∈ n.calls ↔ n.called? = some name ∨ name ∈ callsUnder n.children := by
  have hperm := ((levels_perm n.children).filterMap Node.called?).mem_iff (a := name)
  rw [List.filterMap_flatMap] at hperm
  rw [calls, breadthFirst_eq n, List.filterMap_cons]
  cases n.called? with
  | none =>
    simp only [reduceCtorEq, false_or]
    exact hperm
  | some own =>
    rw [List.mem_cons, Option.some.injEq, eq_comm]
    exact or_congr_right hperm

/-- A walk meets only nodes under its root. -/
theorem Code.Node.mem_breadthFirst_of_mem_visitsFrom {n : Node} {above : List Node} {path : List Nat}
    {v : Visit} (h : v ∈ n.visitsFrom above path) : v.node ∈ n.breadthFirst := by
  rw [visitsFrom, List.mem_cons, List.mem_flatMap] at h
  rcases h with rfl | ⟨⟨⟨c, hc⟩, i⟩, -, hv⟩
  · rw [breadthFirst_eq]
    exact List.mem_cons_self ..
  · exact breadthFirst_subset hc (mem_breadthFirst_of_mem_visitsFrom hv)
termination_by sizeOf n
decreasing_by exact sizeOf_lt_of_mem_children hc

/-! ## Marks -/

/-- Two lists of rules have the same rules for some functions. -/
def Rules.AgreeOn (names : List String) (a b : Rules) : Prop :=
  ∀ rule : Rule, rule.function ∈ names.map Text.ofString → (rule ∈ a.list ↔ rule ∈ b.list)

theorem Rules.AgreeOn.mono {names others : List String} {a b : Rules} (h : Rules.AgreeOn names a b)
    (hsub : others ⊆ names) : Rules.AgreeOn others a b :=
  fun rule hrule => h rule (List.map_subset _ hsub hrule)

theorem Rules.mem_marks {rules : Rules} {callee : Expr} {arguments : List Expr}
    {keywords : List Keyword} {m : List Nat} :
    m ∈ rules.marks callee arguments keywords ↔ ∃ rule ∈ rules.list,
      (calleeName? callee).map Text.ofString = some rule.function ∧ m ∈ rule.marks callee arguments keywords := by
  unfold Rules.marks
  cases calleeName? callee with
  | none => simp
  | some name => simp [Rules.named, and_assoc, eq_comm]

/-- **What a visit marks** depends on the rules for the function that its node calls. -/
theorem Code.Visit.mem_marks_congr {a b : Rules} {v : Visit}
    (h : ∀ name, v.node.called? = some name → Rules.AgreeOn [name] a b) (m : List Nat) :
    m ∈ v.marks a ↔ m ∈ v.marks b := by
  unfold Visit.marks
  split
  · rename_i span callee arguments keywords hnode
    have hsame : ∀ rule : Rule, (calleeName? callee).map Text.ofString = some rule.function →
        (rule ∈ a.list ↔ rule ∈ b.list) := by
      intro rule hrule
      obtain ⟨name, hname, hfunction⟩ := Option.map_eq_some_iff.1 hrule
      exact h name (by rw [hnode]; exact hname) rule (List.mem_singleton.2 hfunction.symm)
    have hmarks : ∀ k, k ∈ a.marks callee arguments keywords ↔ k ∈ b.marks callee arguments keywords := by
      intro k
      rw [Rules.mem_marks, Rules.mem_marks]
      exact exists_congr fun rule => and_congr_left fun hk => hsame rule hk.1
    simp only [List.mem_map, hmarks]
  · rfl

/-- Of two lists of rules put together each marks what it marks by itself. -/
theorem Code.Visit.mem_marks_merge {a b : Rules} {v : Visit} (m : List Nat) :
    m ∈ v.marks (a.merge b) ↔ m ∈ v.marks a ∨ m ∈ v.marks b := by
  unfold Visit.marks
  split
  · have hmarks : ∀ callee arguments keywords k, k ∈ (a.merge b).marks callee arguments keywords ↔
        k ∈ a.marks callee arguments keywords ∨ k ∈ b.marks callee arguments keywords := by
      intro callee arguments keywords k
      simp only [Rules.mem_marks, Rules.merge, List.mem_append, or_and_right, exists_or]
    simp only [List.mem_map, hmarks, or_and_right, exists_or]
  · simp

theorem Code.Visit.isMarked_congr {marks others : List (List Nat)} {v : Visit}
    (h : ∀ m, m ∈ marks ↔ m ∈ others) : v.isMarked marks = v.isMarked others := by
  rw [Bool.eq_iff_iff]
  simp only [isMarked, List.any_eq_true, h]

/-! ## Names that calls change -/

/-- **The names met on a walk that calls change** are the same, one by one, if the same marks
are there at the start and are added at every visit. -/
theorem markedNames_congr {a b : Rules} {visits : List Visit} :
    ∀ {marks others : List (List Nat)}, (∀ v ∈ visits, ∀ m, m ∈ v.marks a ↔ m ∈ v.marks b) →
      (∀ m, m ∈ marks ↔ m ∈ others) → markedNames a marks visits = markedNames b others visits := by
  induction visits with
  | nil => intro _ _ _ _; rfl
  | cons v rest ih =>
    intro marks others hvisits hmarks
    have hv := hvisits v (List.mem_cons_self ..)
    have hrest : markedNames a (marks ++ v.marks a) rest = markedNames b (others ++ v.marks b) rest := by
      refine ih (fun w hw => hvisits w (List.mem_cons_of_mem _ hw)) fun m => ?_
      rw [List.mem_append, List.mem_append, hmarks, hv]
    rw [markedNames, markedNames, hrest, Visit.isMarked_congr hmarks]

/-- A name is marked by two lists of rules put together just when it is by one of them. -/
theorem mem_markedNames_merge {a b : Rules} {visits : List Visit} {r : Reference} :
    ∀ {marks others both : List (List Nat)}, (∀ m, m ∈ both ↔ m ∈ marks ∨ m ∈ others) →
      (r ∈ markedNames (a.merge b) both visits ↔
        r ∈ markedNames a marks visits ∨ r ∈ markedNames b others visits) := by
  induction visits with
  | nil => intro _ _ _ _; simp [markedNames]
  | cons v rest ih =>
    intro marks others both hboth
    have hrest := @ih (marks ++ v.marks a) (others ++ v.marks b) (both ++ v.marks (a.merge b)) fun m => by
      simp only [List.mem_append, hboth, Visit.mem_marks_merge, or_assoc, or_left_comm]
    have hmarked : v.isMarked both = true ↔ v.isMarked marks = true ∨ v.isMarked others = true := by
      simp only [Visit.isMarked, List.any_eq_true, hboth, or_and_right, exists_or]
    simp only [markedNames, List.mem_append, hrest]
    cases v.node.name? with
    | none => simp
    | some name =>
      by_cases hm : v.isMarked marks = true <;> by_cases ho : v.isMarked others = true <;>
        simp [hmarked, hm, ho, or_assoc, or_left_comm]

/-- A definition that the calls in a statement make. -/
def Code.Stmt.mutation (s : Stmt) (r : Reference) : Definition :=
  { name := r.name, span := r.span, kind := .mutation, owner := s }

/-- **The definitions that calls make** are those of the names that they change. -/
theorem mem_mutationDefinitions {rules : Rules} {s : Stmt} {d : Definition} :
    d ∈ mutationDefinitions rules s ↔
      ∃ r ∈ markedNames rules [] (Node.stmt s).visits, d = s.mutation r := by
  have hmem : ∀ {d}, d ∈ mutationDefinitions rules s →
      ∃ r ∈ markedNames rules [] (Node.stmt s).visits, d = s.mutation r := by
    intro d hd
    obtain ⟨r, hr, rfl⟩ := List.mem_map.1 ((Definitions.mem_of_mem_union hd).resolve_left List.not_mem_nil)
    exact ⟨r, hr, rfl⟩
  refine ⟨hmem, ?_⟩
  rintro ⟨r, hr, rfl⟩
  -- a definition of the same identity is there, and it is made of the same name
  have hid : r ∈ (mutationDefinitions rules s).identities :=
    Definitions.mem_identities_union.2 (.inr (List.mem_map.2 ⟨_, List.mem_map_of_mem hr, rfl⟩))
  obtain ⟨d, hd, hdr⟩ := List.mem_map.1 hid
  obtain ⟨r', -, rfl⟩ := hmem hd
  obtain rfl : r' = r := hdr
  exact hd

/-- **Of two lists of rules put together each changes what it changes by itself**, in every
statement. -/
theorem mem_mutationDefinitions_merge (a b : Rules) (s : Stmt) (d : Definition) :
    d ∈ mutationDefinitions (a.merge b) s ↔ d ∈ mutationDefinitions a s ∨ d ∈ mutationDefinitions b s := by
  simp only [mem_mutationDefinitions, ← exists_or, ← or_and_right]
  refine exists_congr fun r => and_congr_left fun _ => mem_markedNames_merge fun m => ?_
  simp

/-! ## Statements -/

/-- **What a statement does depends on the rules for the functions it calls**, as a set. -/
theorem Code.Stmt.effect_congr {a b : Rules} {s : Stmt} (h : Rules.AgreeOn (Node.stmt s).calls a b) :
    s.effect a = s.effect b := by
  have hvisits : ∀ v ∈ (Node.stmt s).visits, ∀ m, m ∈ v.marks a ↔ m ∈ v.marks b := by
    intro v hv
    refine Visit.mem_marks_congr fun name hname => h.mono ?_
    have hcall := Node.mem_calls (Node.mem_breadthFirst_of_mem_visitsFrom hv) hname
    exact List.cons_subset.2 ⟨hcall, List.nil_subset _⟩
  have hmutations : mutationDefinitions a s = mutationDefinitions b s := by
    rw [mutationDefinitions, mutationDefinitions, markedNames_congr hvisits fun _ => Iff.rfl]
  simp only [Stmt.effect, Stmt.definitions, hmutations]

/-! ## Bodies -/

section Pieces

variable {name : String}

@[simp] theorem Code.Node.mem_calls_stmt (span : Span) (form : StmtForm) :
    name ∈ (Node.stmt (.at span form)).calls ↔ name ∈ callsUnder form.children := by
  simp [Node.mem_calls_iff, Node.called?, Node.children]

@[simp] theorem Code.Node.mem_calls_handler (h : Handler) :
    name ∈ (Node.handler h).calls ↔ name ∈ callsUnder (Node.handler h).children := by
  simp [Node.mem_calls_iff, Node.called?]

@[simp] theorem Code.Node.mem_calls_case (c : Case) :
    name ∈ (Node.case c).calls ↔ name ∈ callsUnder (Node.case c).children := by
  simp [Node.mem_calls_iff, Node.called?]

@[simp] theorem Code.Node.mem_calls_withItem (i : WithItem) :
    name ∈ (Node.withItem i).calls ↔ name ∈ callsUnder (Node.withItem i).children := by
  simp [Node.mem_calls_iff, Node.called?]

/-- A header calls what its target and its value call. -/
theorem mem_calls_bindingHeader (target : Option Expr) (value : Expr) :
    name ∈ (Node.stmt (bindingHeader target value)).calls ↔
      name ∈ callsUnder (target.toList.map .expr) ∨ name ∈ (Node.expr value).calls := by
  cases target <;> simp [bindingHeader, testHeader, StmtForm.children]

/-- The name that a handler binds calls nothing. -/
theorem calls_handlerTarget (span : Span) (word : Option String) :
    callsUnder ((word.map (handlerTarget span)).toList.map .expr) = [] := by
  refine List.eq_nil_iff_forall_not_mem.2 fun n hn => ?_
  cases word <;>
    simp [handlerTarget, Node.mem_calls_iff, Node.called?, Node.children, ExprForm.children] at hn

/-- The binding of a parameter calls nothing. -/
theorem calls_parameterBinding (p : Parameter) : (Node.stmt (parameterBinding p)).calls = [] := by
  refine List.eq_nil_iff_forall_not_mem.2 fun n hn => ?_
  simp [parameterBinding, Node.mem_calls_iff, Node.called?, Node.children, ExprForm.children,
    StmtForm.children] at hn

theorem calls_itemHeaders : ∀ items : List WithItem,
    name ∈ callsUnder ((itemHeaders items).map .stmt) → name ∈ callsUnder (items.map .withItem)
  | [], h => h
  | ⟨context, target⟩ :: rest, h => by
    have hheader : itemHeaders (⟨context, target⟩ :: rest) = bindingHeader target context :: itemHeaders rest :=
      rfl
    rw [hheader, List.map_cons, callsUnder_cons, List.mem_append] at h
    rw [List.map_cons, callsUnder_cons, List.mem_append]
    refine h.imp (fun h => ?_) (calls_itemHeaders rest)
    simpa [Node.children, or_comm] using (mem_calls_bindingHeader target context).1 h

mutual

/-- **The calls under the pieces of a statement are calls under the statement.** -/
theorem Code.Stmt.calls_pieces : ∀ s : Stmt,
    name ∈ callsUnder (s.pieces.map .stmt) → name ∈ (Node.stmt s).calls
  | .at span form, h => by
    cases form with
    | ifElse test body orelse =>
      simp only [Stmt.pieces, testHeader, StmtForm.children, List.map_cons, List.map_append, callsUnder_nil,
        callsUnder_cons, callsUnder_append, List.append_nil, List.mem_append, Node.mem_calls_stmt] at h ⊢
      exact h.imp_right fun h => h.imp (calls_allPieces body) (calls_allPieces orelse)
    | whileLoop test body orelse =>
      simp only [Stmt.pieces, testHeader, StmtForm.children, List.map_cons, List.map_append, callsUnder_nil,
        callsUnder_cons, callsUnder_append, List.append_nil, List.mem_append, Node.mem_calls_stmt] at h ⊢
      exact h.imp_right fun h => h.imp (calls_allPieces body) (calls_allPieces orelse)
    | forLoop isAsync target iter body orelse =>
      simp only [Stmt.pieces, StmtForm.children, Option.toList_some, List.map_nil, List.map_cons,
        List.map_append, callsUnder_nil, callsUnder_cons, callsUnder_append, List.append_nil, List.mem_append,
        mem_calls_bindingHeader, Node.mem_calls_stmt, or_assoc] at h ⊢
      exact h.imp_right fun h => h.imp_right fun h => h.imp (calls_allPieces body) (calls_allPieces orelse)
    | withItems isAsync items body =>
      simp only [Stmt.pieces, StmtForm.children, List.map_append, callsUnder_append, List.mem_append,
        Node.mem_calls_stmt] at h ⊢
      exact h.imp (calls_itemHeaders items) (calls_allPieces body)
    | tryBlock isGroup body handlers orelse finalbody =>
      simp only [Stmt.pieces, StmtForm.children, List.append_assoc, List.map_append, callsUnder_append,
        List.mem_append, Node.mem_calls_stmt] at h ⊢
      exact h.imp (calls_allPieces body) fun h => h.imp (calls_handlersPieces handlers) fun h =>
        h.imp (calls_allPieces orelse) (calls_allPieces finalbody)
    | matchCases subject cases =>
      simp only [Stmt.pieces, testHeader, StmtForm.children, List.map_cons, callsUnder_nil, callsUnder_cons,
        List.append_nil, List.mem_append, Node.mem_calls_stmt] at h ⊢
      exact h.imp_right (calls_casesPieces cases)
    | breakLoop => simp [Stmt.pieces] at h
    | continueLoop => simp [Stmt.pieces] at h
    | _ => simpa [Stmt.pieces] using h

theorem calls_allPieces : ∀ body : List Stmt,
    name ∈ callsUnder ((allPieces body).map .stmt) → name ∈ callsUnder (body.map .stmt)
  | [], h => h
  | s :: rest, h => by
    simp only [allPieces, List.map_cons, List.map_append, callsUnder_cons, callsUnder_append,
      List.mem_append] at h ⊢
    exact h.imp s.calls_pieces (calls_allPieces rest)

theorem calls_handlersPieces : ∀ handlers : List Handler,
    name ∈ callsUnder ((handlersPieces handlers).map .stmt) → name ∈ callsUnder (handlers.map .handler)
  | [], h => h
  | .at span type word body :: rest, h => by
    have hheader : name ∈ callsUnder
        ((type.map (bindingHeader (word.map (handlerTarget span)))).toList.map .stmt) →
          name ∈ callsUnder (type.toList.map .expr) := by
      intro h
      cases type with
      | none => exact h
      | some t => simpa [mem_calls_bindingHeader, calls_handlerTarget] using h
    simp only [handlersPieces, Node.children, List.map_cons, List.map_append, callsUnder_cons, callsUnder_append,
      List.mem_append, Node.mem_calls_handler] at h ⊢
    exact h.imp (fun h => h.imp hheader (calls_allPieces body)) (calls_handlersPieces rest)

theorem calls_casesPieces : ∀ cases : List Case,
    name ∈ callsUnder ((casesPieces cases).map .stmt) → name ∈ callsUnder (cases.map .case)
  | [], h => h
  | .of p guard body :: rest, h => by
    simp only [casesPieces, Node.children, List.map_cons, List.map_append, callsUnder_cons, callsUnder_append,
      List.mem_append, Node.mem_calls_case] at h ⊢
    exact h.imp (fun h => .inr (.inr (calls_allPieces body h))) (calls_casesPieces rest)

end

end Pieces

/-! ## Graphs -/

/-- **What the blocks of a body do depends on the rules for the functions that are called
in the body**, as a set. -/
theorem Graph.sites_congr (name : String) (line : Int) (parameters : List Parameter) (body : List Stmt)
    {a b : Rules} (h : Rules.AgreeOn (callsUnder (body.map .stmt)) a b) :
    (Graph.ofBody name line (parameters.map parameterBinding) body).sites a =
      (Graph.ofBody name line (parameters.map parameterBinding) body).sites b := by
  have hholds := Graph.ofBody_holdsBody name line (parameters.map parameterBinding) body
  -- every statement is the binding of a parameter or a piece of the body
  have hcalls : ∀ block ∈ (Graph.ofBody name line (parameters.map parameterBinding) body).blocks,
      ∀ s, some s ∈ block.statements → (Node.stmt s).calls ⊆ callsUnder (body.map .stmt) := by
    intro block hblock s hs word hword
    have hmem := hholds.once.mem_iff.1 (List.mem_flatMap.2 ⟨block, hblock, hs⟩)
    obtain ⟨s', hs', hsome⟩ := List.mem_map.1 hmem
    obtain rfl : s' = s := Option.some.inj hsome
    rcases List.mem_append.1 hs' with hbinding | hpiece
    · obtain ⟨p, -, rfl⟩ := List.mem_map.1 hbinding
      simp [calls_parameterBinding] at hword
    · exact calls_allPieces body (List.mem_flatMap.2 ⟨_, List.mem_map_of_mem hpiece, hword⟩)
  refine List.map_congr_left fun block hblock => ?_
  have heffects : block.statements.map (Effect.of a) = block.statements.map (Effect.of b) := by
    refine List.map_congr_left fun s hs => ?_
    cases s with
    | none => rfl
    | some s => exact Stmt.effect_congr (h.mono (hcalls block hblock s hs))
  rw [heffects]

/-- **Only the set of rules for called functions matters.** Two lists of rules that have the
same rules for the functions that are called in a body, in any order, any number of times and
with any rules for other functions, lead to the same analysis of the body: the same edges, and
for every block the same definitions with their kinds and statements. In a single statement two
lists of rules put together change what each of them changes. -/
theorem Graph.analysis_of_same_rules (name : String) (line : Int) (parameters : List Parameter)
    (body : List Stmt) {a b : Rules} (h : Rules.AgreeOn (callsUnder (body.map .stmt)) a b) :
    let g := Graph.ofBody name line (parameters.map parameterBinding) body
    (∃ s o, analyze (g.sites a) none (.fresh (g.sites a)) = .ok (s, o) ∧
      analyze (g.sites b) none (.fresh (g.sites b)) = .ok (s, o)) ∧
    ∀ (c d : Rules) (t : Stmt) (f : Definition), f ∈ mutationDefinitions (c.merge d) t ↔
      f ∈ mutationDefinitions c t ∨ f ∈ mutationDefinitions d t := by
  intro g
  obtain ⟨places, s, -, hok, -⟩ := ((Graph.ofBody_linked name line
    (parameters.map parameterBinding) body).sites a).exists_finished
  refine ⟨⟨s, _, hok, ?_⟩, mem_mutationDefinitions_merge⟩
  rwa [← Graph.sites_congr name line parameters body h]

open Code in
/-- A module that calls a method, and a function with a call as its argument. -/
def Code.Module.appendThenSort : Module :=
  let name (line column : Int) (id : String) : Expr := .at ⟨line, column, line, column + id.length⟩ (.name id)
  let pop : Expr := .at ⟨2, 5, 2, 13⟩ (.call (.at ⟨2, 5, 2, 11⟩ (.attribute (name 2 5 "ys") "pop")) [] [])
  { body :=
      [.at ⟨1, 0, 1, 12⟩ (.expr (.at ⟨1, 0, 1, 12⟩
        (.call (.at ⟨1, 0, 1, 9⟩ (.attribute (name 1 0 "xs") "append")) [name 1 10 "x"] []))),
      .at ⟨2, 0, 2, 14⟩ (.expr (.at ⟨2, 0, 2, 14⟩ (.call (name 2 0 "sort") [pop] [])))] }

/-- Rules in another order, one of them given twice, and with one for a function that the
module does not call. -/
theorem Graph.appendThenSort_analysis_of_same_rules :
    let a : Rules := ⟨[⟨"append", true, [], []⟩, ⟨"sort", false, [0], []⟩]⟩
    let b : Rules := ⟨[⟨"sort", false, [0], []⟩, ⟨"clear", true, [], []⟩, ⟨"append", true, [], []⟩,
      ⟨"sort", false, [0], []⟩]⟩
    let g := Graph.ofBody "<module>" 1 [] Code.Module.appendThenSort.body
    Rules.AgreeOn (callsUnder (Code.Module.appendThenSort.body.map .stmt)) a b ∧
      ∃ s o, analyze (g.sites a) none (.fresh (g.sites a)) = .ok (s, o) ∧
        analyze (g.sites b) none (.fresh (g.sites b)) = .ok (s, o) := by
  intro a b g
  have hagree : Rules.AgreeOn (callsUnder (Code.Module.appendThenSort.body.map .stmt)) a b := by
    have hcalls : callsUnder (Code.Module.appendThenSort.body.map .stmt) = ["append", "sort", "pop"] := by
      decide +kernel
    rw [hcalls]
    rintro ⟨function, receiver, positions, keywords⟩ hcalled
    simp only [List.map_cons, List.map_nil, List.mem_cons, List.not_mem_nil, or_false] at hcalled
    rcases hcalled with rfl | rfl | rfl <;> simp [a, b]
  exact ⟨hagree, (Graph.analysis_of_same_rules "<module>" 1 [] Code.Module.appendThenSort.body hagree).1⟩

end Reaching
