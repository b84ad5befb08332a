import FlowFacts.Proofs.Client.ReflectionBudget
import FlowFacts.Proofs.Solver.Rounds

/-! Methods for which a budget is too small.

A delay line puts a value into its first local and then, round after round, copies every
local into the next, the last one first, so that a round passes the value on by one local.
The value comes to the last local after as many rounds as there are copies. The solver
visits the first copy once a round (`delayLine_kept`), so it cannot end with fewer visits
(`lt_budget_of_sites`), and no budget is enough for every method
(`delayLine_exceeds`). -/
namespace FlowFacts.Reflection
open Solver

/-! ### The method -/

/-- A value for the first local, then a block that leads back to itself. -/
def delayFrame : List ControlFlowGraph.Change :=
  [.newBlock, .newBlock, .push 0 (.assign ⟨0⟩ .null), .addEdge 0 1, .addEdge 1 1, .setEntry 0]

/-- Every local is copied into the next, the last one first. -/
def delayCopies (n : Nat) : List Operation :=
  (List.range n).map fun k => .assign ⟨n - k⟩ (.slot ⟨n - k - 1⟩)

def delayLine (n : Nat) : Method where
  name := "Delay"
  annotations := []
  body := .build (delayFrame ++ (delayCopies n).map (.push 1))

def delayEntry : Block := ⟨0, 1, [⟨.assign ⟨0⟩ .null, 0⟩]⟩

def delayBlock (n : Nat) : Block :=
  ⟨1, n, (delayCopies n).mapIdx fun k operation => ⟨operation, k⟩⟩

section Shape
variable {n : Nat}

theorem delayLine_built (n : Nat) : (delayLine n).body.Built := ⟨_, rfl⟩

theorem delayLine_wellFormed (n : Nat) : (delayLine n).body.WellFormed :=
  (delayLine_built n).wellFormed

theorem delayLine_extends (n : Nat) : (ControlFlowGraph.build delayFrame).Extends 1 (delayCopies n)
    (delayLine n).body := by
  have hbody : (delayLine n).body = _ :=
    ControlFlowGraph.build_append delayFrame ((delayCopies n).map (.push 1))
  rw [hbody]
  exact ControlFlowGraph.extends_push (by decide +kernel) (delayCopies n)

theorem nextIndex_delayFrame : (ControlFlowGraph.build delayFrame).nextIndex = 2 := by
  decide +kernel

theorem block_delayLine {i : Nat} {b : Block} : (delayLine n).body.block i = .ok b ↔
    (i = 0 ∧ b = delayEntry) ∨ (i = 1 ∧ b = delayBlock n) := by
  have hframe := ControlFlowGraph.Built.wellFormed ⟨delayFrame, rfl⟩
  have hentry : (ControlFlowGraph.build delayFrame).graph.vertexMap[0]? = some delayEntry := by
    decide +kernel
  have hloop : (ControlFlowGraph.build delayFrame).graph.vertexMap[1]? = some (.empty 1) := by
    decide +kernel
  have hget : (delayLine n).body.block i = .ok b ↔
      (delayLine n).body.graph.vertexMap[i]? = some b := by
    unfold ControlFlowGraph.block Graph.vertex
    split <;> simp_all
  rw [hget, (delayLine_extends n).blocks]
  match i with
  | 0 => simp [hentry, eq_comm]
  | 1 => simp [hloop, Block.foldl_push_empty, delayBlock, delayCopies, eq_comm]
  | i + 2 =>
    have : (ControlFlowGraph.build delayFrame).nextIndex ≤ i + 2 := by
      rw [nextIndex_delayFrame]
      omega
    simp [hframe.no_block this]

theorem hasEdge_delayLine {i j : Nat} :
    (delayLine n).body.graph.hasEdge i j ↔ i < 2 ∧ j = 1 := by
  have hframe := ControlFlowGraph.Built.wellFormed ⟨delayFrame, rfl⟩
  rw [(delayLine_extends n).edges]
  by_cases hij : i < 2 ∧ j < 2
  · have hall : ∀ i < 2, ∀ j < 2, ((ControlFlowGraph.build delayFrame).graph.hasEdge i j = true ↔
        i < 2 ∧ j = 1) := by
      decide +kernel
    exact hall i hij.1 j hij.2
  · rw [hframe.no_edge (by rwa [nextIndex_delayFrame])]
    simp
    omega

theorem delayBlock_nonempty (hn : 0 < n) : (delayBlock n).instructions ≠ [] := by
  rw [← List.length_pos_iff]
  simpa [delayBlock, delayCopies] using hn

theorem mem_blocks_delayLine {b : Block} :
    b ∈ (delayLine n).body.blocks ↔ b = delayEntry ∨ b = delayBlock n := by
  rw [(delayLine_wellFormed n).mem_blocks, block_delayLine]
  constructor
  · rintro (⟨-, h⟩ | ⟨-, h⟩)
    · exact .inl h
    · exact .inr h
  · rintro (rfl | rfl)
    · exact .inl ⟨rfl, rfl⟩
    · exact .inr ⟨rfl, rfl⟩

theorem delayBlock_numbered (n : Nat) : (delayBlock n).Numbered :=
  (delayLine_wellFormed n).numbered_of_mem (mem_blocks_delayLine.2 (.inr rfl))

/-- Control comes from the entry to the first copy, and from each copy to the next. -/
theorem flows_delayLine (hn : 0 < n) {p q : Point} : (delayLine n).body.flows .forward p q ↔
    (p = .instruction 0 0 ∧ q = .instruction 1 0) ∨
      ∃ k < n, p = .instruction 1 k ∧ q = .instruction 1 (if k + 1 = n then 0 else k + 1) := by
  have hc := delayLine_wellFormed n
  have hblock := delayBlock_numbered n
  have hnonempty := delayBlock_nonempty hn
  have hlength : (delayBlock n).instructions.length = n := by simp [delayBlock, delayCopies]
  have hfirst : (delayBlock n).firstPoint = .instruction 1 0 := hblock.firstPoint_eq hnonempty
  have hlast : (delayBlock n).lastPoint = .instruction 1 (n - 1) := by
    rw [hblock.lastPoint_eq hnonempty, hlength]
    rfl
  rw [ControlFlowGraph.flows, decide_eq_true_iff, ControlFlowGraph.mem_arcs]
  constructor
  · rintro (⟨b, hb, hstep⟩ | ⟨e, he, head, tail, hhead, htail, rfl, rfl⟩)
    · rcases mem_blocks_delayLine.1 hb with rfl | rfl
      · cases hstep
      · obtain ⟨k, hk, rfl, rfl⟩ := (hblock.mem_steps hnonempty).1 hstep
        rw [hlength] at hk
        exact .inr ⟨k, by omega, rfl, by rw [if_neg (by omega)]; rfl⟩
    · have hedge := (hc.consistent.hasEdge_iff_mem_edges _ _).2 ⟨e, he, rfl, rfl⟩
      have hone : e.tail = 1 := (hasEdge_delayLine.1 hedge).2
      rw [hone, block_delayLine] at htail
      obtain ⟨hzero, -⟩ | ⟨-, rfl⟩ := htail
      · cases hzero
      · rcases block_delayLine.1 hhead with ⟨-, rfl⟩ | ⟨-, rfl⟩
        · exact .inl ⟨rfl, hfirst⟩
        · exact .inr ⟨n - 1, by omega, hlast, by rw [if_pos (by omega), hfirst]⟩
  · rintro (⟨rfl, rfl⟩ | ⟨k, hk, rfl, rfl⟩)
    · obtain ⟨e, he, hhead, htail⟩ := (hc.consistent.hasEdge_iff_mem_edges 0 1).1
        (hasEdge_delayLine.2 ⟨by omega, rfl⟩)
      exact .inr ⟨e, he, delayEntry, delayBlock n,
        (congrArg _ hhead).trans (block_delayLine.2 (.inl ⟨rfl, rfl⟩)),
        (congrArg _ htail).trans (block_delayLine.2 (.inr ⟨rfl, rfl⟩)), rfl, hfirst.symm⟩
    · by_cases hlastk : k + 1 = n
      · obtain ⟨e, he, hhead, htail⟩ := (hc.consistent.hasEdge_iff_mem_edges 1 1).1
          (hasEdge_delayLine.2 ⟨by omega, rfl⟩)
        refine .inr ⟨e, he, delayBlock n, delayBlock n,
          (congrArg _ hhead).trans (block_delayLine.2 (.inr ⟨rfl, rfl⟩)),
          (congrArg _ htail).trans (block_delayLine.2 (.inr ⟨rfl, rfl⟩)), ?_, ?_⟩
        · rw [hlast, ← hlastk]
          rfl
        · rw [if_pos hlastk, hfirst]
      · refine .inl ⟨delayBlock n, mem_blocks_delayLine.2 (.inr rfl),
          (hblock.mem_steps hnonempty).2 ⟨k, by omega, rfl, ?_⟩⟩
        rw [if_neg hlastk]
        rfl

theorem operationAt_entry :
    (delayLine n).body.operationAt? (.instruction 0 0) = some (.assign ⟨0⟩ .null) := by
  have hlocate := (delayLine_wellFormed n).locate_instruction
    (mem_blocks_delayLine.2 (.inl rfl)) (b := delayEntry) (i := ⟨.assign ⟨0⟩ .null, 0⟩)
    List.mem_cons_self
  exact ControlFlowGraph.operationAt?_of_locate hlocate

theorem operationAt_copy {k : Nat} (hk : k < n) :
    (delayLine n).body.operationAt? (.instruction 1 k) =
      some (.assign ⟨n - k⟩ (.slot ⟨n - k - 1⟩)) := by
  have hmem : (⟨.assign ⟨n - k⟩ (.slot ⟨n - k - 1⟩), k⟩ : Instruction) ∈
      (delayBlock n).instructions := by
    refine List.mem_iff_getElem?.2 ⟨k, ?_⟩
    simp [delayBlock, delayCopies, hk]
  have hlocate := (delayLine_wellFormed n).locate_instruction
    (mem_blocks_delayLine.2 (.inr rfl)) hmem
  exact ControlFlowGraph.operationAt?_of_locate hlocate

theorem mem_points_delayLine (hn : 0 < n) {p : Point} (hp : p ∈ (delayLine n).body.points) :
    p = .instruction 0 0 ∨ ∃ k < n, p = .instruction 1 k := by
  obtain ⟨b, hb, hp⟩ := ControlFlowGraph.mem_points.1 hp
  rcases mem_blocks_delayLine.1 hb with rfl | rfl
  · exact .inl (List.mem_singleton.1 hp)
  · rw [(delayBlock_numbered n).points_eq (delayBlock_nonempty hn)] at hp
    obtain ⟨k, hk, rfl⟩ := List.mem_map.1 hp
    refine .inr ⟨k, ?_, rfl⟩
    simpa [delayBlock, delayCopies] using hk

theorem entry_delayLine : (delayLine n).body.entry = some 0 := by
  rw [(delayLine_extends n).entry]
  decide +kernel

theorem startPoint_delayLine :
    startPoint (delayLine n).body .forward = .ok (.instruction 0 0) := by
  have hblock : (delayLine n).body.block 0 = .ok delayEntry := block_delayLine.2 (.inl ⟨rfl, rfl⟩)
  simp only [startPoint, ControlFlowGraph.entryBlock, entry_delayLine, hblock,
    Except.map]
  rfl

end Shape

/-! ### Rounds -/

/-- In some round, the locals that have a value before a position of a block: in the loop
those of the rounds before, and the next one once it has been copied. -/
def Filled (n round : Nat) : Nat → Nat → Nat → Prop
  | 0, k, j => j < k
  | _, k, j => j < round ∨ (j = round ∧ n < k + j)

section Rounds
variable {n round k j : Nat}

theorem filled_loop : Filled n round 1 k j ↔ j < round ∨ (j = round ∧ n < k + j) := Iff.rfl

/-- A copy fills the next local if its own is filled. -/
theorem filled_next (hk : k < n) : Filled n round 1 (k + 1) j ↔
    if j = n - k then Filled n round 1 k (n - k - 1) else Filled n round 1 k j := by
  simp only [filled_loop]
  split <;> omega

/-- The end of a round is the start of the next. -/
theorem filled_round (hj : j ≤ n) (hround : 0 < round) :
    Filled n round 1 n j ↔ Filled n (round + 1) 1 0 j := by
  simp only [filled_loop]
  omega

end Rounds

/-! ### What the facts may hold -/

/-- Only some locals have values. -/
def Only (bound : Nat) (holds : Nat → Prop) (fact : LocalValues) : Prop :=
  ∀ j, fact.getOrTop (values bound) ⟨j⟩ ≠ (values bound).top → holds j

section Only
variable {bound : Nat} {holds others : Nat → Prop} {a b : LocalValues}

theorem only_empty : Only bound holds .empty := fun _ h => absurd (MapFact.getOrTop_empty _) h

theorem Only.mono (h : Only bound holds a) (imp : ∀ j, holds j → others j) :
    Only bound others a := fun j hj => imp j (h j hj)

theorem Only.meet (ha : Only bound holds a) (hb : Only bound holds b) :
    Only bound holds (a.meet (values bound) b) := by
  intro j hj
  rcases MapFact.getOrTop_meet_cases (values_only_top bound) a b ⟨j⟩ with
    ⟨-, heq⟩ | ⟨-, heq⟩ | heq
  · exact ha j (heq ▸ hj)
  · exact hb j (heq ▸ hj)
  · by_cases htop : a.getOrTop (values bound) ⟨j⟩ = (values bound).top
    · refine hb j fun htop' => hj ?_
      rw [heq, htop, htop']
      exact (ValueSet.lawful bound).meet_self _ (ValueSet.lawful bound).top_mem
    · exact ha j htop

/-- Writing a local that had a value or was to have one. -/
theorem Only.insert (ha : Only bound holds a) (imp : ∀ j, holds j → others j) {i : Nat}
    {value : ValueSet SymbolicValue} (hvalue : value ≠ (values bound).top → others i) :
    Only bound others (a.insert (values bound) ⟨i⟩ value) := by
  intro j hj
  rw [MapFact.getOrTop_insert (values_only_top bound)] at hj
  split at hj
  · rename_i heq
    cases heq
    exact hvalue hj
  · exact imp j (ha j hj)

end Only

/-- At a point, only the locals that are filled so many positions on have values. -/
def Allowed (bound n ahead round : Nat) : Point → LocalValues → Prop
  | .instruction b k, fact => Only bound (Filled n round b (k + ahead)) fact
  | .emptyBlock _, _ => True

section Kept
variable {bound n : Nat}

theorem Filled.more {round b k j : Nat} (h : Filled n round b k j) :
    Filled n (round + 1) b k j := by
  cases b with
  | zero => exact h
  | succ b =>
    change j < round + 1 ∨ _
    rcases h with h | h <;> omega

theorem allowed_empty {ahead round : Nat} {p : Point} : Allowed bound n ahead round p .empty := by
  cases p with
  | instruction b k => exact only_empty
  | emptyBlock b => trivial

theorem Allowed.more {ahead round : Nat} {p : Point} {a : LocalValues}
    (h : Allowed bound n ahead round p a) : Allowed bound n ahead (round + 1) p a := by
  cases p with
  | instruction b k => exact Only.mono h fun j hj => hj.more
  | emptyBlock b => trivial

/-- The facts around a point are filled no further than the rounds of visits allow. -/
theorem delayLine_kept (hn : 0 < n) : KeptByRounds (localValues bound) (delayLine n).body .forward
    (.instruction 0 0) .empty (.instruction 1 0) (Allowed bound n 0) (Allowed bound n 1) := by
  constructor
  case top_into => exact fun _ _ => allowed_empty
  case top_out => exact fun _ _ => allowed_empty
  case initial => exact fun _ => allowed_empty
  case more_into => exact fun _ _ _ ha => ha.more
  case more_out => exact fun _ _ _ ha => ha.more
  case meet =>
    intro round p q a b ha hb hflow
    rcases (flows_delayLine hn).1 hflow with ⟨rfl, rfl⟩ | ⟨k, hk, rfl, rfl⟩
    · refine Only.meet ha (Only.mono hb fun j hj => ?_)
      rw [countAt, if_pos rfl]
      exact .inl (Nat.lt_of_lt_of_le hj (Nat.succ_le_succ round.zero_le))
    · refine Only.meet ha (Only.mono hb fun j hj => ?_)
      by_cases hlast : k + 1 = n
      · -- the end of a round: the visit that is to come counts
        rw [if_pos hlast, countAt, if_pos rfl]
        rw [filled_loop] at hj ⊢
        omega
      · have hnext : (Point.instruction 1 (k + 1)) ≠ .instruction 1 0 := by simp
        rw [if_neg hlast, countAt, if_neg hnext]
        exact hj
  case transfer =>
    intro round p l a b hreach hl ha hb
    obtain ⟨passed, way⟩ := hreach
    have hc := delayLine_wellFormed n
    have hp := way.mem_points hc (startPoint_mem hc startPoint_delayLine)
    have hat := ControlFlowGraph.operationAt?_of_locate hl
    rw [localValues_apply, Except.ok.injEq] at hb
    subst hb
    rcases mem_points_delayLine hn hp with rfl | ⟨k, hk, rfl⟩
    · rw [operationAt_entry] at hat
      rw [← hat]
      exact Only.insert ha (fun j hj => Nat.lt_succ_of_lt hj) fun _ => Nat.zero_lt_one
    · rw [operationAt_copy hk] at hat
      rw [← hat]
      refine Only.insert ha (fun j hj => ?_) fun hvalue => ?_
      · rw [filled_loop] at hj ⊢
        omega
      · rw [filled_next hk, if_pos rfl]
        exact ha _ hvalue

end Kept

/-! ### What the rounds leave in the locals -/

section Locals
variable {n : Nat}

/-- The locals that are filled before a position hold the value. -/
def Holding (n round k : Nat) (locals : Locals) : Prop :=
  ∀ j, j ≤ n → Filled n round 1 k j → locals ⟨j⟩ = some .null

theorem Holding.pass {round k : Nat} {locals : Locals} (hk : k < n)
    (h : Holding n round k locals) :
    Holding n round (k + 1) ((delayLine n).body.pass locals (.instruction 1 k)) := by
  intro j hj hfilled
  rw [filled_next hk] at hfilled
  simp only [ControlFlowGraph.pass, operationAt_copy hk, Operation.execute, Operand.value?]
  split at hfilled
  · rename_i heq
    rw [if_pos (by rw [heq])]
    exact h _ (by omega) hfilled
  · rename_i hne
    rw [if_neg fun heq => hne (Local.mk.inj heq).symm]
    exact h j hj hfilled

/-- Some way leaves the value in the locals that a round has filled. -/
theorem exists_holding (hn : 0 < n) (round : Nat) :
    ∃ locals ∈ (delayLine n).body.localsAt (.instruction 0 0) (.instruction 1 0),
      Holding n (round + 1) 0 locals := by
  induction round with
  | zero =>
    have hentry : (fun _ => none) ∈
        (delayLine n).body.localsAt (.instruction 0 0) (.instruction 0 0) := ⟨[], .start, rfl⟩
    refine ⟨_, ControlFlowGraph.pass_mem_localsAt
      ((flows_delayLine hn).2 (.inl ⟨rfl, rfl⟩)) hentry, fun j hj hfilled => ?_⟩
    have hzero : j = 0 := by
      rw [filled_loop] at hfilled
      omega
    simp [ControlFlowGraph.pass, operationAt_entry, Operation.execute, Operand.value?, hzero]
  | succ round ih =>
    -- the copies one after another
    have hcopies (k : Nat) (hk : k < n) :
        ∃ locals ∈ (delayLine n).body.localsAt (.instruction 0 0) (.instruction 1 k),
          Holding n (round + 1) k locals := by
      induction k with
      | zero => exact ih
      | succ k ihk =>
        obtain ⟨locals, hmem, hholding⟩ := ihk (by omega)
        have hflow : (delayLine n).body.flows .forward (.instruction 1 k) (.instruction 1 (k + 1)) :=
          (flows_delayLine hn).2 (.inr ⟨k, by omega, rfl, by rw [if_neg (by omega)]⟩)
        exact ⟨_, ControlFlowGraph.pass_mem_localsAt hflow hmem, hholding.pass (by omega)⟩
    obtain ⟨locals, hmem, hholding⟩ := hcopies (n - 1) (by omega)
    have hflow : (delayLine n).body.flows .forward (.instruction 1 (n - 1)) (.instruction 1 0) :=
      (flows_delayLine hn).2 (.inr ⟨n - 1, by omega, rfl, by rw [if_pos (by omega)]⟩)
    refine ⟨_, ControlFlowGraph.pass_mem_localsAt hflow hmem, fun j hj hfilled => ?_⟩
    refine hholding.pass (by omega) j hj ?_
    rw [Nat.sub_add_cancel hn]
    exact (filled_round hj (Nat.succ_pos round)).2 hfilled

end Locals

/-! ### The budget -/

theorem lt_budget_of_sites {n : Nat} {o : Options} {found : List ReflectionSite} (hn : 0 < n)
    (h : sites (delayLine n) o = .ok found) : n < o.budget := by
  have hc := delayLine_wellFormed n
  obtain ⟨store, -, hstore, -⟩ := sites_ok h
  have hfixed : fixedPoint (localValues o.bound) (delayLine n).body .empty
    { o with direction := .forward } = .ok store := hstore
  obtain ⟨first, hfirst, hs⟩ := fixedPoint_solution hc hfixed
  cases hfirst.symm.trans startPoint_delayLine
  have hpoint : .instruction 1 0 ∈ (delayLine n).body.points :=
    (hc.mem_points_of_flows ((flows_delayLine hn).2 (.inl ⟨rfl, rfl⟩))).2
  obtain ⟨rounds, hrounds, hall⟩ := fixedPoint_rounds hc hfixed hfirst hpoint (delayLine_kept hn)
  obtain ⟨fact, -, hfact, honly, -⟩ := hall _ hpoint
  obtain ⟨locals, ⟨passed, way, rfl⟩, hholding⟩ := exists_holding hn n
  have hcovers := covers_incoming hs hc (startPoint_mem hc hfirst) way hfact
  have hlast := hcovers ⟨n⟩ .null (hholding n le_rfl (.inl (Nat.lt_succ_self n)))
  have hfilled := honly n fun htop => by simp [htop] at hlast
  rw [filled_loop] at hfilled
  change rounds ≤ o.budget at hrounds
  omega

/-- A delay line that is as long as the budget uses it up. -/
theorem delayLine_exceeds {n : Nat} {o : Options} (hn : 0 < n) (small : o.budget ≤ n)
    (free : o.isCancelled = false) :
    ∃ p, sites (delayLine n) o = .error (.error (.budgetExceeded p o.budget)) := by
  refine (sites_ok_or_exceeded (delayLine_wellFormed n) startPoint_delayLine free).resolve_left ?_
  intro hok
  obtain ⟨found, hfound⟩ := hok
  exact absurd (lt_budget_of_sites hn hfound) (Nat.not_lt.2 small)

/-- The budget that options have by default is used up by a method with an entry. -/
theorem delayLine_exceeds_default : (delayLine 1024).body.Built ∧
    (delayLine 1024).body.entry = some 0 ∧
      ∃ p, sites (delayLine 1024) {} = .error (.error (.budgetExceeded p 1024)) :=
  ⟨delayLine_built 1024, entry_delayLine, delayLine_exceeds (o := {}) (by decide) le_rfl rfl⟩

end FlowFacts.Reflection
