import FlowFacts.Proofs.Solver.Induction
import FlowFacts.Proofs.Solver.Monotone

/-! Facts that lie below what makes them, and what every way makes.

A sub-solution gives facts to the points that the start reaches, each below what makes
it: what flows into a point lies below what flows out of its sources, and what flows
out of it below the transfer of that (`SubSolution`). The facts that the solver stores
are one, with equality for the transfers.

Along a way, the transfers of the points that it passes make one fact of another
(`Analysis.along`). The facts of a sub-solution lie below what every way makes of the
initial fact, where transfers are monotone and never fail (`SubSolution.below_along`). -/
namespace FlowFacts

namespace Analysis
variable {α : Type}

/-- No transfer fails on a class of facts. -/
def TotalOn (A : Analysis α) (K : α → Prop) : Prop :=
  ∀ l a, K a → ∃ b, A.transfer.apply l a = .ok b

/-- The transfer of the location that a point names. -/
def pass (A : Analysis α) (c : ControlFlowGraph) (fact : α) (p : Point) : Except Error α := do
  A.transfer.apply (← c.locate p) fact

/-- What the transfers of some points make of a fact, one after another. -/
def along (A : Analysis α) (c : ControlFlowGraph) (fact : α) (points : List Point) :
    Except Error α := points.foldlM (A.pass c) fact

variable {A : Analysis α} {c : ControlFlowGraph} {passed : List Point} {p : Point} {l : Location}
  {fact before : α}

theorem along_append (h : A.along c fact passed = .ok before) (hl : c.locate p = .ok l) :
    A.along c fact (passed ++ [p]) = A.transfer.apply l before := by
  rw [along] at h
  rw [along, List.foldlM_append, h]
  have hpass : A.pass c before p = A.transfer.apply l before := by
    simp only [pass, hl, bind, Except.bind]
  exact (bind_pure (A.pass c before p)).trans hpass

end Analysis

namespace FactStore
variable {α : Type}

/-- The fact that flows into a point, if there is one. -/
def into (s : FactStore α) (d : Direction) (default : α) (p : Point) : α :=
  (s.incoming d p).toOption.getD default

/-- The fact that flows out of a point, if there is one. -/
def out (s : FactStore α) (d : Direction) (default : α) (p : Point) : α :=
  (s.outgoing d p).toOption.getD default

variable {s : FactStore α} {d : Direction} {default fact : α} {p : Point}

theorem into_of_incoming (h : s.incoming d p = .ok fact) : s.into d default p = fact := by
  simp [into, h, Except.toOption]

theorem out_of_outgoing (h : s.outgoing d p = .ok fact) : s.out d default p = fact := by
  simp [out, h, Except.toOption]

end FactStore

namespace Solver
variable {α : Type} {A : Analysis α} {K : α → Prop} {c : ControlFlowGraph} {d : Direction}
  {start : Point} {initial : α} {store : FactStore α}

/-! ### Sub-solutions -/

/-- Facts of a class for the points that the start reaches, each below what makes it; nothing
is asked of the facts of other points. -/
structure SubSolution (A : Analysis α) (K : α → Prop) (c : ControlFlowGraph) (d : Direction)
    (start : Point) (initial : α) (into out : Point → α) : Prop where
  into_mem : ∀ p, c.Reaches d start p → K (into p)
  out_mem : ∀ p, c.Reaches d start p → K (out p)
  starts : A.lattice.Below (into start) initial
  flow : ∀ p q, c.Reaches d start p → c.flows d p q → A.lattice.Below (into q) (out p)
  transfer : ∀ p l, c.Reaches d start p → c.locate p = .ok l →
    ∃ b, A.transfer.apply l (into p) = .ok b ∧ A.lattice.Below (out p) b

/-- Every fact that the solver makes belongs to the class. -/
theorem kept_mem (hA : A.ClosedOn K) (hinitial : K initial) :
    Kept A c d start initial (fun _ => K) (fun _ => K) where
  top_into _ := hA.lawful.top_mem
  top_out _ := hA.lawful.top_mem
  initial := hinitial
  meet _ _ a b ha hb _ := hA.lawful.meet_mem a b ha hb
  transfer _ l a b _ _ ha htransfer := hA.transfer_mem l a b ha htransfer

/-- The facts of a store belong to a class. -/
def Within (store : FactStore α) (d : Direction) (c : ControlFlowGraph) (K : α → Prop) : Prop :=
  ∀ p ∈ c.points, ∃ fact out, store.incoming d p = .ok fact ∧ K fact ∧
    store.outgoing d p = .ok out ∧ K out

/-- Facts of a class that solve the equations lie below what makes them. -/
theorem Solution.subSolution (h : Solution A c d start initial store) (hc : c.WellFormed)
    (hstart : start ∈ c.points) (hA : A.MonotoneOn K) (hinitial : K initial)
    (hmem : Within store d c K) : SubSolution A K c d start initial
      (store.into d A.lattice.top) (store.out d A.lattice.top) := by
  have hpoint {p : Point} (hp : c.Reaches d start p) : p ∈ c.points := by
    obtain ⟨passed, way⟩ := hp
    exact way.mem_points hc hstart
  have hbase (p : Point) : K (if p = start then initial else A.lattice.top) := by
    split
    · exact hinitial
    · exact hA.lawful.top_mem
  have hfacts (p : Point) (facts : List α)
      (hmap : (c.sources d p).mapM (store.outgoing d) = .ok facts) : ∀ f ∈ facts, K f := by
    intro f hf
    obtain ⟨q, hq, hout⟩ := exists_left (mapM_eq_ok.1 hmap) hf
    obtain ⟨-, out, -, -, hout', hK⟩ := hmem q (List.mem_filter.1 hq).1
    cases hout.symm.trans hout'
    exact hK
  constructor
  case into_mem =>
    intro p hp
    obtain ⟨fact, -, hin, hK, -⟩ := hmem p (hpoint hp)
    rwa [FactStore.into_of_incoming hin]
  case out_mem =>
    intro p hp
    obtain ⟨-, out, -, -, hout, hK⟩ := hmem p (hpoint hp)
    rwa [FactStore.out_of_outgoing hout]
  case starts =>
    obtain ⟨-, facts, fact, -, -, -, hmap, hin, -, -, hmeet, -⟩ :=
      h.reached start hstart (.start c d start)
    rw [FactStore.into_of_incoming hin, hmeet, if_pos rfl]
    exact (hA.lawful.foldl_below (hfacts start facts hmap) hinitial).1
  case flow =>
    intro p q hp hflow
    have hq := hp.step hflow
    obtain ⟨-, facts, fact, -, -, -, hmap, hin, -, -, hmeet, -⟩ := h.reached q (hpoint hq) hq
    obtain ⟨out, hout, hsame⟩ := exists_right (mapM_eq_ok.1 hmap) (hc.mem_sources.2 hflow)
    rw [FactStore.into_of_incoming hin, FactStore.out_of_outgoing hsame, hmeet]
    exact (hA.lawful.foldl_below (hfacts q facts hmap) (hbase q)).2 out hout
  case transfer =>
    intro p l hp hl
    obtain ⟨l', -, fact, out, -, hl', -, hin, hout, -, -, htransfer⟩ := h.reached p (hpoint hp) hp
    cases hl.symm.trans hl'
    obtain ⟨-, out', -, -, hout', hK⟩ := hmem p (hpoint hp)
    cases hout.symm.trans hout'
    rw [FactStore.into_of_incoming hin, FactStore.out_of_outgoing hout]
    exact ⟨out, htransfer, hA.lawful.refl hK⟩

/-! ### Along ways -/

/-- The facts of a sub-solution lie below what every way makes of the initial fact. -/
theorem SubSolution.below_along {into out : Point → α}
    (h : SubSolution A K c d start initial into out) (hc : c.WellFormed)
    (hstart : start ∈ c.points) (hA : A.MonotoneOn K) (total : A.TotalOn K) (hinitial : K initial)
    {passed : List Point} {p : Point} (way : c.Way d start passed p) :
    ∃ before after, A.along c initial passed = .ok before ∧ K before ∧
      A.lattice.Below (into p) before ∧ A.along c initial (passed ++ [p]) = .ok after ∧ K after ∧
        A.lattice.Below (out p) after := by
  -- what holds of the fact before a point holds of the fact after it
  have hpass {passed : List Point} {p : Point} {before : α} (way : c.Way d start passed p)
      (halong : A.along c initial passed = .ok before) (hK : K before)
      (hbelow : A.lattice.Below (into p) before) : ∃ after,
        A.along c initial (passed ++ [p]) = .ok after ∧ K after ∧
          A.lattice.Below (out p) after := by
    have hreach : c.Reaches d start p := ⟨passed, way⟩
    obtain ⟨l, hl, -⟩ := hc.locate_point (way.mem_points hc hstart)
    obtain ⟨after, hafter⟩ := total l before hK
    obtain ⟨b, hb, hout⟩ := h.transfer p l hreach hl
    have hinto := h.into_mem p hreach
    have hKb := hA.transfer_mem l _ b hinto hb
    have hKafter := hA.transfer_mem l _ after hK hafter
    refine ⟨after, (Analysis.along_append halong hl).trans hafter, hKafter, ?_⟩
    exact hA.lawful.trans (h.out_mem p hreach) hKb hKafter hout
      (hA.transfer_mono l _ _ b after hinto hK hbelow hb hafter)
  induction way with
  | start =>
    obtain ⟨after, hafter, hK, hbelow⟩ := hpass .start rfl hinitial h.starts
    exact ⟨initial, after, rfl, hinitial, h.starts, hafter, hK, hbelow⟩
  | @step passed p q way flow ih =>
    obtain ⟨-, before, -, -, -, halong, hK, hbelow⟩ := ih
    have hreach : c.Reaches d start p := ⟨passed, way⟩
    have hinto : A.lattice.Below (into q) before :=
      hA.lawful.trans (h.into_mem q (hreach.step flow)) (h.out_mem p hreach) hK
        (h.flow p q hreach flow) hbelow
    obtain ⟨after, hafter, hK', hbelow'⟩ := hpass (way.step flow) halong hK hinto
    exact ⟨before, after, halong, hK, hinto, hafter, hK', hbelow'⟩

variable [DecidableEq α] {o : Options}

/-- The facts that the solver stores belong to the class and are a sub-solution. -/
theorem fixedPoint_subSolution (hc : c.WellFormed) (hA : A.MonotoneOn K) (hinitial : K initial)
    (h : fixedPoint A c initial o = .ok store) : ∃ start,
      startPoint c o.direction = .ok start ∧ Within store o.direction c K ∧
        SubSolution A K c o.direction start initial (store.into o.direction A.lattice.top)
          (store.out o.direction A.lattice.top) := by
  obtain ⟨start, hstart, hs⟩ := fixedPoint_solution hc h
  have hmem : Within store o.direction c K := fun p hp =>
    fixedPoint_keeps hc h hstart (kept_mem hA.closed hinitial) hp
  exact ⟨start, hstart, hmem,
    hs.subSolution hc (startPoint_mem hc hstart) hA hinitial hmem⟩

/-- What is stored for a point lies below what every way to it makes of the initial fact. -/
theorem fixedPoint_below_along (built : c.Built) (hA : A.MonotoneOn K) (total : A.TotalOn K)
    (hinitial : K initial) (h : fixedPoint A c initial o = .ok store) :
    ∃ start, startPoint c o.direction = .ok start ∧
      ∀ passed p, c.Way o.direction start passed p → ∃ fact out before after,
        store.incoming o.direction p = .ok fact ∧ store.outgoing o.direction p = .ok out ∧
          A.along c initial passed = .ok before ∧ A.along c initial (passed ++ [p]) = .ok after ∧
            A.lattice.lessOrEqual fact before ∧ A.lattice.lessOrEqual out after := by
  have hc := built.wellFormed
  obtain ⟨start, hstart, hmem, hsub⟩ := fixedPoint_subSolution hc hA hinitial h
  refine ⟨start, hstart, fun passed p way => ?_⟩
  have hpoints := startPoint_mem hc hstart
  obtain ⟨fact, out, hin, -, hout, -⟩ := hmem p (way.mem_points hc hpoints)
  obtain ⟨before, after, hbefore, -, hinto, hafter, -, hbelow⟩ :=
    hsub.below_along hc hpoints hA total hinitial way
  rw [FactStore.into_of_incoming hin] at hinto
  rw [FactStore.out_of_outgoing hout] at hbelow
  exact ⟨fact, out, before, after, hin, hout, hbefore, hafter,
    (A.lattice.lessOrEqual_iff ..).2 hinto, (A.lattice.lessOrEqual_iff ..).2 hbelow⟩

/-- The countdown runs on the numbers up to its top, in their order. -/
theorem countdown_monotone : countdown.MonotoneOn (· ≤ 9) := by
  constructor
  case lawful => constructor <;> simp only [countdown, Lattice.ofMeet] <;> omega
  case transfer_mem =>
    intro l a b ha hb
    cases hb
    exact (Nat.sub_le a 1).trans ha
  case transfer_mono =>
    intro l a b a' b' _ _ hbelow ha' hb'
    cases ha'
    cases hb'
    simp only [Lattice.Below, countdown, Lattice.ofMeet] at hbelow ⊢
    omega

theorem countdown_total : countdown.TotalOn (· ≤ 9) := fun _ a _ => ⟨a - 1, rfl⟩

theorem fixedPoint_below_along_loop : ∃ store start,
    fixedPoint countdown (.build loopChanges) 4 {} = .ok store ∧
      startPoint (.build loopChanges) .forward = .ok start ∧
        ∀ passed p, (ControlFlowGraph.build loopChanges).Way .forward start passed p →
          ∃ fact out before after, store.incoming .forward p = .ok fact ∧
            store.outgoing .forward p = .ok out ∧
              countdown.along (.build loopChanges) 4 passed = .ok before ∧
                countdown.along (.build loopChanges) 4 (passed ++ [p]) = .ok after ∧
                  countdown.lattice.lessOrEqual fact before ∧
                    countdown.lattice.lessOrEqual out after := by
  obtain ⟨store, h⟩ := exists_of_isOk (e := fixedPoint countdown (.build loopChanges) 4 {})
    (by decide +kernel)
  obtain ⟨start, hstart, hall⟩ := fixedPoint_below_along ⟨loopChanges, rfl⟩ countdown_monotone
    countdown_total (by decide) h
  exact ⟨store, start, h, hstart, hall⟩

end Solver

end FlowFacts
