import FlowFacts.Proofs.Solver.Progress

/-! What facts can be after so many visits to a point.

A point is watched, and relations between points and facts are told apart by how often it
has been visited. When the meets and the transfers that lead from one such visit to the next
keep the relations (`KeptByRounds`), the facts of a store are in those of as many visits
as the budget allows at most (`fixedPoint_rounds`). -/
namespace FlowFacts.Solver
variable {α : Type}

/-- The visits to the watched point, with a visit to `p`. -/
def countAt (watched p : Point) (n : Nat) : Nat := if p = watched then n + 1 else n

structure KeptByRounds (A : Analysis α) (c : ControlFlowGraph) (d : Direction) (start : Point)
    (initial : α) (watched : Point) (into out : Nat → Point → α → Prop) : Prop where
  top_into : ∀ n p, into n p A.lattice.top
  top_out : ∀ n p, out n p A.lattice.top
  initial : ∀ n, into n start initial
  more_into : ∀ n p a, into n p a → into (n + 1) p a
  more_out : ∀ n p a, out n p a → out (n + 1) p a
  meet : ∀ n p q a b, into (countAt watched p n) p a → out n q b → c.flows d q p →
    into (countAt watched p n) p (A.lattice.meet a b)
  transfer : ∀ n p l a b, c.Reaches d start p → c.locate p = .ok l → into n p a →
    A.transfer.apply l a = .ok b → out n p b

section Rounds
variable {A : Analysis α} {c : ControlFlowGraph} {d : Direction} {start watched : Point}
  {initial : α} {into out : Nat → Point → α → Prop}

theorem KeptByRounds.into_countAt (h : KeptByRounds A c d start initial watched into out)
    {n : Nat} {p : Point} {a : α} (ha : into n p a) (q : Point) :
    into (countAt watched q n) p a := by
  unfold countAt
  split
  · exact h.more_into n p a ha
  · exact ha

theorem KeptByRounds.out_countAt (h : KeptByRounds A c d start initial watched into out)
    {n : Nat} {p : Point} {a : α} (ha : out n p a) (q : Point) :
    out (countAt watched q n) p a := by
  unfold countAt
  split
  · exact h.more_out n p a ha
  · exact ha

end Rounds

section Next
variable {P : Problem α} {c : ControlFlowGraph} {start watched : Point} {s : State α} {w : Nat}
  {into out : Nat → Point → α → Prop}

/-- A visit to a point of the problem counts if it is the watched one. -/
theorem Visit.visitsOf_watched [DecidableEq α] (h : P.Poses c start) (hc : c.WellFormed)
    (hw : c.points[w]? = some watched) (v : Visit P s) :
    visitsOf v.next w = countAt watched v.point (visitsOf s w) := by
  obtain ⟨hp, -⟩ := h.node _ _ _ v.node
  have hsame : w = v.index ↔ v.point = watched := by
    constructor
    · rintro rfl
      exact Option.some.inj (hp.symm.trans hw)
    · intro heq
      exact (List.getElem?_inj (List.getElem?_eq_some_iff.1 hw).1 hc.points_nodup).1
        (hw.trans (heq ▸ hp.symm))
  rw [v.visitsOf_next, countAt]
  by_cases heq : v.point = watched
  · rw [if_pos heq, if_pos (hsame.2 heq)]
  · rw [if_neg heq, if_neg fun hindex => heq (hsame.1 hindex), Nat.add_zero]

theorem Holds.next_round [DecidableEq α] (h : P.Poses c start) (hc : c.WellFormed)
    (hk : KeptByRounds P.analysis c P.options.direction start P.initial watched into out)
    (hw : c.points[w]? = some watched) (hinv : Invariant P s)
    (hs : Holds c (into (visitsOf s w)) (out (visitsOf s w)) s) (v : Visit P s) :
    Holds c (into (visitsOf v.next w)) (out (visitsOf v.next w)) v.next := by
  obtain ⟨hp, hl⟩ := h.node _ _ _ v.node
  have hreach := (h.reaches_iff hc hp).1 (hinv.reached v.index (v.head ▸ List.mem_cons_self))
  rw [v.visitsOf_watched h hc hw]
  have hinto : into (countAt watched v.point (visitsOf s w)) v.point v.fact := by
    refine flowIn_induction h hc hp (fun heq => heq ▸ hk.initial _) (hk.top_into _ _) ?_ v.flows
    exact fun j q a b hq hb flow ha => hk.meet _ _ q a b ha (hs.outgoing j q b hq hb) flow
  constructor
  case incoming =>
    intro i p a hi ha
    rcases v.incoming_cases ha with ⟨rfl, rfl⟩ | ⟨-, ha⟩
    · cases hp.symm.trans hi
      exact hinto
    · exact hk.into_countAt (hs.incoming i p a hi ha) v.point
  case outgoing =>
    intro i p a hi ha
    rcases v.outgoing_cases ha with ⟨rfl, rfl⟩ | ⟨-, ha⟩
    · cases hp.symm.trans hi
      exact hk.transfer _ _ _ _ _ hreach hl hinto v.transfers
    · exact hk.out_countAt (hs.outgoing i p a hi ha) v.point

end Next

/-- The facts of a store stand in the relations of some number of visits within the budget. -/
theorem fixedPoint_rounds [DecidableEq α] {A : Analysis α} {c : ControlFlowGraph} {initial : α}
    {o : Options} {store : FactStore α} {start watched : Point}
    {into out : Nat → Point → α → Prop} (hc : c.WellFormed)
    (h : fixedPoint A c initial o = .ok store) (hstart : startPoint c o.direction = .ok start)
    (hwatched : watched ∈ c.points)
    (hk : KeptByRounds A c o.direction start initial watched into out) :
    ∃ n, n ≤ o.budget ∧ ∀ p ∈ c.points, ∃ fact result, store.incoming o.direction p = .ok fact ∧
      into n p fact ∧ store.outgoing o.direction p = .ok result ∧ out n p result := by
  obtain ⟨start', P, order, final, hstart', rfl, rfl, rfl, hposes, hinv,
    ⟨steps, before, after, hloop⟩, rfl⟩ := fixedPoint_ok hc h
  cases hstart.symm.trans hstart'
  obtain ⟨w, hw⟩ := List.mem_iff_getElem?.1 hwatched
  have hinitial : Holds c (into (visitsOf (initialState P order) w))
      (out (visitsOf (initialState P order) w)) (initialState P order) :=
    ⟨fun _ p _ _ ha => initialState_incoming ha ▸ hk.top_into _ p,
      fun _ p _ _ ha => initialState_outgoing ha ▸ hk.top_out _ p⟩
  have hstep (s : State α) (hs : Invariant P s ∧ Budgeted P s ∧
      Holds c (into (visitsOf s w)) (out (visitsOf s w)) s) (v : Visit P s) :
      Invariant P v.next ∧ Budgeted P v.next ∧
        Holds c (into (visitsOf v.next w)) (out (visitsOf v.next w)) v.next :=
    ⟨hs.1.next hposes.wellFormed v, hs.2.1.next v, hs.2.2.next_round hposes hc hk hw hs.1 v⟩
  obtain ⟨⟨hfinal, hbudgeted, hholds⟩, -⟩ :=
    loop_keeps hstep steps hloop ⟨hinv, budgeted_initial P order, hinitial⟩
  exact ⟨visitsOf final w, hbudgeted w, fun p hp => hholds.collect hposes hc hfinal hp⟩

end FlowFacts.Solver
