import FlowFacts.Proofs.Graph.Matching
import FlowFacts.Proofs.Solver.Course

/-! Two runs that take the same steps.

Two problems are paired by a matching of their graphs when partners are nodes of the same
point (`Paired`), and two states when the queues list partners and partners have the same
facts and visits (`InStep`). Where the same fact flows into partners, a step of one state
and a step of the other come to the same end, or lead on to two states that are again in
step (`InStep.step`). Two runs then end with one error or in states in step (`InStep.loop`),
though their limits on steps may differ: no run comes to its limit (`loop_enough`). -/
namespace FlowFacts.Solver
variable {α : Type}

/-! ### Values of partners -/

/-- Partners have the same values. -/
def Beside {β : Type} (R : Nat → Nat → Prop) (xs ys : Array β) : Prop :=
  ∀ i j, R i j → ∃ a, xs[i]? = some a ∧ ys[j]? = some a

section Beside
variable {β : Type} {R : Nat → Nat → Prop} {xs ys : Array β} {i j : Nat}

theorem Beside.same (h : Beside R xs ys) (hij : R i j) : ys[j]? = xs[i]? := by
  obtain ⟨a, hx, hy⟩ := h i j hij
  rw [hx, hy]

/-- Partners may get the same value. -/
theorem Beside.set (unique : ∀ {i j i' j'}, R i i' → R j j' → (i = j ↔ i' = j'))
    (h : Beside R xs ys) (hij : R i j) (a : β) :
    Beside R (xs.setIfInBounds i a) (ys.setIfInBounds j a) := by
  intro k l hkl
  obtain ⟨b, hx, hy⟩ := h k l hkl
  rw [Array.getElem?_setIfInBounds, Array.getElem?_setIfInBounds]
  by_cases hik : i = k
  · have hjl := (unique hij hkl).1 hik
    subst hik hjl
    rw [if_pos rfl, if_pos rfl, if_pos (Array.getElem?_eq_some_iff.1 hx).1,
      if_pos (Array.getElem?_eq_some_iff.1 hy).1]
    exact ⟨a, rfl, rfl⟩
  · rw [if_neg hik, if_neg fun hjl => hik ((unique hij hkl).2 hjl)]
    exact ⟨b, hx, hy⟩

end Beside

/-! ### Problems and states -/

structure Paired (P P' : Problem α) (R : Nat → Nat → Prop) : Prop where
  matching : Graph.Matching P.flow P'.flow R
  analysis : P'.analysis = P.analysis
  options : P'.options = P.options
  nodes : Beside R P.nodes P'.nodes

/-- Equal values for all nodes. -/
theorem Paired.replicate {P P' : Problem α} {R : Nat → Nat → Prop} (h : Paired P P' R) {β : Type}
    {a b : β} (same : b = a) :
    Beside R (Array.replicate P.nodes.size a) (Array.replicate P'.nodes.size b) := by
  intro i j hij
  obtain ⟨node, hi, hj⟩ := h.nodes i j hij
  refine ⟨a, ?_, ?_⟩
  · rw [Array.getElem?_replicate, if_pos (Array.getElem?_eq_some_iff.1 hi).1]
  · rw [Array.getElem?_replicate, if_pos (Array.getElem?_eq_some_iff.1 hj).1, same]

structure InStep (R : Nat → Nat → Prop) (s t : State α) : Prop where
  queue : List.Forall₂ R s.queue t.queue
  queued : ∀ i j, R i j → (i ∈ s.queued ↔ j ∈ t.queued)
  incoming : Beside R s.incoming t.incoming
  outgoing : Beside R s.outgoing t.outgoing
  visits : Beside R s.visits t.visits
  cancelled : t.cancelled = s.cancelled

/-- Two steps come to the same end, or lead on to states in step. -/
inductive StepsAlike (R : Nat → Nat → Prop) : Step α → Step α → Prop
  | finished : StepsAlike R .finished .finished
  | stopped (events : List (Event α)) (why : Stop) :
      StepsAlike R (.stopped events why) (.stopped events why)
  | went {s t : State α} (event : Event α) (next : InStep R s t) :
      StepsAlike R (.went event s) (.went event t)

section Steps
variable {P P' : Problem α} {R : Nat → Nat → Prop} {s t : State α} {i j : Nat}

/-! ### One visit -/

theorem InStep.enqueue (unique : ∀ {i j i' j'}, R i i' → R j j' → (i = j ↔ i' = j'))
    (h : InStep R s t) (hij : R i j) : InStep R (enqueue s i) (enqueue t j) := by
  unfold Solver.enqueue
  simp only [Std.ExtTreeSet.contains_iff_mem, h.queued i j hij]
  split
  · exact h
  · refine { h with queue := ?_, queued := fun k l hkl => ?_ }
    · exact List.rel_append h.queue (.cons hij .nil)
    · rw [Std.ExtTreeSet.mem_insert, Std.ExtTreeSet.mem_insert, Nat.compare_eq_eq,
        Nat.compare_eq_eq, unique hij hkl, h.queued k l hkl]

theorem InStep.spread (h : Paired P P' R) (hs : InStep R s t) (hij : R i j) (out : α)
    {targets targets' : List Nat} (htargets : List.Forall₂ R targets targets') :
    InStep R (spread s i out targets) (spread t j out targets') := by
  have hset : InStep R { s with outgoing := s.outgoing.setIfInBounds i out }
      { t with outgoing := t.outgoing.setIfInBounds j out } :=
    { hs with outgoing := hs.outgoing.set h.matching.unique hij out }
  unfold Solver.spread
  generalize { s with outgoing := s.outgoing.setIfInBounds i out } = s at hset
  generalize { t with outgoing := t.outgoing.setIfInBounds j out } = t at hset
  induction htargets generalizing s t with
  | nil => exact hset
  | cons hkl _ ih => exact ih _ _ (hset.enqueue h.matching.unique hkl)

theorem InStep.settle (h : Paired P P' R) (hs : InStep R s t) (hij : R i j) (count : Nat)
    (location : Location) (fact : α) {rest rest' : List Nat} (hrest : List.Forall₂ R rest rest') :
    InStep R (settle P s i count location fact rest) (settle P' t j count location fact rest') where
  queue := hrest
  queued k l hkl := by
    simp only [Solver.settle, Std.ExtTreeSet.mem_erase, hs.queued k l hkl, ne_eq, Nat.compare_eq_eq,
      h.matching.unique hij hkl]
  incoming := hs.incoming.set h.matching.unique hij fact
  outgoing := hs.outgoing
  visits := hs.visits.set h.matching.unique hij (count + 1)
  cancelled := by simp only [Solver.settle, hs.cancelled, h.analysis, h.options]

variable [DecidableEq α]

theorem InStep.update (h : Paired P P' R) (hs : InStep R s t) (hij : R i j) (count : Nat)
    (point : Point) (fact old out : α) :
    StepsAlike R (update P s i count point fact old out)
      (update P' t j count point fact old out) := by
  obtain ⟨targets, targets', hnext, hnext', htargets⟩ := h.matching.successors hij
  simp only [Solver.update, hnext, hnext', h.analysis, h.options]
  split
  · exact .went _ hs
  split
  · exact .stopped _ _
  · exact .went _ (hs.spread h hij out htargets)

theorem InStep.visit (h : Paired P P' R) (hs : InStep R s t) (hij : R i j)
    {rest rest' : List Nat} (hrest : List.Forall₂ R rest rest')
    (flows : flowIn P' t j = flowIn P s i) :
    StepsAlike R (visit P s i rest) (visit P' t j rest') := by
  obtain ⟨⟨point, location⟩, hnode, hnode'⟩ := h.nodes i j hij
  obtain ⟨count, hcount, hcount'⟩ := hs.visits i j hij
  obtain ⟨old, hold, hold'⟩ := hs.outgoing i j hij
  simp only [Solver.visit, hnode, hnode', hcount, hcount', hold, hold', flows, h.analysis,
    h.options]
  split
  · exact .stopped _ _
  split
  · exact .stopped _ _
  split
  · exact .stopped _ _
  · exact (hs.settle h hij count location _ hrest).update h hij count point _ old _

/-- The same becomes of two states in step, where the same fact flows into the next points. -/
theorem InStep.step (h : Paired P P' R) (hs : InStep R s t)
    (flows : ∀ i rest j, s.queue = i :: rest → R i j → flowIn P' t j = flowIn P s i) :
    StepsAlike R (step P s) (step P' t) := by
  have hqueue := hs.queue
  unfold Solver.step
  generalize hs' : s.queue = queue at hqueue
  generalize t.queue = queue' at hqueue
  cases hqueue with
  | nil => exact .finished
  | @cons i j rest rest' hij hrest =>
    simp only [hs.cancelled, h.options]
    split
    · exact .stopped _ _
    · exact hs.visit h hij hrest (flows i rest j hs' hij)

/-! ### Runs -/

omit [DecidableEq α] in
/-- Runs that list partners begin in step. -/
theorem InStep.initial (h : Paired P P' R) {order order' : List Nat}
    (horder : List.Forall₂ R order order') :
    InStep R (initialState P order) (initialState P' order') where
  queue := horder
  queued k l hkl := by
    simp only [initialState, Std.ExtTreeSet.mem_ofList, List.contains_eq_mem, decide_eq_true_iff]
    constructor
    · intro hk
      obtain ⟨l', hl, hkl'⟩ := exists_right horder hk
      rwa [(h.matching.unique hkl hkl').1 rfl]
    · intro hl
      obtain ⟨k', hk, hkl'⟩ := exists_left horder hl
      rwa [(h.matching.unique hkl hkl').2 rfl]
  incoming := h.replicate (by rw [h.analysis])
  outgoing := h.replicate (by rw [h.analysis])
  visits := h.replicate rfl
  cancelled := by simp only [initialState, h.options]

/-- Two runs from states in step end with one error, or in states in step. -/
theorem InStep.loop (h : Paired P P' R) {keeps : State α → State α → Prop}
    (flows : ∀ s t, keeps s t → InStep R s t → ∀ i rest j, s.queue = i :: rest → R i j →
      flowIn P' t j = flowIn P s i)
    (next : ∀ s t, keeps s t → ∀ (v : Visit P s) (w : Visit P' t), keeps v.next w.next)
    (steps : Nat) (hs : InStep R s t) (hk : keeps s t) (before before' : List (Event α)) :
    SameEnd (fun final final' => InStep R final final' ∧ keeps final final')
      (loop P steps s before).2 (loop P' steps t before').2 := by
  induction steps generalizing s t before before' with
  | zero => exact .error _
  | succ steps ih =>
    have hstep := hs.step h (flows s t hk hs)
    unfold Solver.loop
    generalize hnext : Solver.step P s = r at hstep
    generalize hnext' : Solver.step P' t = r' at hstep
    cases hstep with
    | finished => exact .ok ⟨hs, hk⟩
    | stopped events why => exact .error why
    | went event hs' =>
      obtain ⟨v, rfl, -⟩ := step_went hnext
      obtain ⟨w, rfl, -⟩ := step_went hnext'
      exact ih hs' (next s t hk v w) _ _

/-! ### Limits on steps -/

/-- No run comes to its limit, so a larger one changes nothing. -/
theorem loop_enough {order : List Nat} (hP : P.WellFormed)
    (hs : Invariant P (initialState P order)) {steps : Nat} (enough : stepLimit P ≤ steps) :
    (loop P steps (initialState P order) []).2 =
      (loop P (stepLimit P) (initialState P order) []).2 := by
  obtain ⟨pops, outcome, hends, hpops, -⟩ := exists_ends hP
    (fun _ _ (_ : True) _ => trivial) hs (budgeted_initial P order) trivial
  have hlimit : pops < stepLimit P := by
    unfold stepLimit
    omega
  rw [hends.loop_eq hlimit, hends.loop_eq (hlimit.trans_le enough)]

end Steps

end FlowFacts.Solver
