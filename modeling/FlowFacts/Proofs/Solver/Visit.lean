import FlowFacts.Proofs.Graph.Consistent
import FlowFacts.Solver.Worklist
import Mathlib.Data.List.Nodup

/-! What a step of the solver does.

A step that goes on is a visit to the point at the head of the queue (`Visit`,
`step_went`). It writes the facts of that point only, and leaves listed the points
that were listed before and those it lists. The queue and the set of queued points
agree throughout (`Listed`), and what flows into a point depends on what flows out
of its sources alone (`flowIn_congr`). -/
namespace FlowFacts.Solver
variable {α : Type}

/-! ### The queue -/

/-- No point is queued twice, and the set beside the queue has its points. -/
structure Listed (s : State α) : Prop where
  nodup : s.queue.Nodup
  queued : ∀ i, i ∈ s.queued ↔ i ∈ s.queue

/-- List several points. -/
def enqueueAll (s : State α) (targets : List Nat) : State α := targets.foldl enqueue s

/-- Listing a point leaves everything but the queue as it was. -/
theorem enqueue_eq (s : State α) (i : Nat) :
    ∃ queue queued, enqueue s i = { s with queue, queued } := by
  unfold enqueue
  split
  · exact ⟨s.queue, s.queued, rfl⟩
  · exact ⟨_, _, rfl⟩

theorem enqueueAll_eq (s : State α) (targets : List Nat) :
    ∃ queue queued, enqueueAll s targets = { s with queue, queued } := by
  induction targets generalizing s with
  | nil => exact ⟨s.queue, s.queued, rfl⟩
  | cons i targets ih =>
    obtain ⟨queue, queued, hone⟩ := enqueue_eq s i
    obtain ⟨queue', queued', hall⟩ := ih (enqueue s i)
    refine ⟨queue', queued', hall.trans ?_⟩
    rw [hone]

theorem Listed.enqueue {s : State α} (h : Listed s) (i : Nat) :
    Listed (enqueue s i) ∧ ∀ j, j ∈ (Solver.enqueue s i).queue ↔ j ∈ s.queue ∨ j = i := by
  unfold Solver.enqueue
  by_cases hi : s.queued.contains i
  · have hmem : i ∈ s.queue := (h.queued i).1 (Std.ExtTreeSet.contains_iff_mem.1 hi)
    rw [if_pos hi]
    exact ⟨h, fun j => ⟨.inl, fun hj => hj.elim id fun heq => heq ▸ hmem⟩⟩
  · have hnew : i ∉ s.queue := fun hmem =>
      hi (Std.ExtTreeSet.contains_iff_mem.2 ((h.queued i).2 hmem))
    rw [if_neg hi]
    refine ⟨⟨?_, fun j => ?_⟩, by simp⟩
    · exact List.nodup_append.2 ⟨h.nodup, List.nodup_singleton i,
        fun j hj k hk heq => hnew (List.mem_singleton.1 hk ▸ heq ▸ hj)⟩
    · simp only [Std.ExtTreeSet.mem_insert, Nat.compare_eq_eq, h.queued, List.mem_append,
        List.mem_singleton, eq_comm (a := i), or_comm (a := j = i)]

theorem Listed.enqueueAll {s : State α} (h : Listed s) (targets : List Nat) :
    Listed (enqueueAll s targets) ∧
      ∀ j, j ∈ (Solver.enqueueAll s targets).queue ↔ j ∈ s.queue ∨ j ∈ targets := by
  induction targets generalizing s with
  | nil => exact ⟨h, by simp [Solver.enqueueAll]⟩
  | cons i targets ih =>
    obtain ⟨hi, hmem⟩ := h.enqueue i
    obtain ⟨hall, hmems⟩ := ih hi
    refine ⟨hall, fun j => ?_⟩
    rw [List.mem_cons, ← or_assoc, ← hmem]
    exact hmems j

/-- What is listed is not listed again. -/
theorem enqueueAll_same {s : State α} {targets : List Nat} (h : ∀ j ∈ targets, j ∈ s.queued) :
    enqueueAll s targets = s := by
  induction targets with
  | nil => rfl
  | cons i targets ih =>
    obtain ⟨hi, hrest⟩ := List.forall_mem_cons.1 h
    have hsame : enqueue s i = s := if_pos (Std.ExtTreeSet.contains_iff_mem.2 hi)
    calc enqueueAll s (i :: targets) = enqueueAll (enqueue s i) targets := rfl
      _ = enqueueAll s targets := by rw [hsame]
      _ = s := ih hrest

/-! ### The first state -/

section Initial
variable {P : Problem α} {order : List Nat} {i : Nat}

theorem initialState_incoming {a : α} (h : (initialState P order).incoming[i]? = some a) :
    a = P.analysis.lattice.top := by
  simp only [initialState, Array.getElem?_replicate] at h
  split at h <;> cases h
  rfl

theorem initialState_outgoing {a : α} (h : (initialState P order).outgoing[i]? = some a) :
    a = P.analysis.lattice.top := by
  simp only [initialState, Array.getElem?_replicate] at h
  split at h <;> cases h
  rfl

theorem initialState_visits {n : Nat} (h : (initialState P order).visits[i]? = some n) :
    n = 0 := by
  simp only [initialState, Array.getElem?_replicate] at h
  split at h <;> cases h
  rfl

end Initial

/-! ### A visit -/

/-- A visit to the point at the head of the queue, with what it reads and computes. -/
structure Visit [DecidableEq α] (P : Problem α) (s : State α) where
  index : Nat
  rest : List Nat
  point : Point
  location : Location
  count : Nat
  old : α
  fact : α
  out : α
  targets : List Nat
  head : s.queue = index :: rest
  running : s.cancelled = false
  node : P.nodes[index]? = some (point, location)
  visited : s.visits[index]? = some count
  flowed : s.outgoing[index]? = some old
  budget : count + 1 ≤ P.options.budget
  flows : flowIn P s index = .ok fact
  transfers : P.analysis.transfer.apply location fact = .ok out
  falls : out = old ∨ (P.options.verify → P.analysis.lattice.lessOrEqual out old)
  /-- The points that what flows out goes to, if it has changed. -/
  changed : (out = old ∧ targets = []) ∨ (out ≠ old ∧ P.flow.successorIndices index = .ok targets)

namespace Visit
variable [DecidableEq α] {P : Problem α} {s : State α}

/-- The state after the visit. -/
def next (v : Visit P s) : State α :=
  spread (settle P s v.index v.count v.location v.fact v.rest) v.index v.out v.targets

/-- The state after the visit, before other points are listed. -/
def settled (v : Visit P s) : State α :=
  { settle P s v.index v.count v.location v.fact v.rest with
    outgoing := s.outgoing.setIfInBounds v.index v.out }

theorem next_eq (v : Visit P s) : v.next = enqueueAll v.settled v.targets := rfl

/-- Only the facts and the visits of the point are written. -/
theorem next_keeps (v : Visit P s) : ∃ queue queued cancelled, v.next = { s with
    queue, queued, cancelled
    incoming := s.incoming.setIfInBounds v.index v.fact
    outgoing := s.outgoing.setIfInBounds v.index v.out
    visits := s.visits.setIfInBounds v.index (v.count + 1) } := by
  obtain ⟨queue, queued, h⟩ := enqueueAll_eq v.settled v.targets
  exact ⟨queue, queued, _, (next_eq v).trans h⟩

@[simp]
theorem incoming_next (v : Visit P s) :
    v.next.incoming = s.incoming.setIfInBounds v.index v.fact := by
  obtain ⟨_, _, _, h⟩ := v.next_keeps
  rw [h]

@[simp]
theorem outgoing_next (v : Visit P s) :
    v.next.outgoing = s.outgoing.setIfInBounds v.index v.out := by
  obtain ⟨_, _, _, h⟩ := v.next_keeps
  rw [h]

@[simp]
theorem visits_next (v : Visit P s) :
    v.next.visits = s.visits.setIfInBounds v.index (v.count + 1) := by
  obtain ⟨_, _, _, h⟩ := v.next_keeps
  rw [h]

theorem incoming_cases (v : Visit P s) {i : Nat} {a : α} (h : v.next.incoming[i]? = some a) :
    (i = v.index ∧ a = v.fact) ∨ (i ≠ v.index ∧ s.incoming[i]? = some a) := by
  rw [v.incoming_next, Array.getElem?_setIfInBounds] at h
  split at h
  · split at h <;> cases h
    exact .inl ⟨Eq.symm ‹_›, rfl⟩
  · exact .inr ⟨Ne.symm ‹_›, h⟩

theorem outgoing_cases (v : Visit P s) {i : Nat} {a : α} (h : v.next.outgoing[i]? = some a) :
    (i = v.index ∧ a = v.out) ∨ (i ≠ v.index ∧ s.outgoing[i]? = some a) := by
  rw [v.outgoing_next, Array.getElem?_setIfInBounds] at h
  split at h
  · split at h <;> cases h
    exact .inl ⟨Eq.symm ‹_›, rfl⟩
  · exact .inr ⟨Ne.symm ‹_›, h⟩

theorem visits_cases (v : Visit P s) {i n : Nat} (h : v.next.visits[i]? = some n) :
    (i = v.index ∧ n = v.count + 1) ∨ (i ≠ v.index ∧ s.visits[i]? = some n) := by
  rw [v.visits_next, Array.getElem?_setIfInBounds] at h
  split at h
  · split at h <;> cases h
    exact .inl ⟨Eq.symm ‹_›, rfl⟩
  · exact .inr ⟨Ne.symm ‹_›, h⟩

theorem listed_settled (v : Visit P s) (h : Listed s) : Listed v.settled := by
  have hnodup := h.nodup
  rw [v.head, List.nodup_cons] at hnodup
  refine ⟨hnodup.2, fun j => ?_⟩
  simp only [settled, settle, Std.ExtTreeSet.mem_erase, h.queued, v.head, List.mem_cons]
  constructor
  · intro hqueued
    obtain ⟨hne, hj⟩ := hqueued
    rcases hj with rfl | hj
    · simp at hne
    · exact hj
  · intro hj
    refine ⟨fun heq => hnodup.1 ?_, .inr hj⟩
    rw [Nat.compare_eq_eq.1 heq]
    exact hj

theorem listed_next (v : Visit P s) (h : Listed s) :
    Listed v.next ∧ ∀ j, j ∈ v.next.queue ↔ j ∈ v.rest ∨ j ∈ v.targets :=
  (v.listed_settled h).enqueueAll v.targets

/-- Where all that the visit would list is listed, the queue loses its head and nothing else. -/
theorem queue_next_of_listed (v : Visit P s) (h : Listed s)
    (listed : ∀ j ∈ v.targets, j ∈ v.rest) : v.next.queue = v.rest := by
  rw [next_eq, enqueueAll_same fun j hj => ((v.listed_settled h).queued j).2 (listed j hj)]
  rfl

/-- Another point stays queued, or is listed. -/
theorem mem_next_of_ne (v : Visit P s) (h : Listed s) {i : Nat} (hne : i ≠ v.index) :
    i ∈ v.next.queue ↔ i ∈ s.queue ∨ i ∈ v.targets := by
  rw [(v.listed_next h).2, v.head, List.mem_cons]
  simp [hne]

end Visit

/-! ### Steps -/

/-- Writing back what is there changes nothing. -/
theorem setIfInBounds_same {xs : Array α} {i : Nat} {a : α} (h : xs[i]? = some a) :
    xs.setIfInBounds i a = xs := by
  refine Array.ext_getElem? fun j => ?_
  rw [Array.getElem?_setIfInBounds]
  split
  · subst_vars
    split
    · exact h.symm
    · simp_all
  · rfl

theorem spread_same {s : State α} {i : Nat} {a : α} (h : s.outgoing[i]? = some a) :
    spread s i a [] = s := by
  simp only [spread, List.foldl_nil, setIfInBounds_same h]

theorem step_went [DecidableEq α] {P : Problem α} {s t : State α} {e : Event α}
    (h : step P s = .went e t) :
    ∃ v : Visit P s, t = v.next ∧ e = .visited (v.count + 1) v.point v.fact v.out := by
  unfold step at h
  split at h
  · cases h
  rename_i index rest hhead
  split at h
  · cases h
  rename_i hrunning
  unfold visit at h
  split at h
  rotate_left
  · cases h
  rename_i point location count old hnode hcount hold
  split at h
  · cases h
  rename_i hbudget
  split at h
  · cases h
  rename_i fact hfact
  split at h
  · cases h
  rename_i out hout
  unfold update at h
  split at h
  · rename_i hsame
    obtain ⟨rfl, rfl⟩ := Step.went.inj h
    exact ⟨⟨index, rest, point, location, count, old, fact, out, [], hhead, by simpa using hrunning,
      hnode, hcount, hold, by omega, hfact, hout, .inl hsame, .inl ⟨hsame, rfl⟩⟩,
      (spread_same (s := settle P s index count location fact rest) (hsame ▸ hold)).symm, rfl⟩
  rename_i hdiffers
  split at h
  · cases h
  rename_i hfalls
  split at h
  · cases h
  rename_i targets htargets
  obtain ⟨rfl, rfl⟩ := Step.went.inj h
  exact ⟨⟨index, rest, point, location, count, old, fact, out, targets, hhead,
    by simpa using hrunning, hnode, hcount, hold, by omega, hfact, hout,
    .inr fun hverify => by simpa [hverify] using hfalls, .inr ⟨hdiffers, htargets⟩⟩, rfl, rfl⟩

/-- A run is over when no point is left to visit. -/
theorem step_finished [DecidableEq α] {P : Problem α} {s : State α} (h : step P s = .finished) :
    s.queue = [] := by
  unfold step at h
  split at h
  · assumption
  · unfold visit update at h
    grind

/-- What every step keeps holds at the end of a run, where no point is left to visit. -/
theorem loop_keeps [DecidableEq α] {P : Problem α} {keeps : State α → Prop}
    (hstep : ∀ s, keeps s → ∀ v : Visit P s, keeps v.next) (steps : Nat) {s final : State α}
    {before after : List (Event α)} (h : loop P steps s before = (after, .ok final))
    (hs : keeps s) : keeps final ∧ final.queue = [] := by
  induction steps generalizing s before with
  | zero => cases h
  | succ steps ih =>
    unfold loop at h
    cases hnext : step P s with
    | finished =>
      simp only [hnext, Prod.mk.injEq, Except.ok.injEq] at h
      obtain ⟨-, rfl⟩ := h
      exact ⟨hs, step_finished hnext⟩
    | stopped events why => simp [hnext] at h
    | went event next =>
      obtain ⟨v, rfl, -⟩ := step_went hnext
      exact ih (by simpa only [hnext] using h) (hstep s hs v)

/-! ### What flows in -/

/-- The graph of a problem is consistent and its vertices are the numbers of the nodes. -/
structure Problem.WellFormed (P : Problem α) : Prop where
  consistent : P.flow.Consistent
  vertices : ∀ i, P.flow.hasVertex i ↔ i < P.nodes.size
  start : P.start < P.nodes.size

/-- The fact that sources add to. -/
def base (P : Problem α) (index : Nat) : α :=
  if index = P.start then P.initial else P.analysis.lattice.top

theorem meetAt_ok {L : Lattice α} {outgoing : Array α} {fact met : α} {points : List Nat} :
    meetAt L outgoing fact points = .ok met ↔
      ∃ facts, List.Forall₂ (outgoing[·]? = some ·) points facts ∧
        met = facts.foldl L.meet fact := by
  unfold meetAt
  induction points generalizing fact with
  | nil => simp [pure, Except.pure, eq_comm]
  | cons i points ih =>
    rw [List.foldlM_cons]
    cases hi : outgoing[i]? with
    | none => simp [bind, Except.bind, List.forall₂_cons_left_iff, hi]
    | some out => simpa [bind, Except.bind, List.forall₂_cons_left_iff, hi] using ih

theorem meetAt_congr {L : Lattice α} {old new : Array α} {points : List Nat}
    (size : old.size = new.size) (same : ∀ i ∈ points, old[i]? = new[i]?) (fact : α) :
    meetAt L old fact points = meetAt L new fact points := by
  unfold meetAt
  induction points generalizing fact with
  | nil => rfl
  | cons i points ih =>
    rw [List.foldlM_cons, List.foldlM_cons, same i List.mem_cons_self, size]
    cases new[i]? with
    | none => rfl
    | some out =>
      simp only [size] at ih
      exact ih (fun j hj => same j (List.mem_cons_of_mem i hj)) (L.meet fact out)

namespace Problem.WellFormed
variable {P : Problem α}

theorem predecessors (h : P.WellFormed) {i : Nat} (hi : i < P.nodes.size) :
    ∃ sources, P.flow.predecessorIndices i = .ok sources ∧ sources.Pairwise (· < ·) ∧
      ∀ j, j ∈ sources ↔ P.flow.hasEdge j i :=
  h.consistent.predecessorIndices ((h.vertices i).2 hi)

theorem successors (h : P.WellFormed) {i : Nat} (hi : i < P.nodes.size) :
    ∃ targets, P.flow.successorIndices i = .ok targets ∧ targets.Pairwise (· < ·) ∧
      ∀ j, j ∈ targets ↔ P.flow.hasEdge i j :=
  h.consistent.successorIndices ((h.vertices i).2 hi)

/-- What flows in is what flows out of the sources, met in order. -/
theorem flowIn_ok (h : P.WellFormed) {s : State α} {i : Nat} (hi : i < P.nodes.size) {fact : α} :
    flowIn P s i = .ok fact ↔ ∃ sources facts, P.flow.predecessorIndices i = .ok sources ∧
      List.Forall₂ (s.outgoing[·]? = some ·) sources facts ∧
        fact = facts.foldl P.analysis.lattice.meet (base P i) := by
  obtain ⟨sources, hsources, -⟩ := h.predecessors hi
  have : flowIn P s i = meetAt P.analysis.lattice s.outgoing (base P i) sources := by
    simp only [flowIn, hsources, Stop.ofError, bind, Except.bind, base]
  rw [this, meetAt_ok]
  simp [hsources]

/-- What flows in depends on what flows out of the sources alone. -/
theorem flowIn_congr (h : P.WellFormed) {s t : State α} {i : Nat} (hi : i < P.nodes.size)
    (size : s.outgoing.size = t.outgoing.size)
    (same : ∀ j, P.flow.hasEdge j i → s.outgoing[j]? = t.outgoing[j]?) :
    flowIn P s i = flowIn P t i := by
  obtain ⟨sources, hsources, -, hmem⟩ := h.predecessors hi
  simp only [flowIn, hsources, Stop.ofError, bind, Except.bind]
  exact meetAt_congr size (fun j hj => same j ((hmem j).1 hj)) _

end Problem.WellFormed

namespace Visit
variable [DecidableEq α] {P : Problem α} {s : State α}

theorem index_lt (v : Visit P s) : v.index < P.nodes.size :=
  (Array.getElem?_eq_some_iff.1 v.node).1

theorem edge_of_targets (hP : P.WellFormed) (v : Visit P s) {i : Nat} (hi : i ∈ v.targets) :
    P.flow.hasEdge v.index i := by
  rcases v.changed with ⟨-, hnil⟩ | ⟨-, hok⟩
  · simp [hnil] at hi
  · obtain ⟨targets, hok', -, hmem⟩ := hP.successors v.index_lt
    cases hok.symm.trans hok'
    exact (hmem i).1 hi

/-- What flows into a point that the visit does not list is as it was. -/
theorem flowIn_next (hP : P.WellFormed) (v : Visit P s) {i : Nat} (hi : i < P.nodes.size)
    (hlisted : i ∉ v.targets) : flowIn P v.next i = flowIn P s i := by
  refine hP.flowIn_congr hi (by simp) fun j hedge => ?_
  rw [v.outgoing_next]
  rcases v.changed with ⟨hsame, -⟩ | ⟨-, htargets⟩
  · rw [setIfInBounds_same (hsame ▸ v.flowed)]
  · refine Array.getElem?_setIfInBounds_ne fun heq => ?_
    subst heq
    obtain ⟨targets, hok, -, hmem⟩ := hP.successors v.index_lt
    cases htargets.symm.trans hok
    exact hlisted ((hmem i).2 hedge)

end Visit

end FlowFacts.Solver
