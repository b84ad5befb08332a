import FlowFacts.Proofs.Client.DeadCode

/-! How the clients end.

The transfers of both clients are monotone on every fact that arises in their runs, whatever
the bound, and they never fail. So the check that no fact rises never stops them: a client gives
its answer, unless it was cancelled before it began or a point has used up its visits
(`clients_settle`). -/
namespace FlowFacts

/-! ### Runs of monotone analyses -/

namespace Solver

/-- The answer is given, unless the run was cancelled before it began or a point used up the
budget. -/
def Settles (c : ControlFlowGraph) (o : Options) {β : Type} : Except Stop β → Prop
  | .ok _ => o.isCancelled = false
  | .error why => (o.isCancelled = true ∧ why = .error .cancelled) ∨
      (o.isCancelled = false ∧ ∃ p ∈ c.points, why = .error (.budgetExceeded p o.budget))

section Settles
variable {c : ControlFlowGraph} {o : Options} {α β : Type} {e : Except Stop α}

theorem Settles.ne_nonMonotone (h : Settles c o e) (p : Point) :
    e ≠ .error (.error (.nonMonotone p)) := by
  rintro rfl
  rcases h with ⟨-, heq⟩ | ⟨-, q, -, heq⟩ <;> cases heq

/-- What comes after the run does not fail on its answers. -/
theorem Settles.bind (h : Settles c o e) {f : α → Except Stop β}
    (succeeds : ∀ a, e = .ok a → ∃ b, f a = .ok b) : Settles c o (e.bind f) := by
  cases e with
  | ok a =>
    obtain ⟨b, hb⟩ := succeeds a rfl
    rw [Except.bind, hb]
    exact h
  | error why => exact h

/-- Nothing else stops a monotone analysis with transfers that never fail. -/
theorem fixedPoint_settles [DecidableEq α] {A : Analysis α} {K : α → Prop} {initial : α}
    {start : Point} (hc : c.WellFormed) (hstart : startPoint c o.direction = .ok start)
    (hA : A.MonotoneOn K) (total : A.TotalOn K) (quiet : A.Quiet) (hinitial : K initial) :
    Settles c o (fixedPoint A c initial o) := by
  cases hcancelled : o.isCancelled with
  | true =>
    rw [fixedPoint_cancelled hc hstart hcancelled]
    exact .inl ⟨hcancelled, rfl⟩
  | false =>
    rcases fixedPoint_ok_or_exceeded hc hstart hA total quiet hinitial hcancelled with
      ⟨store, hstore⟩ | ⟨p, hp, hexceeded⟩
    · rw [hstore]
      exact hcancelled
    · rw [hexceeded]
      exact .inr ⟨hcancelled, p, hp, rfl⟩

end Settles

end Solver

/-! ### The clients -/

open Solver
variable {m : Method} {o : Options} {first : Point}

namespace Capability

theorem assumed_total : assumed.TotalOn fun _ => True := fun l a _ => ⟨_, assumed_apply l a⟩

theorem assumed_quiet : assumed.Quiet := by
  intro l a
  obtain ⟨block, instruction⟩ := l
  cases instruction with
  | none => rfl
  | some i =>
    obtain ⟨operation, index⟩ := i
    cases operation <;> rfl

theorem uses_settles (hc : m.body.WellFormed) (hfirst : startPoint m.body .forward = .ok first) :
    Settles m.body o (uses m o) := by
  have hrun : Settles m.body o (solve m o).outcome :=
    fixedPoint_settles (o := { o with direction := .forward }) hc hfirst assumed_monotone
      assumed_total assumed_quiet trivial
  refine hrun.bind fun store hstore => ?_
  obtain ⟨hpoints, -⟩ := lookup_solve hc hstore
  obtain ⟨lists, hlists⟩ := exists_usesOf hc hpoints
  exact ⟨lists.flatten, by simp only [usesOf, hlists, Except.map, Stop.ofError]⟩

end Capability

namespace Reflection

theorem sites_settles (hc : m.body.WellFormed) (hfirst : startPoint m.body .forward = .ok first) :
    Settles m.body o (sites m o) := by
  have hrun : Settles m.body o (solve m o).outcome :=
    fixedPoint_settles (o := { o with direction := .forward }) hc hfirst
      (localValues_monotone o.bound) (localValues_total o.bound) (localValues_quiet o.bound)
      MapFact.wellFormed_empty
  refine hrun.bind fun store hstore => ?_
  obtain ⟨hpoints, -⟩ := lookup_solve hc hstore
  obtain ⟨found, hfound⟩ : ∃ found, sitesOf m o.bound store = .ok found :=
    exists_sitesOf hc hpoints
  exact ⟨found, by rw [hfound, Stop.ofError]⟩

end Reflection

/-- The transfers of the clients are monotone, those for capabilities on all facts and those for
locals on the facts within the bound, and no other facts arise. So the check never stops a
client: a method with an entry has its uses and its sites found, unless the client was cancelled
before it began or a point used up the budget. -/
theorem clients_settle {entry : Nat} (built : m.body.Built) (hentry : m.body.entry = some entry)
    (o : Options) :
    Capability.assumed.MonotoneOn (fun _ => True) ∧
    ((Reflection.localValues o.bound).MonotoneOn (Reflection.Proper o.bound) ∧
      ∀ fact, Arises (Reflection.localValues o.bound) m.body .empty { o with direction := .forward }
        fact → Reflection.Proper o.bound fact) ∧
    (Settles m.body o (Capability.uses m o) ∧ Settles m.body o (Reflection.sites m o)) ∧
    ∀ p, Capability.uses m o ≠ .error (.error (.nonMonotone p)) ∧
      Reflection.sites m o ≠ .error (.error (.nonMonotone p)) := by
  have hc := built.wellFormed
  obtain ⟨first, hfirst⟩ := exists_startPoint hc hentry
  have hlocals := Reflection.localValues_monotone o.bound
  have huses : Settles m.body o (Capability.uses m o) := Capability.uses_settles hc hfirst
  have hsites : Settles m.body o (Reflection.sites m o) := Reflection.sites_settles hc hfirst
  exact ⟨Capability.assumed_monotone,
    ⟨hlocals, fun fact harises => harises.mem hc hlocals.closed MapFact.wellFormed_empty⟩,
    ⟨huses, hsites⟩, fun p => ⟨huses.ne_nonMonotone p, hsites.ne_nonMonotone p⟩⟩

/-- A branch of which one arm writes the local that is read after it, with room for no value. -/
theorem clients_settle_branch :
    Reflection.branch.body.Built ∧ Reflection.branch.body.entry = some 0 ∧
      Settles Reflection.branch.body { bound := 0 }
          (Capability.uses Reflection.branch { bound := 0 }) ∧
        Settles Reflection.branch.body { bound := 0 }
          (Reflection.sites Reflection.branch { bound := 0 }) := by
  have built : Reflection.branch.body.Built := ⟨_, rfl⟩
  have hentry : Reflection.branch.body.entry = some 0 := by decide +kernel
  obtain ⟨-, -, ⟨huses, hsites⟩, -⟩ := clients_settle built hentry { bound := 0 }
  exact ⟨built, hentry, huses, hsites⟩

end FlowFacts
