import FlowFacts.Proofs.Sequence
import FlowFacts.Solver.Worklist

/-! What the settings change.

Preparing reads the direction and the cancellation flag of the settings (`prepare_withOptions`).
A step reads also the budget and whether facts are checked to fall, and these two only guard it:
under stricter settings it is the step of the laxer ones, or a guard stops it for a reason that is
its own (`Guarded`, `step_withOptions`). -/
namespace FlowFacts

/-- The same settings, with guards that let no more through. -/
structure Options.Stricter (o lax : Options) : Prop where
  direction : o.direction = lax.direction
  cancellation : o.cancellation = lax.cancellation
  budget : o.budget ≤ lax.budget
  verify : lax.verify → o.verify

theorem Options.Stricter.of_budget_le (o : Options) {b b' : Nat} (le : b ≤ b') :
    Stricter { o with budget := b } { o with budget := b' } := ⟨rfl, rfl, le, id⟩

theorem Options.Stricter.of_verify (o : Options) :
    Stricter { o with verify := true } { o with verify := false } :=
  ⟨rfl, rfl, Nat.le_refl _, fun _ => rfl⟩

namespace Solver
variable {α : Type}

/-! ### Preparing -/

/-- The problem under other settings. -/
def Problem.withOptions (P : Problem α) (o : Options) : Problem α := { P with options := o }

section WithOptions
variable (P : Problem α) (o : Options)

@[simp]
theorem options_withOptions : (P.withOptions o).options = o := rfl

@[simp]
theorem nodes_withOptions : (P.withOptions o).nodes = P.nodes := rfl

@[simp]
theorem analysis_withOptions : (P.withOptions o).analysis = P.analysis := rfl

@[simp]
theorem flow_withOptions : (P.withOptions o).flow = P.flow := rfl

@[simp]
theorem flowIn_withOptions (s : State α) (index : Nat) :
    flowIn (P.withOptions o) s index = flowIn P s index := rfl

end WithOptions

/-- The direction and the flag are all that preparing reads of the settings. -/
theorem prepare_withOptions (A : Analysis α) (c : ControlFlowGraph) (initial : α) (o o' : Options)
    (direction : o'.direction = o.direction) (cancellation : o'.cancellation = o.cancellation) :
    prepare A c initial o' =
      (prepare A c initial o).map fun r => (r.1.withOptions o', r.2) := by
  simp only [prepare, map_needs, direction]
  simp only [pure, Except.pure, Except.map, Problem.withOptions, initialState,
    Options.isCancelled, cancellation]

/-! ### One step -/

/-- Under the settings a guard stops the run here, where the problem's own let it go on. -/
inductive Guarded [DecidableEq α] (P : Problem α) (o : Options) (s : State α) : Stop → Prop
  | budget {index count : Nat} {rest : List Nat} {point : Point} {location : Location}
      (head : s.queue = index :: rest) (node : P.nodes[index]? = some (point, location))
      (visited : s.visits[index]? = some count) (spent : o.budget ≤ count)
      (smaller : o.budget < P.options.budget) :
      Guarded P o s (.error (.budgetExceeded point o.budget))
  | rose {index : Nat} {point : Point} {location : Location} {fact old out : α}
      (node : P.nodes[index]? = some (point, location)) (flows : flowIn P s index = .ok fact)
      (transfers : P.analysis.transfer.apply location fact = .ok out)
      (flowed : s.outgoing[index]? = some old)
      (rises : ¬ P.analysis.lattice.lessOrEqual out old) (on : o.verify)
      (off : P.options.verify = false) : Guarded P o s (.error (.nonMonotone point))

section Step
variable [DecidableEq α] {P : Problem α} {o : Options} (h : o.Stricter P.options)
include h

theorem update_withOptions (settled : State α) (index count : Nat) (point : Point)
    (fact old out : α) :
    update (P.withOptions o) settled index count point fact old out =
        update P settled index count point fact old out ∨
      (∃ events, update (P.withOptions o) settled index count point fact old out =
        .stopped events (.error (.nonMonotone point))) ∧
          ¬ P.analysis.lattice.lessOrEqual out old ∧ o.verify ∧ P.options.verify = false := by
  by_cases hsame : o.verify = P.options.verify
  · refine .inl ?_
    simp only [update, options_withOptions, analysis_withOptions, flow_withOptions, hsame]
  · have hoff : P.options.verify = false :=
      Bool.eq_false_iff.2 fun hlax => hsame ((h.verify hlax).trans hlax.symm)
    have hon : o.verify := by simpa [hoff] using hsame
    by_cases hfalls : out = old ∨ P.analysis.lattice.lessOrEqual out old
    · refine .inl ?_
      rcases hfalls with hkept | hbelow
      · simp only [update, if_pos hkept]
      · simp [update, hbelow]
    · obtain ⟨hdiffers, hrises⟩ := not_or.1 hfalls
      refine .inr ⟨⟨[.visited (count + 1) point fact out, .rose point old out], ?_⟩, hrises, hon,
        hoff⟩
      rw [update, if_neg hdiffers, if_pos (by simpa [hon] using hrises)]

omit [DecidableEq α] in
theorem settle_withOptions (s : State α) (index count : Nat) (location : Location) (fact : α)
    (rest : List Nat) : settle (P.withOptions o) s index count location fact rest =
      settle P s index count location fact rest := by
  simp only [settle, options_withOptions, analysis_withOptions, h.cancellation]

theorem visit_withOptions {s : State α} {index : Nat} {rest : List Nat}
    (head : s.queue = index :: rest) :
    visit (P.withOptions o) s index rest = visit P s index rest ∨ ∃ events why,
      visit (P.withOptions o) s index rest = .stopped events why ∧ Guarded P o s why := by
  simp only [visit, options_withOptions, nodes_withOptions, analysis_withOptions,
    flowIn_withOptions, settle_withOptions h]
  cases hnode : P.nodes[index]? with
  | none => exact .inl rfl
  | some node =>
    obtain ⟨point, location⟩ := node
    cases hcount : s.visits[index]? with
    | none => exact .inl rfl
    | some count =>
      cases hold : s.outgoing[index]? with
      | none => exact .inl rfl
      | some old =>
        simp only
        by_cases hspent : o.budget < count + 1
        · rcases Nat.eq_or_lt_of_le h.budget with hequal | hsmaller
          · exact .inl (by rw [if_pos hspent, hequal, if_pos (hequal ▸ hspent)])
          · exact .inr ⟨_, _, if_pos hspent,
              .budget head hnode hcount (Nat.lt_succ_iff.1 hspent) hsmaller⟩
        · have hroom : count + 1 ≤ P.options.budget := Nat.le_trans (Nat.not_lt.1 hspent) h.budget
          rw [if_neg hspent, if_neg (Nat.not_lt.2 hroom)]
          cases hflow : flowIn P s index with
          | error why => exact .inl rfl
          | ok fact =>
            simp only
            cases hout : P.analysis.transfer.apply location fact with
            | error e => exact .inl rfl
            | ok out =>
              refine (update_withOptions h ..).imp id fun hrose => ?_
              obtain ⟨⟨events, hstops⟩, hrises, hon, hoff⟩ := hrose
              exact ⟨events, _, hstops, .rose hnode hflow hout hold hrises hon hoff⟩

/-- Where the run goes on or ends under the laxer settings, it does so under the stricter ones, or
a guard stops it. -/
theorem step_withOptions (s : State α) : step (P.withOptions o) s = step P s ∨
    ∃ events why, step (P.withOptions o) s = .stopped events why ∧ Guarded P o s why := by
  unfold step
  cases hhead : s.queue with
  | nil => exact .inl rfl
  | cons index rest =>
    by_cases hcancelled : s.cancelled
    · refine .inl ?_
      simp only [if_pos hcancelled, options_withOptions, h.direction]
    · simp only [if_neg hcancelled]
      exact visit_withOptions h hhead

end Step

end Solver

end FlowFacts
