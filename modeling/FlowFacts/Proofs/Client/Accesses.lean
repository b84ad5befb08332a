import FlowFacts.Proofs.Client.Reflection

/-! Which calls the sites are of.

A callee may be annotated with more than one argument that names a member. A site is found at
every call, live or dead, to a callee with such an annotation, for the argument of the first one;
and no other site is found (`sites_of_first`). So every annotation has its site exactly when no
callee names two arguments, and of a callee that does, the names in the other are not reported
(`second_access_unseen`). -/
namespace FlowFacts

theorem ControlFlowGraph.point_of_accessesAt {c : ControlFlowGraph} {p : Point}
    {access : Point × String × Nat} (h : access ∈ c.accessesAt p) : access.1 = p := by
  unfold accessesAt at h
  split at h
  · obtain ⟨argument, -, rfl⟩ := List.mem_map.1 h
    rfl
  · cases h

namespace Reflection
open Solver
variable {m : Method}

/-- The sites are those of the first access of every call, in the order of points. Every access
has its site exactly where no callee has two that differ. -/
theorem sites_of_first {o : Options} {found : List ReflectionSite} (built : m.body.Built)
    (h : sites m o = .ok found) :
    found.map ReflectionSite.subject =
        m.body.points.filterMap (fun p => (m.body.accessesAt p).head?) ∧
      (∀ site ∈ found, site.subject ∈ m.body.accessesAt site.point) ∧
        ((∀ p ∈ m.body.points, ∀ access ∈ m.body.accessesAt p,
            ∃ site ∈ found, site.subject = access) ↔
          ∀ p ∈ m.body.points, ∀ a ∈ m.body.accessesAt p, ∀ b ∈ m.body.accessesAt p, a = b) := by
  have hsubjects := sites_subjects built.wellFormed h
  have hfirst (access : Point × String × Nat) :
      (∃ site ∈ found, site.subject = access) ↔
        ∃ p ∈ m.body.points, (m.body.accessesAt p).head? = some access := by
    rw [← List.mem_map, hsubjects, List.mem_filterMap]
  refine ⟨hsubjects, fun site hsite => ?_, fun hall p hp a ha b hb => ?_, fun hall p hp a ha => ?_⟩
  · obtain ⟨p, -, hhead⟩ := (hfirst site.subject).1 ⟨site, hsite, rfl⟩
    have hmem := List.mem_of_head? hhead
    have hpoint : site.point = p := ControlFlowGraph.point_of_accessesAt hmem
    rwa [hpoint]
  · -- both are the first access of the one point
    have hhead (access : Point × String × Nat) (haccess : access ∈ m.body.accessesAt p) :
        (m.body.accessesAt p).head? = some access := by
      obtain ⟨q, -, hq⟩ := (hfirst access).1 (hall p hp access haccess)
      have hsame := ControlFlowGraph.point_of_accessesAt (List.mem_of_head? hq)
      rwa [← hsame.symm.trans (ControlFlowGraph.point_of_accessesAt haccess)]
    exact Option.some.inj ((hhead a ha).symm.trans (hhead b hb))
  · obtain ⟨b, hb⟩ := Option.isSome_iff_exists.1
      (List.isSome_head?.2 (List.ne_nil_of_mem ha))
    cases hall p hp a ha b (List.mem_of_head? hb)
    exact (hfirst a).2 ⟨p, hp, hb⟩

/-- A callee that looks up a member by its first argument and another by its second. -/
def twoLookups : Method where
  name := "Copy"
  annotations := []
  body := .build [.newBlock,
    .push 0 (.call ⟨"Members.Copy", [.reflectionAccess 0, .reflectionAccess 1]⟩
      [.text "Source", .text "Target"] none), .setEntry 0]

theorem sites_of_first_twoLookups : twoLookups.body.Built ∧ ∃ found,
    sites twoLookups {} = .ok found ∧ found.map ReflectionSite.subject =
      twoLookups.body.points.filterMap fun p => (twoLookups.body.accessesAt p).head? := by
  have built : twoLookups.body.Built := ⟨_, rfl⟩
  obtain ⟨found, h⟩ := exists_of_isOk (e := sites twoLookups {}) (by decide +kernel)
  exact ⟨built, found, h, (sites_of_first built h).1⟩

/-- The second annotation of a callee has no site. -/
theorem second_access_unseen : twoLookups.body.Built ∧ ∃ found p callee args dst,
    sites twoLookups {} = .ok found ∧
      twoLookups.body.operationAt? p = some (.call callee args dst) ∧
        .reflectionAccess 1 ∈ callee.annotations ∧
          ¬ ∃ site ∈ found, site.point = p ∧ site.argument = 1 := by
  refine ⟨⟨_, rfl⟩, [⟨.instruction 0 0, "Members.Copy", 0, .resolved (.ofList ["Source"])⟩],
    .instruction 0 0, ⟨"Members.Copy", [.reflectionAccess 0, .reflectionAccess 1]⟩,
    [.text "Source", .text "Target"], none, by decide +kernel, by decide +kernel, by decide, ?_⟩
  simp

end Reflection

end FlowFacts
