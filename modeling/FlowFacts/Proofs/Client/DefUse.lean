import FlowFacts.Proofs.Client.Reflection

/-! The values of locals follow what operations say they read and write.

An operation names the local that it writes and the locals that it reads. The analysis of values
goes by the cases of the operation itself, and agrees with both: an operation that writes a local
gives it one value, found from the locals that it reads (`exists_value`), and every other operation
leaves the fact as it is (`execute_of_written_none`). That holds of every fact, also one that lists
a local without a value, and where the written local is read: what counts is what it held before. -/
namespace FlowFacts

namespace Location

/-- The local that is written here, if one is. -/
def written? (l : Location) : Option Local := l.operation?.bind Operation.written?

/-- The locals that are read here. -/
def localsRead (l : Location) : List Local := (l.operation?.map Operation.localsRead).getD []

end Location

namespace Reflection

/-- The facts give some locals the same values. -/
def Agree (bound : Nat) (locals : List Local) (fact other : LocalValues) : Prop :=
  ∀ l ∈ locals, fact.getOrTop (values bound) l = other.getOrTop (values bound) l

section Operations
variable {bound : Nat} {fact other : LocalValues} {operation : Operation} {dst : Local}

/-- A literal has its value whatever the locals hold. -/
theorem eval_congr {operand : Operand} (agree : Agree bound operand.local?.toList fact other) :
    eval bound fact operand = eval bound other operand := by
  cases operand with
  | slot l => exact agree l List.mem_cons_self
  | text value => rfl
  | type name => rfl
  | null => rfl

/-- A written local gets a value that depends on the locals that are read. -/
theorem exists_value (bound : Nat) (hwritten : operation.written? = some dst) :
    ∃ value : LocalValues → ValueSet SymbolicValue,
      (∀ fact, execute bound fact operation = fact.insert (values bound) dst (value fact)) ∧
        ∀ fact other, Agree bound operation.localsRead fact other → value fact = value other := by
  cases operation with
  | assign d src =>
    cases hwritten
    exact ⟨fun fact => eval bound fact src, fun _ => rfl, fun _ _ => eval_congr⟩
  | load d =>
    cases hwritten
    exact ⟨fun _ => .singleton bound .opaqueValue, fun _ => rfl, fun _ _ _ => rfl⟩
  | call callee args d =>
    cases hwritten
    exact ⟨fun _ => .singleton bound .opaqueValue, fun _ => rfl, fun _ _ _ => rfl⟩
  | assume capability => cases hwritten
  | ret value => cases hwritten
  | nop => cases hwritten

/-- What writes no local leaves every fact as it is. -/
theorem execute_of_written_none (hwritten : operation.written? = none) :
    execute bound fact operation = fact := by
  cases operation with
  | assign d src => cases hwritten
  | load d => cases hwritten
  | call callee args d =>
    cases hwritten
    rfl
  | assume capability => rfl
  | ret value => rfl
  | nop => rfl

/-- A local that is not written keeps its entry, or stays without one. -/
theorem get?_execute_of_ne {l : Local} (hne : operation.written? ≠ some l) :
    (execute bound fact operation).get? l = fact.get? l := by
  cases hwritten : operation.written? with
  | none => rw [execute_of_written_none hwritten]
  | some dst =>
    obtain ⟨value, hexecute, -⟩ := exists_value bound hwritten
    have hother : dst ≠ l := fun heq => hne (hwritten.trans (congrArg some heq))
    rw [hexecute, MapFact.get?_insert, if_neg hother]

/-- The written local gets the same entry from facts that agree on the locals that are read. -/
theorem get?_execute_of_agree (hwritten : operation.written? = some dst)
    (agree : Agree bound operation.localsRead fact other) :
    (execute bound fact operation).get? dst = (execute bound other operation).get? dst := by
  obtain ⟨value, hexecute, hreads⟩ := exists_value bound hwritten
  rw [hexecute, hexecute, MapFact.get?_insert, MapFact.get?_insert, if_pos rfl, if_pos rfl,
    hreads fact other agree]

end Operations

/-- **A transfer reads and writes what its operation says.** At every location and for any two
facts, a local that is not written keeps its entry and so its value; the one that is written gets
the same from facts that give the locals that are read the same values; and where none is written,
as in an empty block, the fact comes out as it went in. -/
theorem transfer_reads_writes (bound : Nat) (l : Location) (fact other : LocalValues) :
    ∃ out out', (localValues bound).transfer.apply l fact = .ok out ∧
      (localValues bound).transfer.apply l other = .ok out' ∧
      (∀ x, l.written? ≠ some x → out.get? x = fact.get? x ∧
        out.getOrTop (values bound) x = fact.getOrTop (values bound) x) ∧
      (∀ x, l.written? = some x → Agree bound l.localsRead fact other →
        out.get? x = out'.get? x ∧
          out.getOrTop (values bound) x = out'.getOrTop (values bound) x) ∧
      (l.written? = none → out = fact) := by
  -- A local's value is that of its entry, so that it is enough to look at entries.
  have hvalue {a b : LocalValues} {x : Local} (h : a.get? x = b.get? x) : a.get? x = b.get? x ∧
      a.getOrTop (values bound) x = b.getOrTop (values bound) x :=
    ⟨h, by rw [MapFact.getOrTop, h, MapFact.getOrTop]⟩
  refine ⟨_, _, localValues_apply bound l fact, localValues_apply bound l other, ?_⟩
  unfold Location.written? Location.localsRead
  cases l.operation? with
  | none =>
    refine ⟨fun _ _ => hvalue rfl, fun x hwritten => ?_, fun _ => rfl⟩
    cases hwritten
  | some operation =>
    exact ⟨fun x hne => hvalue (get?_execute_of_ne hne),
      fun x hwritten agree => hvalue (get?_execute_of_agree hwritten agree),
      execute_of_written_none⟩

/-- A copy of a local without a value takes the value of the other away. -/
example : (execute 4 (MapFact.ofList (values 4) [(⟨0⟩, .singleton 4 .null)])
    (.assign ⟨0⟩ (.slot ⟨1⟩))).keys = [] := by decide +kernel

end Reflection

end FlowFacts
