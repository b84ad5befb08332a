import FlowFacts.Lattice.Basic
import Mathlib.Data.List.Forall2

/-! The laws of a lattice.

The records of functions hold no laws; a lattice has them on a class of facts that
its top and its meets belong to (`LawfulOn`). There a fact that is its own meet with
another lies below it (`Below`), and lying below is an order in which the meet of two
facts is the greatest that lies below both (`OrderedOn`), and so is the meet of many. -/
namespace FlowFacts

/-- The laws of a meet alone. -/
structure SemiLattice.LawfulOn {α : Type} (L : SemiLattice α) (K : α → Prop) : Prop where
  meet_mem : ∀ a b, K a → K b → K (L.meet a b)
  meet_self : ∀ a, K a → L.meet a a = a
  meet_comm : ∀ a b, K a → K b → L.meet a b = L.meet b a
  meet_assoc : ∀ a b c, K a → K b → K c → L.meet (L.meet a b) c = L.meet a (L.meet b c)

namespace Lattice
variable {α : Type}

structure LawfulOn (L : Lattice α) (K : α → Prop) : Prop where
  top_mem : K L.top
  meet_mem : ∀ a b, K a → K b → K (L.meet a b)
  meet_self : ∀ a, K a → L.meet a a = a
  meet_comm : ∀ a b, K a → K b → L.meet a b = L.meet b a
  meet_assoc : ∀ a b c, K a → K b → K c → L.meet (L.meet a b) c = L.meet a (L.meet b c)
  meet_top : ∀ a, K a → L.meet a L.top = a

theorem LawfulOn.semi {L : Lattice α} {K : α → Prop} (h : L.LawfulOn K) :
    L.toSemiLattice.LawfulOn K :=
  ⟨h.meet_mem, h.meet_self, h.meet_comm, h.meet_assoc⟩

/-- A lawful meet with a top that it leaves out. -/
theorem LawfulOn.ofSemi {L : Lattice α} {K : α → Prop} (h : L.toSemiLattice.LawfulOn K)
    (top_mem : K L.top) (meet_top : ∀ a, K a → L.meet a L.top = a) : L.LawfulOn K :=
  ⟨top_mem, h.meet_mem, h.meet_self, h.meet_comm, h.meet_assoc, meet_top⟩

/-- The laws hold on a smaller class that has the top and the meets of its facts. -/
theorem LawfulOn.restrict {L : Lattice α} {K K' : α → Prop} (h : L.LawfulOn K)
    (sub : ∀ a, K' a → K a) (top_mem : K' L.top)
    (meet_mem : ∀ a b, K' a → K' b → K' (L.meet a b)) : L.LawfulOn K' where
  top_mem := top_mem
  meet_mem := meet_mem
  meet_self a ha := h.meet_self a (sub a ha)
  meet_comm a b ha hb := h.meet_comm a b (sub a ha) (sub b hb)
  meet_assoc a b c ha hb hc := h.meet_assoc a b c (sub a ha) (sub b hb) (sub c hc)
  meet_top a ha := h.meet_top a (sub a ha)

/-- The first fact says at least what the second says. -/
def Below (L : Lattice α) (a b : α) : Prop := L.meet a b = a

theorem lessOrEqual_iff [DecidableEq α] (L : Lattice α) (a b : α) :
    L.lessOrEqual a b ↔ L.Below a b := decide_eq_true_iff

namespace LawfulOn
variable {L : Lattice α} {K : α → Prop} {a b c d : α}

theorem refl (h : L.LawfulOn K) (ha : K a) : L.Below a a := h.meet_self a ha

theorem below_top (h : L.LawfulOn K) (ha : K a) : L.Below a L.top := h.meet_top a ha

/-- Only the top has nothing but the top above it. -/
theorem eq_top_of_top_below (h : L.LawfulOn K) (ha : K a) (htop : L.Below L.top a) : a = L.top := by
  unfold Below at htop
  rw [← htop, h.meet_comm _ a h.top_mem ha, h.meet_top a ha]

theorem trans (h : L.LawfulOn K) (ha : K a) (hb : K b) (hc : K c) (hab : L.Below a b)
    (hbc : L.Below b c) : L.Below a c := by
  unfold Below at *
  rw [← hab, h.meet_assoc a b c ha hb hc, hbc]

theorem antisymm (h : L.LawfulOn K) (ha : K a) (hb : K b) (hab : L.Below a b)
    (hba : L.Below b a) : a = b := by
  unfold Below at *
  rw [← hab, h.meet_comm a b ha hb, hba]

theorem meet_below_left (h : L.LawfulOn K) (ha : K a) (hb : K b) : L.Below (L.meet a b) a := by
  unfold Below
  rw [h.meet_comm _ a (h.meet_mem a b ha hb) ha, ← h.meet_assoc a a b ha ha hb, h.meet_self a ha]

theorem meet_below_right (h : L.LawfulOn K) (ha : K a) (hb : K b) : L.Below (L.meet a b) b := by
  unfold Below
  rw [h.meet_assoc a b b ha hb hb, h.meet_self b hb]

/-- Facts that say something meet to one that does. -/
theorem meet_ne_top (h : L.LawfulOn K) (ha : K a) (hb : K b) (hne : a ≠ L.top) :
    L.meet a b ≠ L.top := by
  intro heq
  have hbelow := h.meet_below_left ha hb
  rw [heq] at hbelow
  exact hne (h.eq_top_of_top_below ha hbelow)

theorem below_meet (h : L.LawfulOn K) (ha : K a) (hb : K b) (hc : K c) (hab : L.Below a b)
    (hac : L.Below a c) : L.Below a (L.meet b c) := by
  unfold Below at *
  rw [← h.meet_assoc a b c ha hb hc, hab, hac]

theorem below_meet_iff (h : L.LawfulOn K) (ha : K a) (hb : K b) (hc : K c) :
    L.Below a (L.meet b c) ↔ L.Below a b ∧ L.Below a c := by
  have hbc := h.meet_mem b c hb hc
  constructor
  · intro hle
    exact ⟨h.trans ha hbc hb hle (h.meet_below_left hb hc),
      h.trans ha hbc hc hle (h.meet_below_right hb hc)⟩
  · intro hboth
    exact h.below_meet ha hb hc hboth.1 hboth.2

theorem meet_mono (h : L.LawfulOn K) (ha : K a) (hb : K b) (hc : K c) (hd : K d)
    (hac : L.Below a c) (hbd : L.Below b d) : L.Below (L.meet a b) (L.meet c d) := by
  have hab := h.meet_mem a b ha hb
  exact h.below_meet hab hc hd (h.trans hab ha hc (h.meet_below_left ha hb) hac)
    (h.trans hab hb hd (h.meet_below_right ha hb) hbd)

/-! ### Many facts -/

theorem foldl_mem (h : L.LawfulOn K) {facts : List α} (hfacts : ∀ f ∈ facts, K f) (ha : K a) :
    K (facts.foldl L.meet a) := by
  induction facts generalizing a with
  | nil => exact ha
  | cons f facts ih =>
    exact ih (fun g hg => hfacts g (List.mem_cons_of_mem f hg))
      (h.meet_mem a f ha (hfacts f List.mem_cons_self))

/-- Lower facts have a lower meet. -/
theorem foldl_mono (h : L.LawfulOn K) {low high : List α} (hlow : ∀ f ∈ low, K f)
    (hhigh : ∀ f ∈ high, K f) (ha : K a) (hb : K b) (hab : L.Below a b)
    (hall : List.Forall₂ L.Below low high) :
    L.Below (low.foldl L.meet a) (high.foldl L.meet b) := by
  induction hall generalizing a b with
  | nil => exact hab
  | @cons f g low high hfg _ ih =>
    have hf := hlow f List.mem_cons_self
    have hg := hhigh g List.mem_cons_self
    exact ih (fun k hk => hlow k (List.mem_cons_of_mem f hk))
      (fun k hk => hhigh k (List.mem_cons_of_mem g hk)) (h.meet_mem a f ha hf)
      (h.meet_mem b g hb hg) (h.meet_mono ha hf hb hg hab hfg)

/-- A fact lies below the meet of many when it lies below each. -/
theorem below_foldl_iff (h : L.LawfulOn K) {facts : List α} (hfacts : ∀ f ∈ facts, K f)
    (ha : K a) (hb : K b) :
    L.Below b (facts.foldl L.meet a) ↔ L.Below b a ∧ ∀ f ∈ facts, L.Below b f := by
  induction facts generalizing a with
  | nil => simp
  | cons f facts ih =>
    have hf := hfacts f List.mem_cons_self
    rw [List.foldl_cons, ih (fun g hg => hfacts g (List.mem_cons_of_mem f hg))
      (h.meet_mem a f ha hf), h.below_meet_iff hb ha hf, List.forall_mem_cons, and_assoc]

/-- The meet of many lies below what it starts from and below each. -/
theorem foldl_below (h : L.LawfulOn K) {facts : List α} (hfacts : ∀ f ∈ facts, K f) (ha : K a) :
    L.Below (facts.foldl L.meet a) a ∧ ∀ f ∈ facts, L.Below (facts.foldl L.meet a) f :=
  (h.below_foldl_iff hfacts ha (h.foldl_mem hfacts ha)).1 (h.refl (h.foldl_mem hfacts ha))

end LawfulOn

/-! ### The order -/

section Order
variable [DecidableEq α]

/-- The greatest fact of a class that lies below all of some. -/
structure GreatestBelow (L : Lattice α) (K : α → Prop) (items : List α) (a : α) : Prop where
  mem : K a
  below : ∀ b ∈ items, L.lessOrEqual a b
  greatest : ∀ c, K c → (∀ b ∈ items, L.lessOrEqual c b) → L.lessOrEqual c a

/-- Comparing is an order with the top above all, in which meets are greatest below. -/
structure OrderedOn (L : Lattice α) (K : α → Prop) : Prop where
  top_meet : ∀ a, K a → L.meet L.top a = a
  isTop_iff : ∀ a, K a → (L.isTop a ↔ a = L.top)
  refl : ∀ a, K a → L.lessOrEqual a a
  antisymm : ∀ a b, K a → K b → L.lessOrEqual a b → L.lessOrEqual b a → a = b
  trans : ∀ a b c, K a → K b → K c → L.lessOrEqual a b → L.lessOrEqual b c → L.lessOrEqual a c
  le_top : ∀ a, K a → L.lessOrEqual a L.top
  meet : ∀ a b, K a → K b → L.GreatestBelow K [a, b] (L.meet a b)
  meetAll : ∀ items, (∀ a ∈ items, K a) → L.GreatestBelow K items (L.meetAll items)
  /-- Neither order nor repeats count. -/
  meetAll_eq : ∀ items others, (∀ a ∈ items, K a) → (∀ a, a ∈ items ↔ a ∈ others) →
    L.meetAll items = L.meetAll others

namespace LawfulOn
variable {L : Lattice α} {K : α → Prop}

theorem meetAll_greatest (h : L.LawfulOn K) {items : List α} (hitems : ∀ a ∈ items, K a) :
    L.GreatestBelow K items (L.meetAll items) where
  mem := h.foldl_mem hitems h.top_mem
  below b hb := (L.lessOrEqual_iff _ b).2 ((h.foldl_below hitems h.top_mem).2 b hb)
  greatest c hc hle := by
    simp only [lessOrEqual_iff] at hle ⊢
    exact (h.below_foldl_iff hitems h.top_mem hc).2 ⟨h.below_top hc, hle⟩

/-- There is one greatest fact below some at most. -/
theorem greatest_unique (h : L.LawfulOn K) {items others : List α} {a b : α}
    (ha : L.GreatestBelow K items a) (hb : L.GreatestBelow K others b)
    (same : ∀ c, c ∈ items ↔ c ∈ others) : a = b :=
  h.antisymm ha.mem hb.mem
    ((L.lessOrEqual_iff a b).1 (hb.greatest a ha.mem fun c hc => ha.below c ((same c).2 hc)))
    ((L.lessOrEqual_iff b a).1 (ha.greatest b hb.mem fun c hc => hb.below c ((same c).1 hc)))

theorem ordered (h : L.LawfulOn K) (tells : ∀ a, L.isTop a ↔ a = L.top) : L.OrderedOn K := by
  constructor
  case top_meet =>
    intro a ha
    rw [h.meet_comm _ a h.top_mem ha, h.meet_top a ha]
  case isTop_iff => exact fun a _ => tells a
  case meet =>
    intro a b ha hb
    constructor
    case mem => exact h.meet_mem a b ha hb
    case below => simp [lessOrEqual_iff, h.meet_below_left ha hb, h.meet_below_right ha hb]
    case greatest =>
      intro c hc hle
      simp only [lessOrEqual_iff, List.forall_mem_cons] at hle ⊢
      exact h.below_meet hc ha hb hle.1 hle.2.1
  case meetAll => exact fun items hitems => h.meetAll_greatest hitems
  case meetAll_eq =>
    intro items others hitems same
    exact h.greatest_unique (h.meetAll_greatest hitems)
      (h.meetAll_greatest fun a ha => hitems a ((same a).2 ha)) same
  all_goals simp only [lessOrEqual_iff]
  case refl => exact fun a ha => h.refl ha
  case antisymm => exact fun a b ha hb => h.antisymm ha hb
  case trans => exact fun a b c ha hb hc => h.trans ha hb hc
  case le_top => exact fun a ha => h.below_top ha

end LawfulOn

end Order

end Lattice

end FlowFacts
