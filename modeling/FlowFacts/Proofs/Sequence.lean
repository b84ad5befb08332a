import FlowFacts.Error
import Mathlib.Data.List.Forall2

/-! Steps that may fail, one after another, and lists side by side.

A sequence of steps succeeds when each step does, and its answers stand beside the items
they belong to (`mapM_eq_ok`). Where an item may occur twice, its last place is the one that
counts (`LastAt`). -/
namespace FlowFacts

/-! ### Lists side by side -/

section Beside
variable {β γ δ : Type} {R : β → γ → Prop} {l : List β} {r : List γ}

theorem exists_left (h : List.Forall₂ R l r) {b : γ} (hb : b ∈ r) : ∃ a ∈ l, R a b := by
  induction h with
  | nil => cases hb
  | cons ha _ ih =>
    rcases List.mem_cons.1 hb with rfl | hb
    · exact ⟨_, List.mem_cons_self, ha⟩
    · obtain ⟨a, ha, hr⟩ := ih hb
      exact ⟨a, List.mem_cons_of_mem _ ha, hr⟩

theorem exists_right (h : List.Forall₂ R l r) {a : β} (ha : a ∈ l) : ∃ b ∈ r, R a b :=
  exists_left (R := flip R) (List.Forall₂.flip h) ha

/-- Each item has another answer that compares with the first. -/
theorem forall_compare {S : β → δ → Prop} {T : γ → δ → Prop} (h : List.Forall₂ R l r)
    (other : ∀ i a, R i a → ∃ b, S i b ∧ T a b) :
    ∃ r', List.Forall₂ S l r' ∧ List.Forall₂ T r r' := by
  induction h with
  | nil => exact ⟨[], .nil, .nil⟩
  | cons ha _ ih =>
    obtain ⟨b, hb, hab⟩ := other _ _ ha
    obtain ⟨r', hr, hall⟩ := ih
    exact ⟨b :: r', .cons hb hr, .cons hab hall⟩

/-- Two lists that stand beside a third stand beside each other. -/
theorem forall_join {S : δ → γ → Prop} {T : β → δ → Prop} {l' : List δ}
    (h : List.Forall₂ R l r) (h' : List.Forall₂ S l' r)
    (join : ∀ a b d, b ∈ r → R a b → S d b → T a d) : List.Forall₂ T l l' := by
  induction h generalizing l' with
  | nil =>
    cases h'
    exact .nil
  | cons ha _ ih =>
    cases h' with
    | cons hd hrest =>
      exact .cons (join _ _ _ List.mem_cons_self ha hd)
        (ih hrest fun a b d hb => join a b d (List.mem_cons_of_mem _ hb))

/-- What a step takes over from either side, a run of steps takes over from each item. -/
theorem foldl_of_mem {step : β → β → β} {motive : β → Prop}
    (either : ∀ a b, motive a ∨ motive b → motive (step a b)) {a : β} (ha : a ∈ l) (h : motive a)
    (base : β) : motive (l.foldl step base) := by
  induction l generalizing base with
  | nil => cases ha
  | cons b rest ih =>
    rcases List.mem_cons.1 ha with rfl | ha
    · exact List.foldlRecOn rest step (either base a (.inr h)) fun c hc d _ => either c d (.inl hc)
    · exact ih ha (step base b)

/-- What holds along a list holds of what stands beside it. -/
theorem pairwise_beside {S : β → β → Prop} {T : γ → γ → Prop} (h : List.Forall₂ R l r)
    (along : l.Pairwise S) (each : ∀ a a' b b', R a b → R a' b' → S a a' → T b b') :
    r.Pairwise T := by
  induction h with
  | nil => exact .nil
  | cons ha hrest ih =>
    obtain ⟨hfirst, hl⟩ := List.pairwise_cons.1 along
    refine List.pairwise_cons.2 ⟨fun b hb => ?_, ih hl⟩
    obtain ⟨a, ha', hr⟩ := exists_left hrest hb
    exact each _ a _ b ha hr (hfirst a ha')

end Beside

/-- Where each item is found, what is found stands beside the items. -/
theorem filterMap_beside {β γ : Type} {f : β → Option γ} {l : List β}
    (found : ∀ a ∈ l, ∃ b, f a = some b) : List.Forall₂ (f · = some ·) l (l.filterMap f) := by
  induction l with
  | nil => exact .nil
  | cons a l ih =>
    obtain ⟨b, hb⟩ := found a List.mem_cons_self
    rw [List.filterMap_cons_some hb]
    exact .cons hb (ih fun x hx => found x (List.mem_cons_of_mem a hx))

/-! ### The last place -/

/-- The list has the item there, and nowhere later. -/
def LastAt {β : Type} (l : List β) (i : Nat) (b : β) : Prop :=
  l[i]? = some b ∧ ∀ j, l[j]? = some b → j ≤ i

section LastAt
variable {β : Type} {l : List β} {i : Nat} {b c : β}

theorem lastAt_of_nodup (nodup : l.Nodup) (h : l[i]? = some b) : LastAt l i b := by
  refine ⟨h, fun j hj => ?_⟩
  have hlt := (List.getElem?_eq_some_iff.1 h).1
  exact Nat.le_of_eq ((List.getElem?_inj hlt nodup).1 (h.trans hj.symm)).symm

theorem lastAt_concat (l : List β) (b : β) : LastAt (l ++ [b]) l.length b := by
  refine ⟨by simp, fun j hj => ?_⟩
  have hlt := (List.getElem?_eq_some_iff.1 hj).1
  simp only [List.length_append, List.length_singleton] at hlt
  omega

/-- Another item at the end does not matter. -/
theorem LastAt.concat (h : LastAt l i b) (other : c ≠ b) : LastAt (l ++ [c]) i b := by
  obtain ⟨hi, hlast⟩ := h
  have hlt := (List.getElem?_eq_some_iff.1 hi).1
  refine ⟨by rw [List.getElem?_append_left hlt, hi], fun j hj => ?_⟩
  rcases Nat.lt_or_ge j l.length with hold | hnew
  · exact hlast j (by rwa [List.getElem?_append_left hold] at hj)
  · rw [List.getElem?_append_right hnew, List.getElem?_singleton] at hj
    split at hj <;> cases hj
    exact absurd rfl other

end LastAt

/-! ### Answers or errors -/

theorem exists_of_isOk {ε β : Type} {e : Except ε β} (h : e.isOk) : ∃ b, e = .ok b := by
  cases e with
  | error e => cases h
  | ok b => exact ⟨b, rfl⟩

theorem map_eq_ok {ε β γ : Type} {e : Except ε β} {g : β → γ} {c : γ} :
    e.map g = .ok c ↔ ∃ b, e = .ok b ∧ c = g b := by
  cases e <;> simp [Except.map, eq_comm]

/-- An answer that needs another is there when both are. -/
theorem needs_eq_ok {ε β γ : Type} {e : Except ε β} {f : β → Except ε γ} {c : γ} :
    e >>= f = .ok c ↔ ∃ b, e = .ok b ∧ f b = .ok c := by
  cases e <;> simp [bind, Except.bind]

theorem exists_map {ε β γ : Type} {e : Except ε β} {g : β → γ} :
    (∃ c, e.map g = .ok c) ↔ ∃ b, e = .ok b := by
  cases e <;> simp [Except.map]

/-- An answer that needs another, and is there with any of those when `p` holds. -/
theorem exists_needs {ε β γ : Type} {e : Except ε β} {f : β → Except ε γ} {p : Prop}
    (h : ∀ b, (∃ c, f b = .ok c) ↔ p) : (∃ c, e >>= f = .ok c) ↔ (∃ b, e = .ok b) ∧ p := by
  cases e with
  | error e => simp [bind, Except.bind]
  | ok b => simpa [bind, Except.bind] using h b

/-- An answer that needs another and nothing else. -/
theorem exists_needs_pure {ε β γ : Type} {e : Except ε β} {g : β → γ} :
    (∃ c, (do let b ← e; pure (g b)) = .ok c) ↔ ∃ b, e = .ok b := by
  cases e <;> simp [bind, Except.bind, pure, Except.pure]

theorem map_needs {ε β γ δ : Type} (e : Except ε β) (f : β → Except ε γ) (g : γ → δ) :
    (e >>= f).map g = e >>= fun b => (f b).map g := by
  cases e <;> rfl

/-- A step that can only fail with an error, after one that has succeeded. -/
theorem ofError_eq_ok {β γ : Type} {e : Except Stop β} {f : β → Except Error γ} {c : γ} :
    (do let b ← e; Stop.ofError (f b)) = .ok c ↔ ∃ b, e = .ok b ∧ f b = .ok c := by
  cases e with
  | error why => simp [bind, Except.bind]
  | ok b => cases h : f b <;> simp [bind, Except.bind, Stop.ofError, h]

/-- Two computations end with one error, or with answers that are related. -/
inductive SameEnd {β γ : Type} (R : β → γ → Prop) : Except Stop β → Except Stop γ → Prop
  | error (why : Stop) : SameEnd R (.error why) (.error why)
  | ok {b : β} {c : γ} (related : R b c) : SameEnd R (.ok b) (.ok c)

section SameEnd
variable {β γ δ ε : Type} {R : β → γ → Prop} {S : δ → ε → Prop} {e : Except Stop β}
  {e' : Except Stop γ}

theorem SameEnd.exists_of_isOk (h : SameEnd R e e') (isOk : e.isOk) :
    ∃ b c, e = .ok b ∧ e' = .ok c ∧ R b c := by
  cases h with
  | error why => cases isOk
  | ok related => exact ⟨_, _, rfl, rfl, related⟩

theorem SameEnd.bind {f : β → Except Stop δ} {f' : γ → Except Stop ε} (h : SameEnd R e e')
    (next : ∀ b c, R b c → SameEnd S (f b) (f' c)) : SameEnd S (e >>= f) (e' >>= f') := by
  cases h with
  | error why => exact .error why
  | ok related => exact next _ _ related

theorem SameEnd.map {f : β → δ} {f' : γ → ε} (h : SameEnd R e e')
    (next : ∀ b c, R b c → S (f b) (f' c)) : SameEnd S (e.map f) (e'.map f') := by
  cases h with
  | error why => exact .error why
  | ok related => exact .ok (next _ _ related)

end SameEnd

section Answers
variable {ε α β : Type} {f : α → Except ε β} {l : List α} {r : List β}

theorem mapM_eq_ok : l.mapM f = .ok r ↔ List.Forall₂ (f · = .ok ·) l r := by
  induction l generalizing r with
  | nil => simp [pure, Except.pure, eq_comm]
  | cons a l ih =>
    rw [List.mapM_cons, List.forall₂_cons_left_iff]
    cases ha : f a with
    | error e => simp [bind, Except.bind]
    | ok b =>
      cases hl : l.mapM f with
      | error e =>
        simp only [bind, Except.bind, reduceCtorEq, false_iff]
        intro htail
        obtain ⟨b, r', _, hr, _⟩ := htail
        simp [hl, ← ih] at hr
      | ok r' =>
        simp only [bind, Except.bind, pure, Except.pure, Except.ok.injEq, ← ih, hl]
        constructor
        · intro h
          exact ⟨b, r', rfl, rfl, h.symm⟩
        · intro hsplit
          obtain ⟨_, _, hb, hr, h⟩ := hsplit
          rw [h, hb, hr]

theorem exists_mapM (h : ∀ a ∈ l, ∃ b, f a = .ok b) : ∃ r, l.mapM f = .ok r := by
  induction l with
  | nil => exact ⟨[], rfl⟩
  | cons a l ih =>
    obtain ⟨b, hb⟩ := h a List.mem_cons_self
    obtain ⟨r, hr⟩ := ih fun x hx => h x (List.mem_cons_of_mem a hx)
    exact ⟨b :: r, by simp [List.mapM_cons, hb, hr, bind, Except.bind, pure, Except.pure]⟩

theorem exists_mapM_iff : (∃ r, l.mapM f = .ok r) ↔ ∀ a ∈ l, ∃ b, f a = .ok b := by
  refine ⟨fun h a ha => ?_, exists_mapM⟩
  obtain ⟨r, hr⟩ := h
  obtain ⟨b, -, hb⟩ := exists_right (mapM_eq_ok.1 hr) ha
  exact ⟨b, hb⟩

/-- Answers of two functions that agree along two lists are the answers along the second. -/
theorem mapM_of_forall {γ : Type} {key : γ → Option α} {value : γ → Option β} {keys : List γ}
    (hkeys : List.Forall₂ (key · = some ·) keys l)
    (hvalues : List.Forall₂ (value · = some ·) keys r)
    (agree : ∀ i a b, key i = some a → value i = some b → f a = .ok b) : l.mapM f = .ok r := by
  rw [mapM_eq_ok]
  induction hkeys generalizing r with
  | nil =>
    cases hvalues
    exact .nil
  | cons ha _ ih =>
    cases hvalues with
    | cons hb hrest => exact .cons (agree _ _ _ ha hb) (ih hrest)

end Answers

/-! ### Steps on a state -/

section Steps
variable {σ α β : Type} {step : EStateM Error σ α} {rest : α → EStateM Error σ β} {s t : σ}

theorem bind_ok {a : α} (h : step s = .ok a t) : (step >>= rest) s = rest a t := by
  show EStateM.bind step rest s = _
  simp only [EStateM.bind, h]

/-- The first error ends the steps. -/
theorem bind_error {e : Error} (h : step s = .error e t) : (step >>= rest) s = .error e t := by
  show EStateM.bind step rest s = _
  simp only [EStateM.bind, h]

/-- Two steps have gone well when each has. -/
theorem bind_eq_ok {b : β} :
    (step >>= rest) s = .ok b t ↔ ∃ a u, step s = .ok a u ∧ rest a u = .ok b t := by
  constructor
  · intro h
    cases hstep : step s with
    | ok a u => exact ⟨a, u, rfl, (bind_ok hstep).symm.trans h⟩
    | error e u => cases (bind_error hstep).symm.trans h
  · intro h
    obtain ⟨a, u, hstep, hrest⟩ := h
    exact (bind_ok hstep).trans hrest

/-- A known answer is a step that leaves the state as it was. -/
theorem ofExcept_eq_ok {e : Except Error α} {a : α} :
    (MonadExcept.ofExcept e : EStateM Error σ α) s = .ok a t ↔ e = .ok a ∧ t = s := by
  cases e with
  | ok b =>
    show EStateM.Result.ok b s = .ok a t ↔ _
    simp [eq_comm]
  | error e =>
    show EStateM.Result.error e s = .ok a t ↔ _
    simp

/-- What each of the steps keeps, all of them keep. -/
theorem forM_keeps {motive : σ → Prop} {f : α → EStateM Error σ Unit} {l : List α}
    (each : ∀ a ∈ l, ∀ s t, motive s → f a s = .ok () t → motive t) (hs : motive s)
    (h : forM l f s = .ok () t) : motive t := by
  induction l generalizing s with
  | nil =>
    cases h
    exact hs
  | cons a l ih =>
    rw [List.forM_cons, bind_eq_ok] at h
    obtain ⟨⟨⟩, u, ha, hl⟩ := h
    exact ih (fun b hb => each b (List.mem_cons_of_mem a hb))
      (each a List.mem_cons_self s u hs ha) hl

theorem forM_congr {f g : α → EStateM Error σ Unit} {l : List α} (h : ∀ a ∈ l, f a = g a) :
    forM l f = forM l g := by
  induction l with
  | nil => rfl
  | cons a l ih =>
    rw [List.forM_cons, List.forM_cons, h a List.mem_cons_self,
      ih fun x hx => h x (List.mem_cons_of_mem a hx)]

theorem forM_flatMap (f : α → List β) (g : β → EStateM Error σ Unit) (l : List α) :
    forM (l.flatMap f) g = forM l fun a => forM (f a) g := by
  induction l with
  | nil => rfl
  | cons a l ih => rw [List.flatMap_cons, List.forM_append, List.forM_cons, ih]

end Steps

end FlowFacts
