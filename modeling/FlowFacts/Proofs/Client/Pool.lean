import FlowFacts.Client.Pool
import Mathlib.Data.List.Perm.Basic
import Mathlib.Data.List.Sort

/-! Any interleaving of workers gives the results in the order of the methods.

The numbers that workers hold and those whose methods have been analyzed are together the
numbers below the counter, each once, and the results that workers keep are those of the
analyzed methods (`Shared`). A worker that has stopped has seen the counter past the last
method, so when all have stopped every method was analyzed once, and sorting the results by
their numbers puts them in the order of the methods (`results_of_schedule`). A worker that
has not stopped has made progress with each of its moves (`turns_of_active`), so the workers
stop under every schedule that lets each move often enough. -/
namespace FlowFacts.Pool
variable {α : Type}

/-! ### What the workers have -/

namespace Activity

/-- The number that a worker has claimed and not yet dealt with. -/
def claimed? : Activity → Option Nat
  | .claimed index => some index
  | .idle | .stopped | .aborted _ => none

/-- The worker still has something to do. -/
def isActive : Activity → Bool
  | .idle | .claimed _ => true
  | .stopped | .aborted _ => false

/-- What a worker may be doing when none has failed and the counter is at `next`. -/
def Allowed (methods next : Nat) : Activity → Prop
  | .idle | .claimed _ => True
  | .stopped => methods ≤ next
  | .aborted _ => False

theorem Allowed.mono {methods next next' : Nat} (le : next ≤ next') {a : Activity}
    (h : a.Allowed methods next) : a.Allowed methods next' := by
  cases a with
  | stopped => exact Nat.le_trans h le
  | idle | claimed | aborted => exact h

end Activity

/-- How many moves a worker has made that has not stopped: two for a result, one for a claim. -/
def Worker.moves (w : Worker α) : Nat := 2 * w.results.length + w.activity.claimed?.toList.length

/-- The numbers that are claimed and not yet dealt with. -/
def held (s : State α) : List Nat := s.workers.toList.filterMap fun w => w.activity.claimed?

/-- The results of all workers. -/
def kept (s : State α) : List (Nat × Except Error α) := s.workers.toList.flatMap (·.results)

/-- No worker has anything left to do. -/
def Finished (s : State α) : Prop := ∀ w ∈ s.workers, w.activity.isActive = false

instance (s : State α) : Decidable (Finished s) :=
  inferInstanceAs (Decidable (∀ w ∈ s.workers, w.activity.isActive = false))

/-- The method that the next move of a worker analyzes, if it analyzes one. -/
def analyzes? (s : State α) (worker : Nat) : Option Nat :=
  s.workers[worker]?.bind fun w => w.activity.claimed?

/-- The numbers of the methods that a schedule analyzes, from the first to the last. -/
def analyzed (methods : List Method) (analysis : Method → Logged α) :
    State α → List Nat → List Nat
  | _, [] => []
  | s, worker :: rest =>
    (analyzes? s worker).toList ++ analyzed methods analysis (move methods analysis s worker) rest

/-- The answer for a method, with its name on an error. -/
def labelled (answer : Method → Except Error α) (m : Method) : Except Error α :=
  (answer m).mapError fun e => .method m.name e

/-- The results of the methods with some numbers. -/
def entries (methods : List Method) (answer : Method → Except Error α) (numbers : List Nat) :
    List (Nat × Except Error α) :=
  numbers.filterMap fun i => methods[i]?.map fun m => (i, labelled answer m)

section Workers
variable {s : State α} {w : Worker α} {others : List (Worker α)}

/-- A change of one worker leaves the others as they are. -/
theorem exists_others {k : Nat} (here : s.workers[k]? = some w) :
    ∃ others, s.workers.toList.Perm (w :: others) ∧ ∀ (t : State α) (w' : Worker α),
      t.workers = s.workers.setIfInBounds k w' → t.workers.toList.Perm (w' :: others) := by
  obtain ⟨hlt, rfl⟩ := Array.getElem?_eq_some_iff.1 here
  refine ⟨s.workers.toList.take k ++ s.workers.toList.drop (k + 1), ?_, fun t w' ht => ?_⟩
  · refine List.Perm.trans (List.Perm.of_eq ?_) List.perm_middle
    rw [← Array.getElem_toList, List.getElem_cons_drop, List.take_append_drop]
  · rw [ht, Array.toList_setIfInBounds, List.set_eq_take_append_cons_drop,
      if_pos (by simpa using hlt)]
    exact List.perm_middle

variable (h : s.workers.toList.Perm (w :: others))
include h

theorem forall_workers {P : Worker α → Prop} :
    (∀ w' ∈ s.workers, P w') ↔ P w ∧ ∀ w' ∈ others, P w' := by
  simp only [← Array.mem_toList_iff, h.mem_iff, List.forall_mem_cons]

theorem held_perm :
    (held s).Perm (w.activity.claimed?.toList ++ others.filterMap fun w => w.activity.claimed?) := by
  refine (h.filterMap _).trans (List.Perm.of_eq ?_)
  rw [List.filterMap_cons]
  cases w.activity.claimed? <;> rfl

theorem kept_perm : (kept s).Perm (w.results ++ others.flatMap (·.results)) :=
  h.flatMap_right Worker.results

end Workers

/-! ### The invariant -/

/-- What holds between two turns, when the methods with the numbers `done` have been analyzed. -/
structure Shared (methods : List Method) (answer : Method → Except Error α) (done : List Nat)
    (s : State α) : Prop where
  /-- Claimed and done are the numbers below the counter, each once. -/
  numbers : (held s ++ done).Perm (List.range (min s.next methods.length))
  results : (kept s).Perm (entries methods answer done)
  allowed : ∀ w ∈ s.workers, w.activity.Allowed methods.length s.next

theorem Shared.initial (methods : List Method) (answer : Method → Except Error α)
    (workers : Nat) : Shared methods answer [] (initial workers) := by
  constructor <;> simp [Pool.initial, held, kept, entries, Activity.claimed?, Activity.Allowed]

/-! ### One turn -/

/-- What the turn of a worker makes of a state, and the method that is analyzed in it. -/
inductive Turn (methods : List Method) (answer : Method → Except Error α) (s : State α) (k : Nat)
    (t : State α) : Option Nat → Prop
  | rests (done : ∀ w, s.workers[k]? = some w → w.activity.isActive = false) (same : t = s) :
      Turn methods answer s k t none
  | claims {w : Worker α} (here : s.workers[k]? = some w) (idle : w.activity = .idle)
      (more : s.next < methods.length) (counter : t.next = s.next + 1)
      (changed : t.workers = s.workers.setIfInBounds k ⟨.claimed s.next, w.results⟩) :
      Turn methods answer s k t none
  | stops {w : Worker α} (here : s.workers[k]? = some w) (idle : w.activity = .idle)
      (past : methods.length ≤ s.next) (counter : t.next = s.next + 1)
      (changed : t.workers = s.workers.setIfInBounds k ⟨.stopped, w.results⟩) :
      Turn methods answer s k t none
  | analyzes {w : Worker α} {i : Nat} {m : Method} (here : s.workers[k]? = some w)
      (claimed : w.activity = .claimed i) (listed : methods[i]? = some m)
      (counter : t.next = s.next)
      (changed : t.workers =
        s.workers.setIfInBounds k ⟨.idle, w.results ++ [(i, labelled answer m)]⟩) :
      Turn methods answer s k t (some i)

section Turns
variable {methods : List Method} {answer : Method → Except Error α} {analysis : Method → Logged α}
  {done : List Nat} {s t : State α} {k : Nat} {found : Option Nat}

theorem finish_labelled {m : Method} (h : (analysis m).outcome = Stop.ofError (answer m))
    (w : Worker α) (i : Nat) : finish w i m (analysis m).outcome =
      ⟨.idle, w.results ++ [(i, labelled answer m)]⟩ := by
  rw [h, labelled]
  cases answer m <;> rfl

/-- A number that a worker holds is that of a method. -/
theorem Shared.lt_of_claimed (h : Shared methods answer done s) {w : Worker α}
    (hw : w ∈ s.workers) {i : Nat} (hi : w.activity = .claimed i) : i < methods.length := by
  have hheld : i ∈ held s :=
    List.mem_filterMap.2 ⟨w, Array.mem_toList_iff.2 hw, by rw [hi]; rfl⟩
  have := List.mem_range.1 (h.numbers.mem_iff.1 (List.mem_append_left done hheld))
  omega

theorem Shared.turn (answers : ∀ m ∈ methods, (analysis m).outcome = Stop.ofError (answer m))
    (h : Shared methods answer done s) (k : Nat) :
    Turn methods answer s k (move methods analysis s k) (analyzes? s k) := by
  unfold move analyzes?
  cases hw : s.workers[k]? with
  | none => exact .rests (by simp [hw]) rfl
  | some w =>
    obtain ⟨activity, results⟩ := w
    cases activity with
    | idle =>
      simp only [Option.bind_some, Activity.claimed?]
      split
      · exact .claims hw rfl ‹_› rfl rfl
      · exact .stops hw rfl (Nat.not_lt.1 ‹_›) rfl rfl
    | claimed i =>
      have hi := h.lt_of_claimed (Array.mem_of_getElem? hw) rfl
      simp only [Option.bind_some, Activity.claimed?, List.getElem?_eq_getElem hi]
      rw [finish_labelled (answers _ (List.getElem_mem hi))]
      exact .analyzes hw rfl (List.getElem?_eq_getElem hi) rfl rfl
    | stopped => exact .rests (by simp [hw, Activity.isActive]) rfl
    | aborted message => exact .rests (by simp [hw, Activity.isActive]) rfl

/-- Entries of one more method, analyzed last. -/
theorem entries_append {i : Nat} {m : Method} (listed : methods[i]? = some m) :
    entries methods answer (done ++ [i]) =
      entries methods answer done ++ [(i, labelled answer m)] := by
  simp [entries, List.filterMap_append, listed]

theorem Shared.next (h : Shared methods answer done s) (turn : Turn methods answer s k t found) :
    Shared methods answer (done ++ found.toList) t := by
  cases turn with
  | rests _ same => simpa [same] using h
  | claims here idle more counter changed =>
    obtain ⟨others, hs, hall⟩ := exists_others here
    have ht := hall _ _ changed
    have hnumbers := ((held_perm hs).append_right done).symm.trans h.numbers
    rw [idle, Nat.min_eq_left more.le] at hnumbers
    rw [Option.toList_none, List.append_nil]
    constructor
    case numbers =>
      refine ((held_perm ht).append_right done).trans ?_
      rw [counter, Nat.min_eq_left (Nat.succ_le_of_lt more), List.range_succ]
      exact (hnumbers.cons s.next).trans (List.perm_append_singleton _ _).symm
    case results => exact ((kept_perm ht).trans (kept_perm hs).symm).trans h.results
    case allowed =>
      refine (forall_workers ht).2 ⟨trivial, fun w' hw' => ?_⟩
      exact (((forall_workers hs).1 h.allowed).2 w' hw').mono (counter ▸ Nat.le_succ _)
  | stops here idle past counter changed =>
    obtain ⟨others, hs, hall⟩ := exists_others here
    have ht := hall _ _ changed
    have hpast : methods.length ≤ t.next := counter ▸ past.trans (Nat.le_succ _)
    have hnumbers := ((held_perm hs).append_right done).symm.trans h.numbers
    rw [idle, Nat.min_eq_right past] at hnumbers
    rw [Option.toList_none, List.append_nil]
    constructor
    case numbers =>
      rw [Nat.min_eq_right hpast]
      exact ((held_perm ht).append_right done).trans hnumbers
    case results => exact ((kept_perm ht).trans (kept_perm hs).symm).trans h.results
    case allowed =>
      refine (forall_workers ht).2 ⟨hpast, fun w' hw' => ?_⟩
      exact (((forall_workers hs).1 h.allowed).2 w' hw').mono (counter ▸ Nat.le_succ _)
  | @analyzes w i m here claimed listed counter changed =>
    obtain ⟨others, hs, hall⟩ := exists_others here
    have ht := hall _ _ changed
    have hnumbers := ((held_perm hs).append_right done).symm.trans h.numbers
    have hresults := (kept_perm hs).symm.trans h.results
    rw [claimed] at hnumbers
    rw [Option.toList_some]
    constructor
    case numbers =>
      rw [counter]
      refine ((held_perm ht).append_right (done ++ [i])).trans (.trans ?_ hnumbers)
      rw [← List.append_assoc]
      exact List.perm_append_singleton _ _
    case results =>
      rw [entries_append listed]
      refine (kept_perm ht).trans (.trans ?_ (hresults.append_right _))
      rw [List.append_assoc, List.append_assoc]
      exact List.perm_append_comm.append_left _
    case allowed =>
      rw [counter]
      exact (forall_workers ht).2 ⟨trivial, ((forall_workers hs).1 h.allowed).2⟩

/-! ### A run -/

/-- What one turn keeps holds after any schedule. -/
theorem Shared.run (answers : ∀ m ∈ methods, (analysis m).outcome = Stop.ofError (answer m))
    (h : Shared methods answer done s) (schedule : List Nat) :
    Shared methods answer (done ++ analyzed methods analysis s schedule)
      (schedule.foldl (move methods analysis) s) := by
  induction schedule generalizing done s with
  | nil => simpa [analyzed] using h
  | cons k rest ih =>
    rw [analyzed, ← List.append_assoc, List.foldl_cons]
    exact ih (h.next (h.turn answers k))

/-- The invariant at the end of a run. -/
theorem shared_run (answers : ∀ m ∈ methods, (analysis m).outcome = Stop.ofError (answer m))
    (workers : Nat) (schedule : List Nat) :
    Shared methods answer (analyzed methods analysis (initial workers) schedule)
      (run methods analysis workers schedule) :=
  (Shared.initial methods answer workers).run answers schedule

theorem Shared.stopped (h : Shared methods answer done s) {w : Worker α} (hw : w ∈ s.workers)
    (hdone : w.activity.isActive = false) :
    w.activity = .stopped ∧ methods.length ≤ s.next := by
  have hallowed := h.allowed w hw
  cases hact : w.activity with
  | stopped =>
    rw [hact] at hallowed
    exact ⟨rfl, hallowed⟩
  | aborted message =>
    rw [hact] at hallowed
    exact hallowed.elim
  | idle | claimed => simp [hact, Activity.isActive] at hdone

/-- When all have stopped, the analyzed methods are all the methods. -/
theorem Shared.all (h : Shared methods answer done s) (finished : Finished s)
    (some_worker : 0 < s.workers.size) : done.Perm (List.range methods.length) := by
  have hheld : held s = [] := by
    rw [held, List.filterMap_eq_nil_iff]
    intro w hw
    have hw := Array.mem_toList_iff.1 hw
    rw [(h.stopped hw (finished w hw)).1]
    rfl
  have hw := Array.getElem_mem some_worker
  have hpast := (h.stopped hw (finished _ hw)).2
  have hnumbers := h.numbers
  rwa [hheld, List.nil_append, Nat.min_eq_right hpast] at hnumbers

/-! ### Every worker stops -/

/-- A turn moves a worker that is active, and no other. -/
theorem Turn.moves (turn : Turn methods answer s k t found) :
    ((∀ w, s.workers[k]? = some w → w.activity.isActive = false) ∧ t = s) ∨
    ∃ w w', s.workers[k]? = some w ∧ t.workers = s.workers.setIfInBounds k w' ∧
      (w'.activity.isActive = true → w'.moves = w.moves + 1) ∧ w.activity.isActive = true := by
  cases turn with
  | rests done same => exact .inl ⟨done, same⟩
  | claims here idle _ _ changed =>
    exact .inr ⟨_, _, here, changed, by simp [Worker.moves, idle, Activity.claimed?],
      by simp [idle, Activity.isActive]⟩
  | stops here idle _ _ changed =>
    exact .inr ⟨_, _, here, changed, by simp [Activity.isActive], by simp [idle, Activity.isActive]⟩
  | analyzes here claimed _ _ changed =>
    refine .inr ⟨_, _, here, changed, fun _ => ?_, by simp [claimed, Activity.isActive]⟩
    simp [Worker.moves, claimed, Activity.claimed?, Nat.mul_add]

theorem Turn.size (turn : Turn methods answer s k t found) : t.workers.size = s.workers.size := by
  rcases turn.moves with ⟨_, rfl⟩ | ⟨w, w', _, changed, _⟩
  · rfl
  · rw [changed, Array.size_setIfInBounds]

/-- Worker `k` has made `n` moves unless it has nothing left to do. -/
def MovesIfActive (s : State α) (k n : Nat) : Prop :=
  ∀ w, s.workers[k]? = some w → w.activity.isActive = true → w.moves = n

theorem Turn.movesIfActive {j n : Nat} (turn : Turn methods answer s j t found)
    (h : MovesIfActive s k n) : MovesIfActive t k (n + if j = k then 1 else 0) := by
  intro w hw active
  rcases turn.moves with ⟨rests, rfl⟩ | ⟨v, v', here, changed, moved, was⟩
  · have hne : j ≠ k := by
      rintro rfl
      simp [rests w hw] at active
    rw [if_neg hne]
    exact h w hw active
  · rw [changed, Array.getElem?_setIfInBounds] at hw
    by_cases hjk : j = k
    · subst hjk
      rw [if_pos rfl, if_pos (Array.getElem?_eq_some_iff.1 here).1] at hw
      obtain rfl := Option.some.inj hw
      rw [if_pos rfl, moved active, h v here was]
    · rw [if_neg hjk] at hw ⊢
      exact h w hw active

/-- A worker moves with each of its turns until it has nothing left to do. -/
theorem Shared.movesIfActive
    (answers : ∀ m ∈ methods, (analysis m).outcome = Stop.ofError (answer m))
    (h : Shared methods answer done s) {n : Nat} (hn : MovesIfActive s k n) (schedule : List Nat) :
    MovesIfActive (schedule.foldl (move methods analysis) s) k (n + schedule.count k) := by
  induction schedule generalizing done s n with
  | nil => exact hn
  | cons j rest ih =>
    have turn := h.turn answers j
    rw [List.foldl_cons, List.count_cons, Nat.add_comm (rest.count k), ← Nat.add_assoc]
    simpa using ih (h.next turn) (turn.movesIfActive hn)

theorem Shared.size (answers : ∀ m ∈ methods, (analysis m).outcome = Stop.ofError (answer m))
    (h : Shared methods answer done s) (schedule : List Nat) :
    (schedule.foldl (move methods analysis) s).workers.size = s.workers.size := by
  induction schedule generalizing done s with
  | nil => rfl
  | cons j rest ih =>
    have turn := h.turn answers j
    rw [List.foldl_cons, ih (h.next turn), turn.size]

theorem size_run (answers : ∀ m ∈ methods, (analysis m).outcome = Stop.ofError (answer m))
    (workers : Nat) (schedule : List Nat) :
    (run methods analysis workers schedule).workers.size = workers := by
  rw [run, (Shared.initial methods answer workers).size answers, initial, Array.size_replicate]

/-- There is not more to do than two moves for each method. -/
theorem Shared.moves_le (h : Shared methods answer done s) {w : Worker α} (hw : w ∈ s.workers) :
    w.moves ≤ 2 * methods.length := by
  obtain ⟨k, hk, rfl⟩ := Array.mem_iff_getElem.1 hw
  obtain ⟨others, hs, -⟩ := exists_others (Array.getElem?_eq_getElem hk)
  have hnumbers := h.numbers.length_eq
  have hheld := (held_perm hs).length_eq
  have hkept := (kept_perm hs).length_eq
  have hentries : (kept s).length ≤ done.length :=
    h.results.length_eq.trans_le (List.length_filterMap_le _ _)
  rw [List.length_append] at hnumbers hheld hkept
  rw [List.length_range] at hnumbers
  rw [Worker.moves]
  omega

/-- Workers that are given turns often enough stop. -/
theorem finished_of_fair
    (answers : ∀ m ∈ methods, (analysis m).outcome = Stop.ofError (answer m)) {workers : Nat}
    {schedule : List Nat} (fair : ∀ k < workers, 2 * methods.length < schedule.count k) :
    Finished (run methods analysis workers schedule) := by
  intro w hw
  obtain ⟨k, hk, rfl⟩ := Array.mem_iff_getElem.1 hw
  by_contra active
  have hmoves : MovesIfActive (initial workers : State α) k 0 := by
    intro w hw _
    obtain rfl := Array.eq_of_mem_replicate (Array.mem_of_getElem? hw)
    rfl
  have hcount := (Shared.initial methods answer workers).movesIfActive answers hmoves schedule _
    (Array.getElem?_eq_getElem hk) (Bool.not_eq_false _ ▸ active)
  have hle := hcount.symm.trans_le ((shared_run answers workers schedule).moves_le hw)
  rw [size_run answers] at hk
  have hlt := fair k hk
  omega

/-! ### The results in order -/

theorem mem_entries {numbers : List Nat} {x : Nat × Except Error α} :
    x ∈ entries methods answer numbers ↔
      ∃ i ∈ numbers, ∃ m, methods[i]? = some m ∧ (i, labelled answer m) = x := by
  simp [entries, List.mem_filterMap]

/-- The entries of all methods in the order of the numbers are in the order of the methods. -/
theorem entries_range {n : Nat} (h : n ≤ methods.length) :
    (entries methods answer (List.range n)).map (·.2) =
      (methods.take n).map (labelled answer) := by
  induction n with
  | zero => rfl
  | succ n ih =>
    have listed := List.getElem?_eq_getElem h
    rw [List.range_succ, entries_append listed, List.map_append, ih (Nat.le_of_succ_le h),
      List.take_add_one, listed, List.map_append]
    rfl

theorem entries_sorted {n : Nat} :
    (entries methods answer (List.range n)).Pairwise fun a b => a.1 ≤ b.1 := by
  refine List.pairwise_filterMap.2 (List.pairwise_lt_range.imp fun hlt x hx y hy => ?_)
  obtain ⟨_, _, rfl⟩ := Option.map_eq_some_iff.1 hx
  obtain ⟨_, _, rfl⟩ := Option.map_eq_some_iff.1 hy
  exact hlt.le

/-- Sorting by the numbers restores the order of the methods. -/
theorem results_of_all (h : Shared methods answer done s)
    (all : done.Perm (List.range methods.length)) :
    results s = methods.map (labelled answer) := by
  have hkept : (kept s).Perm (entries methods answer (List.range methods.length)) :=
    h.results.trans (all.filterMap _)
  have hsorted : (kept s).mergeSort (fun a b => a.1 ≤ b.1) =
      entries methods answer (List.range methods.length) := by
    refine ((List.mergeSort_perm _ _).trans hkept).eq_of_pairwise ?_ ?_ entries_sorted
    · -- The number of a result determines the result.
      intro a b ha hb hab hba
      obtain ⟨i, _, m, hi, rfl⟩ := mem_entries.1 (hkept.mem_iff.1 (List.mem_mergeSort.1 ha))
      obtain ⟨j, _, m', hj, rfl⟩ := mem_entries.1 hb
      obtain rfl : i = j := Nat.le_antisymm hab hba
      obtain rfl := Option.some.inj (hi.symm.trans hj)
      rfl
    · simpa using @List.pairwise_mergeSort _ (fun a b : Nat × Except Error α => a.1 ≤ b.1)
        (fun a b c => by simpa using Nat.le_trans) (fun a b => by simpa using Nat.le_total _ _)
        (kept s)
  rw [results, ← kept, hsorted, entries_range (Nat.le_refl _), List.take_length]

/-- No worker that has stopped has failed. -/
theorem aborted?_eq_none (h : Shared methods answer done s) (finished : Finished s) :
    aborted? s = none := by
  rw [aborted?, List.findSome?_eq_none_iff]
  intro w hw
  have hw := Array.mem_toList_iff.1 hw
  rw [(h.stopped hw (finished w hw)).1]

theorem count_rounds {n workers k : Nat} (h : k < workers) :
    (rounds n workers).count k = 2 * n + 1 := by
  have hone : (List.range workers).count k = 1 :=
    List.count_eq_one_of_mem List.nodup_range (List.mem_range.2 h)
  simp [rounds, List.count_flatMap, Function.comp_def, hone]

/-- Under every schedule that lets the workers finish, each method is analyzed once and the
results are in the order of the methods, each with its method's name on an error. Every
schedule that gives each worker turns enough lets them finish, so `analyze` answers with
these results for any number of threads and cores. -/
theorem results_of_schedule
    (answers : ∀ m ∈ methods, (analysis m).outcome = Stop.ofError (answer m)) :
    (∀ workers schedule, 0 < workers → Finished (run methods analysis workers schedule) →
      (analyzed methods analysis (initial workers) schedule).Perm (List.range methods.length) ∧
      results (run methods analysis workers schedule) = methods.map (labelled answer)) ∧
    (∀ workers schedule, (∀ k < workers, 2 * methods.length < schedule.count k) →
      Finished (run methods analysis workers schedule)) ∧
    ∀ threads cores,
      (analyze methods threads cores analysis).outcome = .ok (methods.map (labelled answer)) := by
  have all : ∀ workers schedule, 0 < workers → Finished (run methods analysis workers schedule) →
      (analyzed methods analysis (initial workers) schedule).Perm (List.range methods.length) ∧
      results (run methods analysis workers schedule) = methods.map (labelled answer) := by
    intro workers schedule pos finished
    have shared := shared_run answers workers schedule
    have perm := shared.all finished (by rwa [size_run answers])
    exact ⟨perm, results_of_all shared perm⟩
  refine ⟨all, fun workers schedule => finished_of_fair answers, fun threads cores => ?_⟩
  have pos : 0 < workerCount threads cores methods.length :=
    Nat.lt_of_lt_of_le Nat.one_pos (Nat.le_max_left _ _)
  rw [analyze]
  generalize workerCount threads cores methods.length = workers at pos ⊢
  have finished : Finished (run methods analysis workers (rounds methods.length workers)) := by
    refine finished_of_fair answers fun k hk => ?_
    rw [count_rounds hk]
    exact Nat.lt_succ_self _
  rw [aborted?_eq_none (shared_run answers _ _) finished, (all workers _ pos finished).2]

end Turns

/-- Two workers on three methods: the second worker overtakes the first, and the analysis of
the second method fails. -/
theorem results_of_schedule_overtaking :
    let methods : List Method := [⟨"a", [], .empty⟩, ⟨"b", [], .empty⟩, ⟨"c", [], .empty⟩]
    let answer (m : Method) : Except Error String :=
      if m.name = "b" then .error .cancelled else .ok m.name
    let analysis (m : Method) : Logged String := ⟨Stop.ofError (answer m), []⟩
    let schedule := [0, 1, 1, 1, 1, 1, 0, 0]
    (∀ m ∈ methods, (analysis m).outcome = Stop.ofError (answer m)) ∧
      Finished (run methods analysis 2 schedule) ∧
      analyzed methods analysis (initial 2) schedule = [1, 2, 0] ∧
      results (run methods analysis 2 schedule) =
        [.ok "a", .error (.method "b" .cancelled), .ok "c"] ∧
      (analyze methods 0 8 analysis).outcome =
        .ok [.ok "a", .error (.method "b" .cancelled), .ok "c"] := by
  intro methods answer analysis schedule
  have answers : ∀ m ∈ methods, (analysis m).outcome = Stop.ofError (answer m) := fun _ _ => rfl
  have finished : Finished (run methods analysis 2 schedule) := by decide
  obtain ⟨all, -, analyzes⟩ := results_of_schedule answers
  exact ⟨answers, finished, by decide, (all 2 schedule (by decide) finished).2, analyzes 0 8⟩

end FlowFacts.Pool
