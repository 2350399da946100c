import Mathlib.Data.List.Basic
import Mathlib.Data.List.Nodup

/-!
# Tasks under a semaphore

Tasks that are all spawned at once; each waits for a permit, runs while it has it and gives it
back. Whatever the order, the permits and the running tasks together are as many as there were
permits, and a task runs once.
-/

namespace Caiman.Lib

inductive Stage
  | waiting
  | running
  | finished
  deriving DecidableEq, Repr

structure Pool (Item : Type) where
  permits : Nat
  tasks : List (Item × Stage)

namespace Pool

variable {Item : Type}

def spawn (permits : Nat) (items : List Item) : Pool Item :=
  ⟨permits, items.map fun x => (x, .waiting)⟩

/-- A task that waits takes a permit, if there is one. -/
def acquire (p : Pool Item) (i : Nat) : Option (Item × Pool Item) :=
  match p.permits, p.tasks[i]? with
  | permits + 1, some (x, .waiting) => some (x, ⟨permits, p.tasks.set i (x, .running)⟩)
  | _, _ => none

/-- A task that runs ends and gives its permit back. -/
def release (p : Pool Item) (i : Nat) : Option (Item × Pool Item) :=
  match p.tasks[i]? with
  | some (x, .running) => some (x, ⟨p.permits + 1, p.tasks.set i (x, .finished)⟩)
  | _ => none

def items (p : Pool Item) : List Item := p.tasks.map Prod.fst

def running (p : Pool Item) : List Item :=
  (p.tasks.filter fun t => t.2 = .running).map Prod.fst

def Done (p : Pool Item) : Prop := ∀ t ∈ p.tasks, t.2 = .finished

instance (p : Pool Item) : Decidable p.Done := inferInstanceAs (Decidable (∀ t ∈ p.tasks, _))

theorem running_length (p : Pool Item) :
    p.running.length = p.tasks.countP fun t => t.2 = .running := by
  rw [running, List.length_map, List.countP_eq_length_filter]

theorem running_sublist (p : Pool Item) : p.running.Sublist p.items :=
  List.filter_sublist.map _

section Spawn

variable (permits : Nat) (xs : List Item)

@[simp] theorem spawn_items : (spawn permits xs).items = xs := by
  simp [spawn, items, Function.comp_def]

@[simp] theorem spawn_running : (spawn permits xs).running = [] := by
  simp [spawn, running]

end Spawn

variable {p q : Pool Item} {x : Item} {i : Nat}

theorem acquire_eq_some (h : p.acquire i = some (x, q)) :
    p.tasks[i]? = some (x, .waiting) ∧ q.tasks = p.tasks.set i (x, .running) ∧
      q.permits + 1 = p.permits := by
  unfold acquire at h
  split at h
  · rename_i permits x' hpermits htask
    cases h
    exact ⟨htask, rfl, hpermits.symm⟩
  · cases h

theorem release_eq_some (h : p.release i = some (x, q)) :
    p.tasks[i]? = some (x, .running) ∧ q.tasks = p.tasks.set i (x, .finished) ∧
      q.permits = p.permits + 1 := by
  unfold release at h
  split at h
  · rename_i x' htask
    cases h
    exact ⟨htask, rfl, rfl⟩
  · cases h

theorem map_fst_set {l : List (Item × Stage)} {s s' : Stage} (h : l[i]? = some (x, s)) :
    (l.set i (x, s')).map Prod.fst = l.map Prod.fst := by
  apply List.ext_getElem?
  intro j
  rw [List.getElem?_map, List.getElem?_map, List.getElem?_set]
  by_cases hij : i = j
  · subst hij
    have hlt := (List.getElem?_eq_some_iff.mp h).1
    rw [if_pos rfl, if_pos hlt, h]
    rfl
  · rw [if_neg hij]

theorem countP_set_stage {l : List (Item × Stage)} {s : Stage} (h : l[i]? = some (x, s))
    (s' stage : Stage) :
    (l.set i (x, s')).countP (fun t => t.2 = stage) + (if s = stage then 1 else 0) =
      l.countP (fun t => t.2 = stage) + if s' = stage then 1 else 0 := by
  induction l generalizing i with
  | nil => cases h
  | cons t l ih =>
      cases i with
      | zero =>
          cases h
          simp only [List.set_cons_zero, List.countP_cons, decide_eq_true_eq]
          omega
      | succ i =>
          have hrest := ih (i := i) h
          simp only [List.set_cons_succ, List.countP_cons]
          omega

theorem acquire_items (h : p.acquire i = some (x, q)) : q.items = p.items := by
  obtain ⟨htask, htasks, -⟩ := acquire_eq_some h
  rw [items, htasks, map_fst_set htask]
  rfl

theorem release_items (h : p.release i = some (x, q)) : q.items = p.items := by
  obtain ⟨htask, htasks, -⟩ := release_eq_some h
  rw [items, htasks, map_fst_set htask]
  rfl

theorem acquire_running (h : p.acquire i = some (x, q)) :
    q.running.length = p.running.length + 1 := by
  obtain ⟨htask, htasks, -⟩ := acquire_eq_some h
  have hcount := countP_set_stage htask .running .running
  rw [running_length, running_length, htasks]
  simpa using hcount

theorem release_running (h : p.release i = some (x, q)) :
    q.running.length + 1 = p.running.length := by
  obtain ⟨htask, htasks, -⟩ := release_eq_some h
  have hcount := countP_set_stage htask .finished .running
  rw [running_length, running_length, htasks]
  simpa using hcount

/-- The permits that are left and those that are taken. -/
def total (p : Pool Item) : Nat := p.permits + p.running.length

@[simp] theorem spawn_total (permits : Nat) (xs : List Item) :
    (spawn permits xs).total = permits := by
  simp [total, spawn, running]

theorem acquire_total (h : p.acquire i = some (x, q)) : q.total = p.total := by
  have hpermits := (acquire_eq_some h).2.2
  have hrunning := acquire_running h
  unfold total
  omega

theorem release_total (h : p.release i = some (x, q)) : q.total = p.total := by
  have hpermits := (release_eq_some h).2.2
  have hrunning := release_running h
  unfold total
  omega

/-! ## Without a permit -/

theorem spawn_zero_acquire (xs : List Item) (i : Nat) : (spawn 0 xs).acquire i = none := rfl

theorem spawn_release (permits : Nat) (xs : List Item) (i : Nat) :
    (spawn permits xs).release i = none := by
  rw [release, spawn, List.getElem?_map]
  cases xs[i]? <;> rfl

theorem not_done_spawn (permits : Nat) {xs : List Item} (h : xs ≠ []) :
    ¬ (spawn permits xs).Done := by
  intro hdone
  cases xs with
  | nil => exact h rfl
  | cons x xs =>
      have hover := hdone (x, .waiting) List.mem_cons_self
      cases hover

theorem Done.running_eq_nil (h : p.Done) : p.running = [] := by
  rw [running, List.map_eq_nil_iff, List.filter_eq_nil_iff]
  intro t ht
  simp [h t ht]

end Pool

end Caiman.Lib
