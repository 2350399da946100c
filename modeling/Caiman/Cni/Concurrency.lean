import Mathlib.Logic.Function.Basic
import Caiman.Lib.Run
import Caiman.Cni.Ipam

/-!
# Concurrent allocations

Every ADD and every DEL is a process of its own. It reads the file in one step
and writes it in another, with the steps of the others in between and no lock.
The requests for one VM follow each other; those for different VMs overlap freely.
-/

namespace Caiman.Cni

open Lib

/-- Where the request for a VM stands, with the table it loaded. -/
inductive Request
  | idle
  | adding (loaded : Allocations)
  | deleting (loaded : Allocations)

structure Node where
  /-- `allocations.json` -/
  file : Option Allocations
  request : String → Request
  /-- The address the last ADD of a VM answered with, until its DEL begins. -/
  answered : String → Option String

def Node.new : Node := ⟨none, fun _ => .idle, fun _ => none⟩

inductive IpamAction
  /-- An ADD loads the table; a file it cannot read counts as empty. -/
  | add (vmId : String) (readable : Bool)
  /-- A DEL loads the table. -/
  | del (vmId : String) (readable : Bool)
  /-- The request saves its table; an error of the write is ignored. -/
  | save (vmId : String) (written : Bool)
  deriving DecidableEq

def Node.load (s : Node) (readable : Bool) : Allocations :=
  loadAllocations (if readable then s.file else none)

def Node.finish (s : Node) (vmId : String) : Node :=
  { s with request := Function.update s.request vmId .idle }

def Node.answer (s : Node) (vmId ip : String) : Node :=
  { s.finish vmId with answered := Function.update s.answered vmId (some ip) }

/-- Nothing is saved when the VM has an address or the pool is exhausted. -/
def Node.beginAdd (s : Node) (vmId : String) (loaded : Allocations) : Node :=
  match allocate loaded vmId with
  | .error _ => s
  | .ok (reply, none) => s.answer vmId reply.ip
  | .ok (_, some _) => { s with request := Function.update s.request vmId (.adding loaded) }

def Node.beginDel (s : Node) (vmId : String) (loaded : Allocations) : Node :=
  { s with
    request := Function.update s.request vmId (.deleting loaded)
    answered := Function.update s.answered vmId none }

def Node.write (s : Node) (written : Bool) (table : Allocations) : Node :=
  if written then { s with file := some table } else s

def Node.save (s : Node) (vmId : String) (written : Bool) : Node :=
  match s.request vmId with
  | .idle => s
  | .adding loaded =>
      match allocate loaded vmId with
      | .ok (reply, some table) => (s.write written table).answer vmId reply.ip
      | _ => s
  | .deleting loaded => (s.write written (release loaded vmId)).finish vmId

/-- Requests for one VM do not overlap: a new one waits until the last is done. -/
def ipam : Machine Node IpamAction Empty where
  step s
    | .add vmId readable =>
        match s.request vmId with
        | .idle => (s.beginAdd vmId (s.load readable), [])
        | _ => (s, [])
    | .del vmId readable =>
        match s.request vmId with
        | .idle => (s.beginDel vmId (s.load readable), [])
        | _ => (s, [])
    | .save vmId written => (s.save vmId written, [])

/-- Every VM that was given an address has it in the file. -/
def Node.Recorded (s : Node) : Prop :=
  ∀ vmId ip, s.answered vmId = some ip → (loadAllocations s.file).lookup vmId = some ip

/-- No two VMs have the same address in the file, and every VM that was given an
address has it there. -/
def Node.Kept (s : Node) : Prop := Distinct (loadAllocations s.file) ∧ s.Recorded

/-- The addresses the other VMs were given are in the table. -/
def Node.Knows (s : Node) (vmId : String) (loaded : Allocations) : Prop :=
  ∀ q ip, q ≠ vmId → s.answered q = some ip → loaded.lookup q = some ip

/-- A save that succeeds is of a table that knows the addresses of the other VMs, and
the save of an ADD succeeds. -/
def Node.Informed (s : Node) : IpamAction → Prop
  | .save vmId written =>
      match s.request vmId with
      | .idle => True
      | .adding loaded => written = true ∧ s.Knows vmId loaded
      | .deleting loaded => written = true → s.Knows vmId loaded
  | _ => True

def IpamAction.Written : IpamAction → Prop
  | .save _ written => written = true
  | _ => True

/-! ## What holds in every state -/

/-- A table that a request loaded gives different VMs different addresses. A VM under
addition gets a new address from it, a VM under deletion has none. -/
structure Node.Sound (s : Node) : Prop where
  file : Distinct (loadAllocations s.file)
  adding : ∀ vmId loaded, s.request vmId = .adding loaded → Distinct loaded ∧
    ∃ reply table, allocate loaded vmId = .ok (reply, some table)
  deleting : ∀ vmId loaded, s.request vmId = .deleting loaded → Distinct loaded ∧
    s.answered vmId = none

theorem Node.new_sound : Node.new.Sound := by
  constructor
  · exact distinct_empty
  · intro vmId loaded h
    cases h
  · intro vmId loaded h
    cases h

theorem Node.Sound.load {s : Node} (h : s.Sound) (readable : Bool) :
    Distinct (s.load readable) := by
  cases readable with
  | false => exact distinct_empty
  | true => exact h.file

theorem Node.Sound.of_frame {s t : Node} (h : s.Sound) (vmId : String)
    (hfile : Distinct (loadAllocations t.file))
    (hrequest : ∀ q, q ≠ vmId → t.request q = s.request q)
    (hanswered : ∀ q, q ≠ vmId → t.answered q = s.answered q)
    (hadding : ∀ loaded, t.request vmId = .adding loaded → Distinct loaded ∧
      ∃ reply table, allocate loaded vmId = .ok (reply, some table))
    (hdeleting : ∀ loaded, t.request vmId = .deleting loaded → Distinct loaded ∧
      t.answered vmId = none) : t.Sound := by
  constructor
  · exact hfile
  · intro q loaded hq
    by_cases hvm : q = vmId
    · subst hvm
      exact hadding loaded hq
    · exact h.adding q loaded (hrequest q hvm ▸ hq)
  · intro q loaded hq
    by_cases hvm : q = vmId
    · subst hvm
      exact hdeleting loaded hq
    · rw [hanswered q hvm]
      exact h.deleting q loaded (hrequest q hvm ▸ hq)

theorem Node.Sound.finish {s : Node} (h : s.Sound) (vmId : String) : (s.finish vmId).Sound := by
  apply h.of_frame vmId
  · exact h.file
  · intro q hq
    simp [Node.finish, hq]
  · intro q hq
    rfl
  · intro loaded hvm
    simp [Node.finish] at hvm
  · intro loaded hvm
    simp [Node.finish] at hvm

theorem Node.Sound.answer {s : Node} (h : s.Sound) (vmId ip : String) :
    (s.answer vmId ip).Sound := by
  apply (h.finish vmId).of_frame vmId
  · exact h.file
  · intro q hq
    rfl
  · intro q hq
    simp [Node.answer, Node.finish, hq]
  · intro loaded hvm
    simp [Node.answer, Node.finish] at hvm
  · intro loaded hvm
    simp [Node.answer, Node.finish] at hvm

theorem Node.Sound.beginAdd {s : Node} (h : s.Sound) (vmId : String) {loaded : Allocations}
    (hloaded : Distinct loaded) : (s.beginAdd vmId loaded).Sound := by
  unfold Node.beginAdd
  split
  · exact h
  · exact h.answer vmId _
  · rename_i reply table halloc
    apply h.of_frame vmId
    · exact h.file
    · intro q hq
      simp [hq]
    · intro q hq
      rfl
    · intro l hvm
      simp only [Function.update_self, Request.adding.injEq] at hvm
      subst hvm
      exact ⟨hloaded, reply, table, halloc⟩
    · intro l hvm
      simp at hvm

theorem Node.Sound.beginDel {s : Node} (h : s.Sound) (vmId : String) {loaded : Allocations}
    (hloaded : Distinct loaded) : (s.beginDel vmId loaded).Sound := by
  apply h.of_frame vmId
  · exact h.file
  · intro q hq
    simp [Node.beginDel, hq]
  · intro q hq
    simp [Node.beginDel, hq]
  · intro l hvm
    simp [Node.beginDel] at hvm
  · intro l hvm
    simp only [Node.beginDel, Function.update_self, Request.deleting.injEq] at hvm
    subst hvm
    exact ⟨hloaded, Function.update_self _ _ _⟩

@[simp] theorem Node.write_request (s : Node) (written : Bool) (table : Allocations) :
    (s.write written table).request = s.request := by
  cases written <;> rfl

@[simp] theorem Node.write_answered (s : Node) (written : Bool) (table : Allocations) :
    (s.write written table).answered = s.answered := by
  cases written <;> rfl

theorem Node.Sound.write {s : Node} (h : s.Sound) (written : Bool) {table : Allocations}
    (htable : Distinct table) : (s.write written table).Sound := by
  cases written with
  | false => exact h
  | true => exact ⟨htable, h.adding, h.deleting⟩

theorem Node.save_cases {s : Node} (h : s.Sound) (vmId : String) (written : Bool) :
    (s.request vmId = .idle ∧ s.save vmId written = s) ∨
    (∃ loaded ip, s.request vmId = .adding loaded ∧ Distinct (loaded.insert vmId ip) ∧
      s.save vmId written = (s.write written (loaded.insert vmId ip)).answer vmId ip) ∨
    (∃ loaded, s.request vmId = .deleting loaded ∧ Distinct (loaded.erase vmId) ∧
      s.answered vmId = none ∧
      s.save vmId written = (s.write written (loaded.erase vmId)).finish vmId) := by
  unfold Node.save
  cases hrequest : s.request vmId with
  | idle => exact Or.inl ⟨rfl, rfl⟩
  | adding loaded =>
      obtain ⟨hloaded, reply, table, halloc⟩ := h.adding vmId loaded hrequest
      rcases allocate_ok halloc with ⟨-, hnone⟩ | ⟨htable, hfree⟩
      · cases hnone
      · cases htable
        refine Or.inr (Or.inl ⟨loaded, reply.ip, rfl, hloaded.insert hfree, ?_⟩)
        simp only [halloc]
  | deleting loaded =>
      obtain ⟨hloaded, hnone⟩ := h.deleting vmId loaded hrequest
      exact Or.inr (Or.inr ⟨loaded, rfl, hloaded.erase vmId, hnone, rfl⟩)

theorem Node.Sound.save {s : Node} (h : s.Sound) (vmId : String) (written : Bool) :
    (s.save vmId written).Sound := by
  rcases Node.save_cases h vmId written with ⟨-, hsave⟩ | ⟨loaded, ip, -, htable, hsave⟩ |
    ⟨loaded, -, htable, -, hsave⟩
  · rw [hsave]
    exact h
  · rw [hsave]
    exact (h.write written htable).answer vmId ip
  · rw [hsave]
    exact (h.write written htable).finish vmId

theorem step_sound (s : Node) (a : IpamAction) (h : s.Sound) : (ipam.step s a).1.Sound := by
  cases a with
  | add vmId readable =>
      show (match s.request vmId with
        | .idle => (s.beginAdd vmId (s.load readable), ([] : List Empty))
        | _ => (s, [])).1.Sound
      split
      · exact h.beginAdd vmId (h.load readable)
      · exact h
  | del vmId readable =>
      show (match s.request vmId with
        | .idle => (s.beginDel vmId (s.load readable), ([] : List Empty))
        | _ => (s, [])).1.Sound
      split
      · exact h.beginDel vmId (h.load readable)
      · exact h
  | save vmId written => exact h.save vmId written

/-! ## What the saves keep -/

theorem Node.recorded_answer_iff (s : Node) (vmId ip : String) :
    (s.answer vmId ip).Recorded ↔
      (loadAllocations s.file).lookup vmId = some ip ∧
        s.Knows vmId (loadAllocations s.file) := by
  constructor
  · intro h
    constructor
    · exact h vmId ip (Function.update_self _ _ _)
    · intro q x hq hx
      apply h q x
      simpa [Node.answer, hq] using hx
  · intro h q x hx
    by_cases hq : q = vmId
    · subst hq
      simp only [Node.answer, Function.update_self, Option.some.injEq] at hx
      subst hx
      exact h.1
    · simp only [Node.answer, Function.update_of_ne hq] at hx
      exact h.2 q x hq hx

theorem Node.Recorded.knows {s : Node} (h : s.Recorded) (vmId : String) :
    s.Knows vmId (loadAllocations s.file) :=
  fun q ip _ hip => h q ip hip

theorem Node.Recorded.resultAddress {s : Node} (h : s.Recorded) {vmId ip : String}
    (hip : s.answered vmId = some ip) : resultAddress s.file vmId = ip ++ "/24" := by
  unfold Cni.resultAddress
  rw [h vmId ip hip, Option.getD_some]

theorem Node.Recorded.beginAdd {s : Node} (h : s.Recorded) (vmId : String) (readable : Bool) :
    (s.beginAdd vmId (s.load readable)).Recorded := by
  unfold Node.beginAdd
  split
  · exact h
  · rename_i reply halloc
    rcases allocate_ok halloc with ⟨hlookup, -⟩ | ⟨hnone, -⟩
    · -- the table the address stands in is the file's, not that of a failed read
      apply (s.recorded_answer_iff vmId reply.ip).mpr
      cases readable with
      | false => cases hlookup
      | true => exact ⟨hlookup, h.knows vmId⟩
    · cases hnone
  · exact h

theorem Node.Recorded.beginDel {s : Node} (h : s.Recorded) (vmId : String)
    (loaded : Allocations) : (s.beginDel vmId loaded).Recorded := by
  intro q ip hip
  by_cases hq : q = vmId
  · subst hq
    simp [Node.beginDel] at hip
  · simp only [Node.beginDel, Function.update_of_ne hq] at hip
    exact h q ip hip

theorem Node.knows_insert_iff {s : Node} {vmId ip : String} {loaded : Allocations} :
    s.Knows vmId (loaded.insert vmId ip) ↔ s.Knows vmId loaded := by
  have hlookup : ∀ q, q ≠ vmId → (loaded.insert vmId ip).lookup q = loaded.lookup q :=
    fun q hq => AList.lookup_insert_ne hq
  constructor
  · intro h q x hq hx
    rw [← hlookup q hq]
    exact h q x hq hx
  · intro h q x hq hx
    rw [hlookup q hq]
    exact h q x hq hx

theorem Node.recorded_erase_iff {s : Node} {vmId : String} {loaded : Allocations}
    (hnone : s.answered vmId = none) :
    ({ s with file := some (loaded.erase vmId) } : Node).Recorded ↔ s.Knows vmId loaded := by
  constructor
  · intro h q x hq hx
    rw [← AList.lookup_erase_ne hq]
    exact h q x hx
  · intro h q x hx
    have hq : q ≠ vmId := by
      intro hq
      rw [hq] at hx
      exact absurd hx (by simp [hnone])
    show (loaded.erase vmId).lookup q = some x
    rw [AList.lookup_erase_ne hq]
    exact h q x hq hx

theorem Node.recorded_save_iff {s : Node} (hs : s.Sound) (h : s.Recorded) (vmId : String) :
    (s.save vmId true).Recorded ↔ s.Informed (.save vmId true) := by
  simp only [Node.Informed]
  rcases Node.save_cases hs vmId true with ⟨hidle, hsave⟩ | ⟨loaded, ip, hadding, -, hsave⟩ |
    ⟨loaded, hdeleting, -, hnone, hsave⟩
  · rw [hsave, hidle]
    exact iff_of_true h trivial
  · rw [hsave, hadding, Node.recorded_answer_iff]
    have hown : (loaded.insert vmId ip).lookup vmId = some ip := AList.lookup_insert loaded
    constructor
    · intro hall
      exact ⟨trivial, Node.knows_insert_iff.mp hall.2⟩
    · intro hknows
      exact ⟨hown, Node.knows_insert_iff.mpr hknows.2⟩
  · rw [hsave, hdeleting]
    simp only [true_imp_iff]
    exact Node.recorded_erase_iff hnone

theorem step_recorded {s : Node} {a : IpamAction} (hs : s.Sound) (h : s.Recorded)
    (ha : s.Informed a) : (ipam.step s a).1.Recorded := by
  cases a with
  | add vmId readable =>
      show (match s.request vmId with
        | .idle => (s.beginAdd vmId (s.load readable), ([] : List Empty))
        | _ => (s, [])).1.Recorded
      split
      · exact h.beginAdd vmId readable
      · exact h
  | del vmId readable =>
      show (match s.request vmId with
        | .idle => (s.beginDel vmId (s.load readable), ([] : List Empty))
        | _ => (s, [])).1.Recorded
      split
      · exact h.beginDel vmId _
      · exact h
  | save vmId written =>
      cases written with
      | true => exact (Node.recorded_save_iff hs h vmId).mpr ha
      | false =>
          -- only the save of a DEL may fail, and it leaves the file and the answers
          simp only [Node.Informed] at ha
          rcases Node.save_cases hs vmId false with ⟨-, hsave⟩ | ⟨loaded, ip, hadding, -, -⟩ |
            ⟨loaded, -, -, -, hsave⟩
          · show (s.save vmId false).Recorded
            rw [hsave]
            exact h
          · rw [hadding] at ha
            exact absurd ha.1 (by decide)
          · show (s.save vmId false).Recorded
            rw [hsave]
            exact h

/-- For every interleaving of ADDs and DELs: when every save is informed, in every
state no two VMs have the same address and every VM that was given an address still
has it in the file. When no write fails, only the runs whose saves are informed are
like that. -/
theorem allocations_kept (as : List IpamAction) :
    (ipam.AllSteps Node.Informed .new as →
      ∀ pre, pre <+: as → (ipam.run .new pre).1.Kept) ∧
    ((∀ a ∈ as, a.Written) → (∀ pre, pre <+: as → (ipam.run .new pre).1.Kept) →
      ipam.AllSteps Node.Informed .new as) := by
  have hsound : ∀ pre, (ipam.run .new pre).1.Sound :=
    ipam.run_inductive step_sound Node.new_sound
  constructor
  · intro hall pre hpre
    have hstep : ∀ s a, s.Sound ∧ s.Recorded → s.Informed a →
        (ipam.step s a).1.Sound ∧ (ipam.step s a).1.Recorded :=
      fun s a hs ha => ⟨step_sound s a hs.1, step_recorded hs.1 hs.2 ha⟩
    have hnew : Node.new.Recorded := fun vmId ip h => by cases h
    have hrun := ipam.prefixes_invariant hstep ⟨Node.new_sound, hnew⟩ hall hpre
    exact ⟨hrun.1.file, hrun.2⟩
  · intro hwritten hkept
    apply ipam.allSteps_iff_split.mpr
    intro pre a post has
    have hbefore : (ipam.run .new pre).1.Recorded := (hkept pre ⟨a :: post, has.symm⟩).2
    have hafter : (ipam.run .new (pre ++ [a])).1.Recorded :=
      (hkept (pre ++ [a]) ⟨post, by simp [has]⟩).2
    rw [ipam.run_append] at hafter
    cases a with
    | add vmId readable => exact trivial
    | del vmId readable => exact trivial
    | save vmId written =>
        have htrue : written = true := hwritten (.save vmId written) (by simp [has])
        subst htrue
        exact (Node.recorded_save_iff (hsound pre) hbefore vmId).mp hafter

/-- One ADD after the other. -/
theorem allocations_kept_sequential :
    let as : List IpamAction := [.add "a" true, .save "a" true, .add "b" true, .save "b" true]
    ipam.AllSteps Node.Informed .new as ∧ (∀ a ∈ as, a.Written) ∧
      (ipam.run .new as).1.answered "b" = some "10.100.0.3" ∧ (ipam.run .new as).1.Kept := by
  intro as
  have hwritten : ∀ a ∈ as, a.Written := by simp [as, IpamAction.Written]
  have hinformed : ipam.AllSteps Node.Informed .new as := by
    refine ⟨trivial, ⟨rfl, ?_⟩, trivial, ⟨rfl, ?_⟩, trivial⟩
    · intro q ip hq hip
      cases hip
    · intro q ip hq hip
      by_cases ha : q = "a"
      · subst ha
        exact hip
      · exfalso
        change Function.update (fun _ => none) "a" _ q = some ip at hip
        rw [Function.update_of_ne ha] at hip
        cases hip
  refine ⟨hinformed, hwritten, by decide +kernel, ?_⟩
  exact (allocations_kept as).1 hinformed as (List.prefix_refl as)

/-- Two ADDs read the file before either writes it: both answer 10.100.0.2, and the
file has lost the first. -/
theorem concurrent_adds_collide :
    let s := (ipam.run .new [.add "a" true, .add "b" true, .save "a" true, .save "b" true]).1
    s.request "a" = .idle ∧ s.request "b" = .idle ∧
      s.answered "a" = some "10.100.0.2" ∧ s.answered "b" = some "10.100.0.2" ∧ ¬ s.Kept := by
  intro s
  have ha : s.answered "a" = some "10.100.0.2" := by decide +kernel
  have hb : s.answered "b" = some "10.100.0.2" := by decide +kernel
  have hlost : (loadAllocations s.file).lookup "a" = none := by decide +kernel
  refine ⟨rfl, rfl, ha, hb, ?_⟩
  intro hkept
  exact absurd (hkept.2 "a" _ ha) (by simp [hlost])

end Caiman.Cni
