import Caiman.Lib.History
import Mathlib.Data.List.Nodup
import Mathlib.Logic.Function.Basic

/-!
# The action bus

Every operation of the UI goes through `dispatch`, which asks for what the registry says the
action needs: nothing, four seconds in which it can be undone, or a dialog. The toasts run side
by side; there is one dialog, and what its button does is kept apart from what it shows.
-/

namespace Caiman.Ui.Bus

open Lib

/-! ## The registry -/

inductive ConfirmLevel
  | none
  | toast
  | dialog
  | critical
  deriving DecidableEq, Repr

inductive ActionId
  | vmStart
  | vmStop
  | vmRestart
  | vmForceStop
  | vmDelete
  | vmCreate
  | vmMigrate
  | vmConsole
  | vmLogs
  | drsExecuteOne
  | drsExecuteAll
  | drsSetMode
  | microsegCreatePolicy
  | microsegDeletePolicy
  | storageCreateVolume
  | storageSnapshot
  | gpuAllocateMig
  | gpuRelease
  | monitoringExportMetrics
  deriving DecidableEq, Repr

def ActionId.text : ActionId → String
  | vmStart => "vm.start"
  | vmStop => "vm.stop"
  | vmRestart => "vm.restart"
  | vmForceStop => "vm.force-stop"
  | vmDelete => "vm.delete"
  | vmCreate => "vm.create"
  | vmMigrate => "vm.migrate"
  | vmConsole => "vm.console"
  | vmLogs => "vm.logs"
  | drsExecuteOne => "drs.execute-one"
  | drsExecuteAll => "drs.execute-all"
  | drsSetMode => "drs.set-mode"
  | microsegCreatePolicy => "microseg.create-policy"
  | microsegDeletePolicy => "microseg.delete-policy"
  | storageCreateVolume => "storage.create-volume"
  | storageSnapshot => "storage.snapshot"
  | gpuAllocateMig => "gpu.allocate-mig"
  | gpuRelease => "gpu.release"
  | monitoringExportMetrics => "monitoring.export-metrics"

abbrev Input := List (String × String)

/-- What a template string makes of a field. -/
def Input.shown (i : Input) (field : String) : String := (i.lookup field).getD "undefined"

/-- The part of a descriptor that the bus reads. -/
structure ActionDef where
  label : String
  confirm : ConfirmLevel
  confirmMsg : Option (Input → String)
  confirmWord : Option (Input → Option String)

def plain (label : String) : ActionDef := ⟨label, .none, none, none⟩

def asking (label : String) (confirm : ConfirmLevel) (confirmMsg : Input → String) : ActionDef :=
  ⟨label, confirm, some confirmMsg, none⟩

def getAction : ActionId → ActionDef
  | .vmStart => plain "Start VM"
  | .vmStop => asking "Stop VM" .toast fun i =>
      "Stop \"" ++ i.shown "vmName" ++ "\"? Running workloads will be suspended."
  | .vmRestart => asking "Restart VM" .toast fun i => "Restart \"" ++ i.shown "vmName" ++ "\"?"
  | .vmForceStop => asking "Force stop VM" .dialog fun i =>
      "Force kill \"" ++ i.shown "vmName" ++ "\"? This may corrupt disk state."
  | .vmDelete =>
      { label := "Delete VM"
        confirm := .critical
        confirmMsg := some fun i =>
          "This will permanently delete \"" ++ i.shown "vmName" ++ "\" and all its data."
        confirmWord := some fun i => i.lookup "vmName" }
  | .vmCreate => plain "Create VM"
  | .vmMigrate => asking "Live migrate VM" .toast fun i =>
      "Migrate \"" ++ i.shown "vmName" ++ "\" to " ++ i.shown "toNode" ++
        "? Expect ~50–200ms blackout."
  | .vmConsole => plain "Open serial console"
  | .vmLogs => plain "View boot logs"
  | .drsExecuteOne => asking "Execute DRS migration" .toast fun i =>
      "Migrate " ++ i.shown "vmId" ++ " from " ++ i.shown "fromNode" ++ " to " ++
        i.shown "toNode" ++ "?"
  | .drsExecuteAll => asking "Execute all DRS recommendations" .dialog fun _ =>
      "Execute all pending DRS migrations? Multiple VMs will experience brief downtime."
  | .drsSetMode => plain "Change DRS mode"
  | .microsegCreatePolicy => plain "Create policy"
  | .microsegDeletePolicy => asking "Delete policy" .dialog fun i =>
      "Delete policy \"" ++ i.shown "name" ++ "\"? Traffic covered by this rule will be DENIED."
  | .storageCreateVolume => plain "Create VSAN volume"
  | .storageSnapshot => plain "Take snapshot"
  | .gpuAllocateMig => plain "Allocate MIG slice"
  | .gpuRelease => asking "Release GPU" .toast fun i =>
      "Release GPU from \"" ++ i.shown "vmName" ++ "\"?"
  | .monitoringExportMetrics => plain "Export metrics CSV"

/-- An action that asks says what for, and only a critical one asks for a word. -/
theorem getAction_complete (id : ActionId) :
    ((getAction id).confirm ≠ .none ↔ (getAction id).confirmMsg.isSome) ∧
      ((getAction id).confirm = .critical ↔ (getAction id).confirmWord.isSome) := by
  cases id <;> decide

/-- The `switch` of `execute`. -/
def ActionId.hasExecutor : ActionId → Bool
  | vmStart | vmStop | vmMigrate | vmDelete | vmCreate | drsExecuteOne | drsExecuteAll | drsSetMode
  | microsegCreatePolicy | microsegDeletePolicy | storageCreateVolume => true
  | vmRestart | vmForceStop | vmConsole | vmLogs | storageSnapshot | gpuAllocateMig | gpuRelease
  | monitoringExportMetrics => false

/-! ## The bus -/

/-- One `dispatch`, with a number of its own. -/
structure Call where
  ticket : Nat
  id : ActionId
  input : Input
  deriving DecidableEq, Repr

def Call.message (c : Call) : String :=
  match (getAction c.id).confirmMsg with
  | some confirmMsg => confirmMsg c.input
  | none => (getAction c.id).label

def Call.confirmWord (c : Call) : Option String :=
  (getAction c.id).confirmWord.bind fun confirmWord => confirmWord c.input

structure Toast where
  call : Call
  message : String
  due : Nat
  cancelled : Bool
  deriving DecidableEq, Repr

structure DialogState where
  call : Call
  level : ConfirmLevel
  message : String
  confirmWord : Option String
  label : String
  deriving DecidableEq, Repr

def Call.dialog (c : Call) : DialogState where
  call := c
  level := (getAction c.id).confirm
  message := c.message
  confirmWord := c.confirmWord
  label := (getAction c.id).label

def DialogState.canConfirm (d : DialogState) (typed : String) : Bool :=
  d.level ≠ .critical || some typed = d.confirmWord

structure AuditEntry where
  id : String
  actionId : ActionId
  input : Input
  timestamp : Nat
  user : String
  deriving DecidableEq, Repr

structure BusState where
  /-- `Date.now()` -/
  now : Nat
  /-- `localStorage.getItem('caiman-user')` -/
  user : Option String
  next : Nat
  toasts : List Toast
  dialog : Option DialogState
  /-- `pendingRef.current` -/
  pending : Option Call
  typed : String
  busy : ActionId → Bool
  /-- Executions whose promise has not settled. -/
  running : List ActionId
  entries : List AuditEntry
  counter : Nat

def BusState.new (now : Nat) (user : Option String) (entries : List AuditEntry) : BusState where
  now := now
  user := user
  next := 0
  toasts := []
  dialog := none
  pending := none
  typed := ""
  busy _ := false
  running := []
  entries := entries
  counter := 0

inductive Event
  | dispatched (call : Call) (time : Nat)
  | undone (ticket : Nat)
  | confirmed (ticket : Nat) (typed : String)
  | executed (call : Call) (time : Nat)
  | finished (id : ActionId) (err : Option String)
  deriving DecidableEq, Repr

namespace BusState

def log (s : BusState) (call : Call) : BusState :=
  let counter := s.counter + 1
  let full : AuditEntry :=
    { id := "audit-" ++ toString s.now ++ "-" ++ toString counter
      actionId := call.id
      input := call.input
      timestamp := s.now
      user := s.user.getD "operator" }
  let entries := full :: s.entries
  { s with counter := counter, entries := if 500 < entries.length then entries.dropLast else entries }

def execute (s : BusState) (call : Call) : BusState × List Event :=
  let s := s.log call
  ({ s with busy := Function.update s.busy call.id true, running := call.id :: s.running },
    [.executed call s.now])

/-- The promise of an execution settles. Without an executor it is rejected. -/
def finish (s : BusState) (id : ActionId) (err : Option String) : BusState × List Event :=
  if id ∈ s.running then
    let err := if id.hasExecutor then err
      else some ("Action \"" ++ id.text ++ "\" has no executor")
    ({ s with busy := Function.update s.busy id false, running := s.running.erase id },
      [.finished id err])
  else (s, [])

def showToast (s : BusState) (call : Call) : BusState :=
  { s with toasts := ⟨call, call.message, s.now + 4000, false⟩ :: s.toasts }

def showDialog (s : BusState) (call : Call) : BusState :=
  { s with dialog := some call.dialog, pending := some call }

def dispatch (s : BusState) (id : ActionId) (input : Input) : BusState × List Event :=
  let call : Call := ⟨s.next, id, input⟩
  let s := { s with next := s.next + 1 }
  match (getAction id).confirm with
  | .none =>
      let (s', events) := s.execute call
      (s', .dispatched call s.now :: events)
  | .toast => (s.showToast call, [.dispatched call s.now])
  | .dialog | .critical => (s.showDialog call, [.dispatched call s.now])

/-- The UNDO button of a toast that is still there. -/
def undo (s : BusState) (ticket : Nat) : BusState × List Event :=
  if s.toasts.any fun t => t.call.ticket = ticket then
    ({ s with toasts := s.toasts.map fun t =>
        if t.call.ticket = ticket then { t with cancelled := true } else t },
      [.undone ticket])
  else (s, [])

/-- The timer of a toast, at its time or later. -/
def fire (s : BusState) (ticket : Nat) : BusState × List Event :=
  match s.toasts.find? fun t => t.call.ticket = ticket with
  | none => (s, [])
  | some t =>
      if t.due ≤ s.now then
        let s := { s with toasts := s.toasts.filter fun t => t.call.ticket ≠ ticket }
        if t.cancelled then (s, []) else s.execute t.call
      else (s, [])

/-- The dialog goes, and the field is emptied with it. -/
def close (s : BusState) : BusState := { s with dialog := none, pending := none, typed := "" }

/-- `handleConfirm`, from the button or from Enter, which do nothing unless `canConfirm`. -/
def confirm (s : BusState) : BusState × List Event :=
  match s.dialog with
  | none => (s, [])
  | some d =>
      if d.canConfirm s.typed then
        match s.pending with
        | none => (s.close, [])
        | some call =>
            let (s', events) := s.execute call
            (s'.close, .confirmed call.ticket s.typed :: events)
      else (s, [])

/-- The field is there in a critical dialog with a word. -/
def type (s : BusState) (text : String) : BusState :=
  match s.dialog with
  | some d => if d.level = .critical ∧ d.confirmWord.any (· ≠ "") then { s with typed := text } else s
  | none => s

end BusState

inductive Action
  | dispatch (id : ActionId) (input : Input)
  | undo (ticket : Nat)
  | elapse (ms : Nat)
  | fire (ticket : Nat)
  | type (text : String)
  | confirm
  | cancel
  | settle (id : ActionId) (err : Option String)
  deriving DecidableEq, Repr

def machine : Machine BusState Action Event where
  step s
    | .dispatch id input => s.dispatch id input
    | .undo ticket => s.undo ticket
    | .elapse ms => ({ s with now := s.now + ms }, [])
    | .fire ticket => s.fire ticket
    | .type text => (s.type text, [])
    | .confirm => s.confirm
    | .cancel => (s.close, [])
    | .settle id err => s.finish id err

/-! ## What an execution is preceded by -/

def Event.ticket : Event → Option Nat
  | dispatched call _ => some call.ticket
  | undone ticket => some ticket
  | confirmed ticket _ => some ticket
  | executed call _ => some call.ticket
  | finished _ _ => none

def Unexecuted (past : List Event) (ticket : Nat) : Prop :=
  ∀ c time, .executed c time ∈ past → c.ticket ≠ ticket

/-- The operator has agreed to the call as its action asks for. -/
def Agreed (past : List Event) (c : Call) (asked time : Nat) : Prop :=
  match (getAction c.id).confirm with
  | .none => time = asked
  | .toast => asked + 4000 ≤ time ∧ .undone c.ticket ∉ past
  | .dialog => ∃ typed, .confirmed c.ticket typed ∈ past
  | .critical => ∃ word, c.confirmWord = some word ∧ .confirmed c.ticket word ∈ past

/-- An execution is of a dispatch that was agreed to and has not been executed before. -/
def Warrants (past : List Event) : Event → Prop
  | .executed c time =>
      Unexecuted past c.ticket ∧ ∃ asked, .dispatched c asked ∈ past ∧ Agreed past c asked time
  | _ => True

def BusState.waiting (s : BusState) : List Nat :=
  (s.pending.toList ++ s.toasts.map Toast.call).map Call.ticket

structure ToastAgrees (past : List Event) (t : Toast) : Prop where
  level : (getAction t.call.id).confirm = .toast
  unexecuted : Unexecuted past t.call.ticket
  asked : ∃ asked, .dispatched t.call asked ∈ past ∧ t.due = asked + 4000
  undone : .undone t.call.ticket ∈ past → t.cancelled = true

structure PendingAgrees (past : List Event) (c : Call) : Prop where
  level : (getAction c.id).confirm = .dialog ∨ (getAction c.id).confirm = .critical
  unexecuted : Unexecuted past c.ticket
  asked : ∃ asked, .dispatched c asked ∈ past

/-- What is on the screen is what has been asked and not been answered, and the button of the
dialog does what the dialog shows. -/
structure Agrees (past : List Event) (s : BusState) : Prop where
  fresh : ∀ e ∈ past, ∀ n, e.ticket = some n → n < s.next
  toasts : ∀ t ∈ s.toasts, ToastAgrees past t
  pending : ∀ c, s.pending = some c → PendingAgrees past c
  shown : s.dialog = s.pending.map Call.dialog
  distinct : s.waiting.Nodup

theorem new_agrees (now : Nat) (user : Option String) (entries : List AuditEntry) :
    Agrees [] (.new now user entries) where
  fresh := by simp
  toasts := by simp [BusState.new]
  pending := by simp [BusState.new]
  shown := rfl
  distinct := List.nodup_nil

theorem Unexecuted.append {past es : List Event} {n : Nat} (h : Unexecuted past n)
    (hes : Unexecuted es n) : Unexecuted (past ++ es) n := by
  intro c time hmem
  rcases List.mem_append.mp hmem with hpast | hnew
  · exact h c time hpast
  · exact hes c time hnew

namespace Agrees

variable {past es : List Event} {s : BusState}

theorem unexecuted (h : Agrees past s) {n : Nat} (hn : s.next ≤ n) : Unexecuted past n := by
  intro c time hmem
  have := h.fresh _ hmem c.ticket rfl
  omega

theorem mem_waiting_toast {t : Toast} (ht : t ∈ s.toasts) : t.call.ticket ∈ s.waiting := by
  simp only [BusState.waiting, List.map_append, List.map_map, List.mem_append, List.mem_map,
    Function.comp_apply]
  exact Or.inr ⟨t, ht, rfl⟩

theorem mem_waiting_pending {c : Call} (hc : s.pending = some c) : c.ticket ∈ s.waiting := by
  simp [BusState.waiting, hc]

theorem append (h : Agrees past s) (hfresh : ∀ e ∈ es, ∀ n, e.ticket = some n → n < s.next)
    (hexec : ∀ n ∈ s.waiting, Unexecuted es n)
    (hundo : ∀ t ∈ s.toasts, .undone t.call.ticket ∈ es → t.cancelled = true) :
    Agrees (past ++ es) s where
  fresh := by
    intro e he
    rcases List.mem_append.mp he with hpast | hnew
    · exact h.fresh e hpast
    · exact hfresh e hnew
  toasts := by
    intro t ht
    have hold := h.toasts t ht
    refine ⟨hold.level, hold.unexecuted.append (hexec _ (mem_waiting_toast ht)), ?_, ?_⟩
    · obtain ⟨asked, hmem, hdue⟩ := hold.asked
      exact ⟨asked, List.mem_append_left _ hmem, hdue⟩
    · intro hmem
      rcases List.mem_append.mp hmem with hpast | hnew
      · exact hold.undone hpast
      · exact hundo t ht hnew
  pending := by
    intro c hc
    have hold := h.pending c hc
    obtain ⟨asked, hmem⟩ := hold.asked
    exact ⟨hold.level, hold.unexecuted.append (hexec _ (mem_waiting_pending hc)), asked,
      List.mem_append_left _ hmem⟩
  shown := h.shown
  distinct := h.distinct

theorem lt_next (h : Agrees past s) {n : Nat} (hn : n ∈ s.waiting) : n < s.next := by
  simp only [BusState.waiting, List.map_append, List.map_map, List.mem_append, List.mem_map,
    Option.mem_toList, Function.comp_apply] at hn
  rcases hn with ⟨c, hc, rfl⟩ | ⟨t, ht, rfl⟩
  · obtain ⟨asked, hmem⟩ := (h.pending c hc).asked
    exact h.fresh _ hmem c.ticket rfl
  · obtain ⟨asked, hmem, -⟩ := (h.toasts t ht).asked
    exact h.fresh _ hmem t.call.ticket rfl

theorem toast_unique (h : Agrees past s) {t t' : Toast} (ht : t ∈ s.toasts) (ht' : t' ∈ s.toasts)
    (hticket : t.call.ticket = t'.call.ticket) : t = t' := by
  have hdistinct := h.distinct
  rw [BusState.waiting, List.map_append, List.map_map] at hdistinct
  exact List.inj_on_of_nodup_map (List.nodup_append.mp hdistinct).2.1 ht ht' hticket

theorem congr {s' : BusState} (h : Agrees past s) (hnext : s'.next = s.next)
    (htoasts : s'.toasts = s.toasts) (hpending : s'.pending = s.pending)
    (hdialog : s'.dialog = s.dialog) : Agrees past s' where
  fresh := hnext ▸ h.fresh
  toasts := htoasts ▸ h.toasts
  pending := hpending ▸ h.pending
  shown := by rw [hdialog, hpending, h.shown]
  distinct := by
    have hsame : s'.waiting = s.waiting := by rw [BusState.waiting, hpending, htoasts]; rfl
    rw [hsame]
    exact h.distinct

theorem execute (h : Agrees past s) (c : Call) : Agrees past (s.execute c).1 :=
  h.congr rfl rfl rfl rfl

theorem finish (h : Agrees past s) (id : ActionId) (err : Option String) :
    Agrees past (s.finish id err).1 := by
  unfold BusState.finish
  split
  · exact h.congr rfl rfl rfl rfl
  · exact h

theorem type (h : Agrees past s) (text : String) : Agrees past (s.type text) := by
  unfold BusState.type
  split
  · split
    · exact h.congr rfl rfl rfl rfl
    · exact h
  · exact h

theorem close (h : Agrees past s) : Agrees past s.close where
  fresh := h.fresh
  toasts := h.toasts
  pending := by simp [BusState.close]
  shown := rfl
  distinct := by
    have hwaiting : s.close.waiting = (s.toasts.map Toast.call).map Call.ticket := by
      simp [BusState.waiting, BusState.close]
    rw [hwaiting]
    have hdistinct := h.distinct
    rw [BusState.waiting, List.map_append] at hdistinct
    exact (List.nodup_append.mp hdistinct).2.1

theorem advance (h : Agrees past s) : Agrees past { s with next := s.next + 1 } where
  fresh := by
    intro e he n hn
    exact Nat.lt_succ_of_lt (h.fresh e he n hn)
  toasts := h.toasts
  pending := h.pending
  shown := h.shown
  distinct := h.distinct

theorem showToast (h : Agrees past s) {c : Call} (hlevel : (getAction c.id).confirm = .toast)
    (hasked : .dispatched c s.now ∈ past) (hexec : Unexecuted past c.ticket)
    (hundone : .undone c.ticket ∉ past) (hnew : c.ticket ∉ s.waiting) :
    Agrees past (s.showToast c) where
  fresh := h.fresh
  toasts := by
    intro t ht
    rcases List.mem_cons.mp ht with rfl | hold
    · exact ⟨hlevel, hexec, ⟨s.now, hasked, rfl⟩, fun hmem => absurd hmem hundone⟩
    · exact h.toasts t hold
  pending := h.pending
  shown := h.shown
  distinct := by
    have hperm : (s.showToast c).waiting.Perm (c.ticket :: s.waiting) := by
      simp only [BusState.waiting, BusState.showToast, List.map_append, List.map_cons]
      exact List.perm_middle
    exact hperm.nodup_iff.mpr (List.nodup_cons.mpr ⟨hnew, h.distinct⟩)

/-- A new dialog takes the place of the one before, and so does what its button does. -/
theorem showDialog (h : Agrees past s) {c : Call}
    (hlevel : (getAction c.id).confirm = .dialog ∨ (getAction c.id).confirm = .critical)
    {asked : Nat} (hasked : .dispatched c asked ∈ past) (hexec : Unexecuted past c.ticket)
    (hnew : c.ticket ∉ s.waiting) : Agrees past (s.showDialog c) where
  fresh := h.fresh
  toasts := h.toasts
  pending := by
    intro c' hc'
    cases hc'
    exact ⟨hlevel, hexec, asked, hasked⟩
  shown := rfl
  distinct := by
    have hwaiting : (s.showDialog c).waiting = c.ticket :: s.close.waiting := by
      simp [BusState.waiting, BusState.showDialog, BusState.close]
    rw [hwaiting]
    refine List.nodup_cons.mpr ⟨?_, h.close.distinct⟩
    intro hmem
    apply hnew
    simp only [BusState.waiting, BusState.close, Option.toList_none, List.nil_append] at hmem
    rw [BusState.waiting, List.map_append]
    exact List.mem_append_right _ hmem

theorem filterToasts (h : Agrees past s) (p : Toast → Bool) :
    Agrees past { s with toasts := s.toasts.filter p } where
  fresh := h.fresh
  toasts := by
    intro t ht
    exact h.toasts t (List.mem_of_mem_filter ht)
  pending := h.pending
  shown := h.shown
  distinct := by
    refine h.distinct.sublist ?_
    simp only [BusState.waiting]
    exact (List.Sublist.append_left (List.filter_sublist.map _) _).map _

theorem cancelToasts (h : Agrees past s) {f : Toast → Toast}
    (hf : ∀ t, f t = t ∨ f t = { t with cancelled := true }) :
    Agrees past { s with toasts := s.toasts.map f } where
  fresh := h.fresh
  toasts := by
    intro t' ht'
    obtain ⟨t, ht, rfl⟩ := List.mem_map.mp ht'
    have hold := h.toasts t ht
    cases hf t with
    | inl hsame =>
        rw [hsame]
        exact hold
    | inr hcancel =>
        rw [hcancel]
        exact ⟨hold.level, hold.unexecuted, hold.asked, fun _ => rfl⟩
  pending := h.pending
  shown := h.shown
  distinct := by
    have hcall : ∀ t, (f t).call = t.call := by
      intro t
      cases hf t with
      | inl hsame => rw [hsame]
      | inr hcancel => rw [hcancel]
    have hsame : (s.toasts.map f).map Toast.call = s.toasts.map Toast.call := by
      rw [List.map_map]
      exact List.map_congr_left fun t _ => hcall t
    have hdistinct := h.distinct
    rw [BusState.waiting] at hdistinct
    rw [BusState.waiting, hsame]
    exact hdistinct

end Agrees

/-! ## One step -/

section Step

variable {past : List Event} {s : BusState}

theorem Agrees.append_executed (h : Agrees past s) {c : Call} (time : Nat)
    (hlt : c.ticket < s.next) (hgone : c.ticket ∉ s.waiting) :
    Agrees (past ++ [.executed c time]) s := by
  apply h.append
  · intro e he n hn
    cases List.mem_singleton.mp he
    cases hn
    exact hlt
  · intro n hn c' time' hmem
    cases List.mem_singleton.mp hmem
    rintro rfl
    exact hgone hn
  · intro t _ hmem
    cases List.mem_singleton.mp hmem

theorem dispatch_agrees (h : Agrees past s) (id : ActionId) (input : Input) :
    Warranted Warrants past (s.dispatch id input).2 ∧
      Agrees (past ++ (s.dispatch id input).2) (s.dispatch id input).1 := by
  have hnew : s.next ∉ s.waiting := fun hmem => Nat.lt_irrefl _ (h.lt_next hmem)
  have hexec : Unexecuted past s.next := h.unexecuted (Nat.le_refl _)
  have hnone : ∀ n, Unexecuted [.dispatched ⟨s.next, id, input⟩ s.now] n := by
    intro n c time hmem
    cases List.mem_singleton.mp hmem
  -- the dispatch itself, before anything comes of it
  have hasked : Agrees (past ++ [.dispatched ⟨s.next, id, input⟩ s.now])
      { s with next := s.next + 1 } := by
    apply h.advance.append
    · intro e he n hn
      cases List.mem_singleton.mp he
      cases hn
      exact Nat.lt_succ_self _
    · intro n _
      exact hnone n
    · intro t _ hmem
      cases List.mem_singleton.mp hmem
  have hmem : Event.dispatched ⟨s.next, id, input⟩ s.now ∈
      past ++ [.dispatched ⟨s.next, id, input⟩ s.now] := by simp
  have hstill := hexec.append (hnone s.next)
  cases hconfirm : (getAction id).confirm with
  | none =>
      simp only [BusState.dispatch, hconfirm]
      refine ⟨⟨trivial, ⟨hstill, s.now, hmem, ?_⟩, trivial⟩, ?_⟩
      · simp only [Agreed, hconfirm]
        rfl
      · have hdone := hasked.append_executed (c := ⟨s.next, id, input⟩) s.now
          (Nat.lt_succ_self _) hnew
        rw [List.append_assoc] at hdone
        exact hdone.execute _
  | toast =>
      simp only [BusState.dispatch, hconfirm]
      refine ⟨⟨trivial, trivial⟩, hasked.showToast hconfirm hmem hstill ?_ hnew⟩
      intro hundone
      rcases List.mem_append.mp hundone with hpast | hfirst
      · exact Nat.lt_irrefl _ (h.fresh _ hpast s.next rfl)
      · cases List.mem_singleton.mp hfirst
  | dialog =>
      simp only [BusState.dispatch, hconfirm]
      exact ⟨⟨trivial, trivial⟩, hasked.showDialog (Or.inl hconfirm) hmem hstill hnew⟩
  | critical =>
      simp only [BusState.dispatch, hconfirm]
      exact ⟨⟨trivial, trivial⟩, hasked.showDialog (Or.inr hconfirm) hmem hstill hnew⟩

theorem undo_agrees (h : Agrees past s) (ticket : Nat) :
    Warranted Warrants past (s.undo ticket).2 ∧
      Agrees (past ++ (s.undo ticket).2) (s.undo ticket).1 := by
  unfold BusState.undo
  split
  · rename_i hthere
    refine ⟨⟨trivial, trivial⟩, ?_⟩
    have hcancel := h.cancelToasts (f := fun t =>
        if t.call.ticket = ticket then { t with cancelled := true } else t) ?_
    apply hcancel.append
    · intro e he n hn
      cases List.mem_singleton.mp he
      cases hn
      obtain ⟨t, ht, hticket⟩ := List.any_eq_true.mp hthere
      rw [← of_decide_eq_true hticket]
      exact h.lt_next (Agrees.mem_waiting_toast ht)
    · intro n _ c time hmem
      cases List.mem_singleton.mp hmem
    · intro t' ht' hmem
      obtain ⟨t, ht, rfl⟩ := List.mem_map.mp ht'
      by_cases hticket : t.call.ticket = ticket
      · rw [if_pos hticket]
      · rw [if_neg hticket] at hmem
        cases List.mem_singleton.mp hmem
        exact absurd rfl hticket
    · intro t
      by_cases hticket : t.call.ticket = ticket
      · exact Or.inr (if_pos hticket)
      · exact Or.inl (if_neg hticket)
  · exact ⟨trivial, by simpa using h⟩

theorem fire_agrees (h : Agrees past s) (ticket : Nat) :
    Warranted Warrants past (s.fire ticket).2 ∧
      Agrees (past ++ (s.fire ticket).2) (s.fire ticket).1 := by
  unfold BusState.fire
  split
  · exact ⟨trivial, by simpa using h⟩
  rename_i t hfind
  have ht : t ∈ s.toasts := List.mem_of_find?_eq_some hfind
  have hticket : t.call.ticket = ticket := by simpa using List.find?_some hfind
  split
  · rename_i hdue
    have hrest := h.filterToasts fun t => t.call.ticket ≠ ticket
    dsimp only
    split
    · exact ⟨trivial, by simpa using hrest⟩
    · rename_i hcancelled
      have htoast := h.toasts t ht
      obtain ⟨asked, hasked, hat⟩ := htoast.asked
      refine ⟨⟨⟨htoast.unexecuted, asked, hasked, ?_⟩, trivial⟩, ?_⟩
      · simp only [Agreed, htoast.level]
        exact ⟨hat ▸ hdue, fun hundone => hcancelled (htoast.undone hundone)⟩
      · refine (hrest.append_executed _ (h.lt_next (Agrees.mem_waiting_toast ht)) ?_).execute _
        -- no other toast and no dialog has its number
        have hdistinct := h.distinct
        simp only [BusState.waiting, List.map_append, List.nodup_append] at hdistinct
        simp only [BusState.waiting, List.map_append, List.mem_append, List.mem_map, not_or]
        constructor
        · intro hpending
          obtain ⟨c, hc, heq⟩ := hpending
          exact hdistinct.2.2 _ (List.mem_map_of_mem hc) _
            (List.mem_map_of_mem (List.mem_map_of_mem ht)) heq
        · intro hother
          obtain ⟨c, ⟨t', ht', rfl⟩, heq⟩ := hother
          have hne := of_decide_eq_true (List.mem_filter.mp ht').2
          exact hne (heq.trans hticket)
  · exact ⟨trivial, by simpa using h⟩

theorem confirm_agrees (h : Agrees past s) :
    Warranted Warrants past s.confirm.2 ∧ Agrees (past ++ s.confirm.2) s.confirm.1 := by
  unfold BusState.confirm
  split
  · exact ⟨trivial, by simpa using h⟩
  rename_i d hdialog
  split
  · rename_i hcan
    split
    · exact ⟨trivial, by simpa using h.close⟩
    · rename_i call hpending
      have hcall := h.pending call hpending
      obtain ⟨asked, hasked⟩ := hcall.asked
      have hlt := h.lt_next (Agrees.mem_waiting_pending hpending)
      have hd : d = call.dialog := by
        have hshown := h.shown
        rw [hdialog, hpending] at hshown
        exact Option.some.inj hshown
      have hnone : ∀ n, Unexecuted [.confirmed call.ticket s.typed] n := by
        intro n c time hmem
        cases List.mem_singleton.mp hmem
      refine ⟨⟨trivial, ⟨hcall.unexecuted.append (hnone _), asked,
        List.mem_append_left _ hasked, ?_⟩, trivial⟩, ?_⟩
      · have hmem : Event.confirmed call.ticket s.typed ∈
            past ++ [.confirmed call.ticket s.typed] := by simp
        rcases hcall.level with hlevel | hlevel
        · simp only [Agreed, hlevel]
          exact ⟨s.typed, hmem⟩
        · simp only [Agreed, hlevel]
          rw [hd] at hcan
          simp only [DialogState.canConfirm, Call.dialog, hlevel, ne_eq, not_true_eq_false,
            decide_false, Bool.false_or, decide_eq_true_eq] at hcan
          exact ⟨s.typed, hcan.symm, hmem⟩
      · have hconfirmed : Agrees (past ++ [.confirmed call.ticket s.typed]) s.close := by
          apply h.close.append
          · intro e he n hn
            cases List.mem_singleton.mp he
            cases hn
            exact hlt
          · intro n _
            exact hnone n
          · intro t _ hmem
            cases List.mem_singleton.mp hmem
        have hgone : call.ticket ∉ s.close.waiting := by
          have hdistinct := h.distinct
          simp only [BusState.waiting, hpending, Option.toList_some, List.singleton_append,
            List.map_cons, List.nodup_cons] at hdistinct
          simpa [BusState.waiting, BusState.close] using hdistinct.1
        have hdone := hconfirmed.append_executed s.now hlt hgone
        rw [List.append_assoc] at hdone
        exact hdone.congr rfl rfl rfl rfl
  · exact ⟨trivial, by simpa using h⟩

theorem step_agrees (h : Agrees past s) (a : Action) :
    Warranted Warrants past (machine.step s a).2 ∧
      Agrees (past ++ (machine.step s a).2) (machine.step s a).1 := by
  cases a with
  | dispatch id input => exact dispatch_agrees h id input
  | undo ticket => exact undo_agrees h ticket
  | elapse ms =>
      simp only [machine, List.append_nil]
      exact ⟨trivial, h.congr rfl rfl rfl rfl⟩
  | fire ticket => exact fire_agrees h ticket
  | type text =>
      simp only [machine, List.append_nil]
      exact ⟨trivial, h.type text⟩
  | confirm => exact confirm_agrees h
  | cancel =>
      simp only [machine, List.append_nil]
      exact ⟨trivial, h.close⟩
  | settle id err =>
      simp only [machine, BusState.finish]
      split
      · refine ⟨⟨trivial, trivial⟩, ?_⟩
        refine (h.append ?_ ?_ ?_).congr rfl rfl rfl rfl
        · intro e he n hn
          cases List.mem_singleton.mp he
          cases hn
        · intro n _ c time hmem
          cases List.mem_singleton.mp hmem
        · intro t _ hmem
          cases List.mem_singleton.mp hmem
      · exact ⟨trivial, by simpa using h⟩

end Step

/-! ## Every run -/

theorem run_agrees (now : Nat) (user : Option String) (entries : List AuditEntry)
    (as : List Action) :
    Agrees (machine.run (.new now user entries) as).2 (machine.run (.new now user entries) as).1 :=
  machine.run_related (R := Agrees) (P := fun _ _ => True)
    (fun _ _ a h _ => (step_agrees h a).2) (new_agrees now user entries)
    (machine.allSteps_of (fun _ _ => trivial) _ as)

/-- Whatever is clicked in whatever order: what is executed was dispatched, has not been executed
before, and was agreed to as the registry asks. -/
theorem executed_was_agreed (now : Nat) (user : Option String) (entries : List AuditEntry)
    (as : List Action) {pre post : List Event} {c : Call} {time : Nat}
    (htrace : (machine.run (.new now user entries) as).2 = pre ++ .executed c time :: post) :
    Unexecuted pre c.ticket ∧ ∃ asked, .dispatched c asked ∈ pre ∧ Agreed pre c asked time := by
  have hwarranted : Warrants pre (.executed c time) :=
    machine.forall_run_warranted (R := Agrees) (P := fun _ _ => True)
      (fun _ _ a h _ => step_agrees h a) (new_agrees now user entries)
      (machine.allSteps_of (fun _ _ => trivial) _ as) htrace
  exact hwarranted

def deletion : Call := ⟨0, .vmDelete, [("vmId", "v1"), ("vmName", "db")]⟩

theorem executed_was_agreed_delete :
    Unexecuted [.dispatched deletion 0, .confirmed 0 "db"] 0 ∧
      ∃ asked, Event.dispatched deletion asked ∈ [.dispatched deletion 0, .confirmed 0 "db"] ∧
        Agreed [.dispatched deletion 0, .confirmed 0 "db"] deletion asked 0 := by
  have htrace :
      (machine.run (.new 0 none [])
        [.dispatch .vmDelete deletion.input, .type "db", .confirm]).2 =
      [.dispatched deletion 0, .confirmed 0 "db"] ++ .executed deletion 0 :: [] := by decide
  exact executed_was_agreed 0 none [] _ htrace

/-- What needs a dialog is executed by its button, and is what the dialog shows. -/
theorem executed_as_shown (now : Nat) (user : Option String) (entries : List AuditEntry)
    (as : List Action) (a : Action) {c : Call} {time : Nat}
    (hexec : .executed c time ∈ (machine.step (machine.run (.new now user entries) as).1 a).2)
    (hlevel : (getAction c.id).confirm = .dialog ∨ (getAction c.id).confirm = .critical) :
    a = .confirm ∧ (machine.run (.new now user entries) as).1.dialog = some c.dialog ∧
      c.dialog.canConfirm (machine.run (.new now user entries) as).1.typed = true := by
  have h := run_agrees now user entries as
  generalize (machine.run (.new now user entries) as).2 = past at h
  generalize (machine.run (.new now user entries) as).1 = s at h hexec
  cases a with
  | dispatch id input =>
      cases hconfirm : (getAction id).confirm with
      | none =>
          simp only [machine, BusState.dispatch, hconfirm, BusState.execute] at hexec
          cases hexec with
          | tail _ hrest =>
              cases List.mem_singleton.mp hrest
              simp [hconfirm] at hlevel
      | toast => simp [machine, BusState.dispatch, hconfirm] at hexec
      | dialog => simp [machine, BusState.dispatch, hconfirm] at hexec
      | critical => simp [machine, BusState.dispatch, hconfirm] at hexec
  | fire ticket =>
      simp only [machine, BusState.fire] at hexec
      split at hexec
      · cases hexec
      rename_i t hfind
      have htoast := h.toasts t (List.mem_of_find?_eq_some hfind)
      split at hexec
      · split at hexec
        · cases hexec
        · cases List.mem_singleton.mp hexec
          simp [htoast.level] at hlevel
      · cases hexec
  | confirm =>
      simp only [machine, BusState.confirm] at hexec
      split at hexec
      · cases hexec
      rename_i d hdialog
      split at hexec
      · rename_i hcan
        split at hexec
        · cases hexec
        · rename_i call hpending
          have hshown := h.shown
          rw [hdialog, hpending] at hshown
          cases Option.some.inj hshown
          cases hexec with
          | tail _ hrest =>
              cases List.mem_singleton.mp hrest
              exact ⟨rfl, hdialog, hcan⟩
      · cases hexec
  | undo ticket =>
      simp only [machine, BusState.undo] at hexec
      split at hexec <;> simp at hexec
  | settle id err =>
      simp only [machine, BusState.finish] at hexec
      split at hexec <;> simp at hexec
  | elapse ms => cases hexec
  | type text => cases hexec
  | cancel => cases hexec

theorem executed_as_shown_delete :
    (machine.run (.new 0 none []) [.dispatch .vmDelete deletion.input, .type "db"]).1.dialog =
      some deletion.dialog := by
  have hexec : .executed deletion 0 ∈ (machine.step (machine.run (.new 0 none [])
      [.dispatch .vmDelete deletion.input, .type "db"]).1 .confirm).2 := by decide
  exact (executed_as_shown 0 none [] _ .confirm hexec (Or.inr rfl)).2.1

end Caiman.Ui.Bus
