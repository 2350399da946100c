import Caiman.Lib.History
import Caiman.Lib.Recent

/-!
# The cluster store

Notifications come from the store's own actions and from alerts of the server. The badge counts
them as they come; the list drops the oldest of its own past fifty without telling the badge.
Recommendations and denied flows are kept newest first, ten and a hundred of them.
-/

namespace Caiman.Ui.Cluster

open Lib

inductive NotifLevel
  | info
  | success
  | warning
  | error
  deriving DecidableEq, Repr

structure Notification where
  id : String
  level : NotifLevel
  title : String
  message : String
  timestamp : Nat
  read : Bool
  deriving DecidableEq, Repr

variable {Snapshot Rec Deny : Type}

inductive WsEvent (Snapshot Rec Deny : Type)
  /-- The four types that change the snapshot and nothing else, as the change they make. -/
  | update (change : Snapshot → Snapshot)
  | drsRecommendation (payload : Rec)
  | microsegDeny (payload : Deny)
  | alert (payload : Notification)

structure ClusterState (Snapshot Rec Deny : Type) where
  snapshot : Option Snapshot
  drsRecs : List Rec
  auditEvents : List Deny
  notifications : List Notification
  unreadCount : Int
  notifCounter : Nat

def ClusterState.new : ClusterState Snapshot Rec Deny := ⟨none, [], [], [], 0, 0⟩

inductive Action (Snapshot Rec Deny : Type)
  | setSnapshot (snapshot : Snapshot)
  | applyWsEvent (event : WsEvent Snapshot Rec Deny)
  | addNotification (level : NotifLevel) (title message : String) (now : Nat)
  | markAllRead
  | clearNotif (id : String)

inductive Event (Rec Deny : Type)
  | recommended (payload : Rec)
  | denied (payload : Deny)

namespace ClusterState

/-- Nothing is taken in before there is a snapshot. -/
def applyWsEvent (s : ClusterState Snapshot Rec Deny) (event : WsEvent Snapshot Rec Deny) :
    ClusterState Snapshot Rec Deny × List (Event Rec Deny) :=
  match s.snapshot with
  | none => (s, [])
  | some snapshot =>
      match event with
      | .update change => ({ s with snapshot := some (change snapshot) }, [])
      | .drsRecommendation payload =>
          ({ s with drsRecs := payload :: s.drsRecs.take 9 }, [.recommended payload])
      | .microsegDeny payload =>
          ({ s with auditEvents := payload :: s.auditEvents.take 99 }, [.denied payload])
      | .alert payload =>
          ({ s with
              notifications := payload :: s.notifications
              unreadCount := s.unreadCount + 1 }, [])

def addNotification (s : ClusterState Snapshot Rec Deny) (level : NotifLevel)
    (title message : String) (now : Nat) : ClusterState Snapshot Rec Deny :=
  let counter := s.notifCounter + 1
  let id := "n-" ++ toString counter
  let notifications := ⟨id, level, title, message, now, false⟩ :: s.notifications
  { s with
    notifications :=
      if 50 < notifications.length then notifications.dropLast else notifications
    unreadCount := s.unreadCount + 1
    notifCounter := counter }

def markAllRead (s : ClusterState Snapshot Rec Deny) : ClusterState Snapshot Rec Deny :=
  { s with
    notifications := s.notifications.map fun n => { n with read := true }
    unreadCount := 0 }

/-- The first of this id is taken out. -/
def clearNotif (s : ClusterState Snapshot Rec Deny) (id : String) :
    ClusterState Snapshot Rec Deny :=
  match s.notifications.find? fun n => n.id = id with
  | some n =>
      { s with
        notifications := s.notifications.eraseP fun n => n.id = id
        unreadCount := if n.read then s.unreadCount else s.unreadCount - 1 }
  | none => s

end ClusterState

def store : Machine (ClusterState Snapshot Rec Deny) (Action Snapshot Rec Deny)
    (Event Rec Deny) where
  step s
    | .setSnapshot snapshot => ({ s with snapshot := some snapshot }, [])
    | .applyWsEvent event => s.applyWsEvent event
    | .addNotification level title message now => (s.addNotification level title message now, [])
    | .markAllRead => (s.markAllRead, [])
    | .clearNotif id => (s.clearNotif id, [])

/-! ## The badge -/

def unread (ns : List Notification) : Nat := ns.countP fun n => !n.read

def Exact (s : ClusterState Snapshot Rec Deny) : Prop := s.unreadCount = unread s.notifications

/-- No unread notification is dropped for want of room, and no alert comes in read. -/
def Keeps (s : ClusterState Snapshot Rec Deny) : Action Snapshot Rec Deny → Prop
  | .addNotification .. =>
      50 ≤ s.notifications.length → ∀ n, s.notifications.getLast? = some n → n.read = true
  | .applyWsEvent (.alert payload) => s.snapshot.isSome → payload.read = false
  | _ => True

theorem unread_cons (n : Notification) (ns : List Notification) :
    unread (n :: ns) = unread ns + if n.read then 0 else 1 := by
  rw [unread, unread, List.countP_cons]
  cases n.read <;> rfl

theorem unread_dropLast {ns : List Notification} {n : Notification} (h : ns.getLast? = some n) :
    unread ns = unread ns.dropLast + if n.read then 0 else 1 := by
  obtain ⟨front, rfl⟩ := List.getLast?_eq_some_iff.mp h
  rw [List.dropLast_concat, unread, unread, List.countP_append]
  cases hread : n.read <;> simp [hread]

theorem unread_eraseP {ns : List Notification} {p : Notification → Bool} {n : Notification}
    (h : ns.find? p = some n) : unread ns = unread (ns.eraseP p) + if n.read then 0 else 1 := by
  induction ns with
  | nil => cases h
  | cons m ns ih =>
      cases hp : p m with
      | true =>
          rw [List.find?_cons_of_pos hp] at h
          cases h
          rw [List.eraseP_cons_of_pos hp, unread_cons]
      | false =>
          have hneg : ¬ p m = true := by rw [hp]; decide
          rw [List.find?_cons_of_neg hneg] at h
          rw [List.eraseP_cons_of_neg hneg, unread_cons, unread_cons, ih h]
          omega

theorem unread_markAllRead (ns : List Notification) :
    unread (ns.map fun n => { n with read := true }) = 0 := by
  rw [unread, List.countP_eq_zero]
  intro n hn
  obtain ⟨m, -, rfl⟩ := List.mem_map.mp hn
  simp

theorem unread_addNotification (s : ClusterState Snapshot Rec Deny) (level : NotifLevel)
    (title message : String) (now : Nat) :
    (50 ≤ s.notifications.length ∧ ∃ n, s.notifications.getLast? = some n ∧
        unread s.notifications + 1 =
          unread (s.addNotification level title message now).notifications +
            if n.read then 0 else 1) ∨
      (s.notifications.length < 50 ∧
        unread (s.addNotification level title message now).notifications =
          unread s.notifications + 1) := by
  unfold ClusterState.addNotification
  dsimp only
  by_cases hfull : 50 ≤ s.notifications.length
  · have hne : s.notifications ≠ [] := by
      intro hnil
      rw [hnil] at hfull
      simp at hfull
    have hlast := List.getLast?_eq_some_getLast hne
    refine Or.inl ⟨hfull, _, hlast, ?_⟩
    rw [if_pos (by rw [List.length_cons]; omega), List.dropLast_cons_of_ne_nil hne, unread_cons,
      unread_dropLast hlast]
    simp
    omega
  · refine Or.inr ⟨by omega, ?_⟩
    rw [if_neg (by rw [List.length_cons]; omega), unread_cons]
    rfl

theorem step_exact_iff (s : ClusterState Snapshot Rec Deny) (a : Action Snapshot Rec Deny)
    (h : Exact s) : Exact (store.step s a).1 ↔ Keeps s a := by
  unfold Exact at h ⊢
  cases a with
  | setSnapshot snapshot => exact iff_of_true h trivial
  | markAllRead =>
      refine iff_of_true ?_ trivial
      simp [store, ClusterState.markAllRead, unread_markAllRead]
  | clearNotif id =>
      refine iff_of_true ?_ trivial
      simp only [store, ClusterState.clearNotif]
      split
      · rename_i n hfind
        have hcount := unread_eraseP hfind
        dsimp only
        split
        · rename_i hread
          rw [if_pos hread] at hcount
          omega
        · rename_i hread
          rw [if_neg hread] at hcount
          omega
      · exact h
  | addNotification level title message now =>
      have hbadge : (s.addNotification level title message now).unreadCount =
          s.unreadCount + 1 := rfl
      simp only [store, Keeps, hbadge]
      rcases unread_addNotification s level title message now with
        ⟨hfull, n, hlast, hcount⟩ | ⟨hroom, hcount⟩
      · constructor
        · intro hexact _ m hm
          rw [hlast] at hm
          cases hm
          by_contra hread
          rw [if_neg hread] at hcount
          omega
        · intro hkeeps
          rw [if_pos (hkeeps hfull n hlast)] at hcount
          omega
      · constructor
        · intro _ hfull
          omega
        · intro _
          omega
  | applyWsEvent event =>
      simp only [store, ClusterState.applyWsEvent]
      cases hsnapshot : s.snapshot with
      | none =>
          cases event with
          | alert payload => simp [Keeps, hsnapshot, h]
          | _ => exact iff_of_true h trivial
      | some snapshot =>
          cases event with
          | alert payload =>
              simp only [Keeps, hsnapshot, Option.isSome_some, forall_const, unread_cons]
              cases payload.read with
              | false => simp [h]
              | true =>
                  simp only [Bool.true_eq_false, iff_false]
                  simp
                  omega
          | _ => exact iff_of_true h trivial

theorem step_unread_le (s : ClusterState Snapshot Rec Deny) (a : Action Snapshot Rec Deny)
    (h : unread s.notifications ≤ s.unreadCount) :
    unread (store.step s a).1.notifications ≤ (store.step s a).1.unreadCount := by
  cases a with
  | setSnapshot snapshot => exact h
  | markAllRead => simp [store, ClusterState.markAllRead, unread_markAllRead]
  | clearNotif id =>
      simp only [store, ClusterState.clearNotif]
      split
      · rename_i n hfind
        have hcount := unread_eraseP hfind
        dsimp only
        split
        · rename_i hread
          rw [if_pos hread] at hcount
          omega
        · rename_i hread
          rw [if_neg hread] at hcount
          omega
      · exact h
  | addNotification level title message now =>
      have hbadge : (s.addNotification level title message now).unreadCount =
          s.unreadCount + 1 := rfl
      simp only [store, hbadge]
      rcases unread_addNotification s level title message now with
        ⟨-, n, -, hcount⟩ | ⟨-, hcount⟩
      · omega
      · omega
  | applyWsEvent event =>
      simp only [store, ClusterState.applyWsEvent]
      cases s.snapshot with
      | none => exact h
      | some snapshot =>
          cases event with
          | alert payload =>
              simp only [unread_cons]
              split
              · omega
              · omega
          | _ => exact h

/-- The badge never says less than there is unread. It is exact all along a run exactly when no
unread notification is dropped for want of room and no alert comes in read. -/
theorem badge_exact_iff (as : List (Action Snapshot Rec Deny)) :
    (unread (store.run .new as).1.notifications ≤ (store.run .new as).1.unreadCount) ∧
      ((∀ pre, pre <+: as → Exact (store.run .new pre).1) ↔ store.AllSteps Keeps .new as) := by
  have hnew : Exact (.new : ClusterState Snapshot Rec Deny) := rfl
  constructor
  · exact store.run_inductive (I := fun s => unread s.notifications ≤ s.unreadCount) step_unread_le
      (Int.le_refl _) as
  · exact store.prefixes_iff_allSteps step_exact_iff hnew as

/-! ## Newest first -/

def recommendations (es : List (Event Rec Deny)) : List Rec :=
  es.filterMap fun
    | .recommended payload => some payload
    | .denied _ => none

def denials (es : List (Event Rec Deny)) : List Deny :=
  es.filterMap fun
    | .denied payload => some payload
    | .recommended _ => none

/-- What the lists hold of what has come in. -/
structure Newest (past : List (Event Rec Deny)) (s : ClusterState Snapshot Rec Deny) : Prop where
  drsRecs : s.drsRecs = (recommendations past).reverse.take 10
  auditEvents : s.auditEvents = (denials past).reverse.take 100

theorem take_cons_take {α : Type} (n : Nat) (x : α) (l : List α) :
    x :: (l.take (n + 1)).take n = (x :: l).take (n + 1) := by
  rw [List.take_take, Nat.min_eq_left (Nat.le_succ n), List.take_succ_cons]

theorem step_newest (past : List (Event Rec Deny)) (s : ClusterState Snapshot Rec Deny)
    (a : Action Snapshot Rec Deny) (h : Newest past s) :
    Newest (past ++ (store.step s a).2) (store.step s a).1 := by
  have hquiet : ∀ s' : ClusterState Snapshot Rec Deny, s'.drsRecs = s.drsRecs →
      s'.auditEvents = s.auditEvents → Newest (past ++ []) s' := by
    intro s' hrecs haudit
    rw [List.append_nil]
    exact ⟨hrecs.trans h.drsRecs, haudit.trans h.auditEvents⟩
  cases a with
  | setSnapshot snapshot => exact hquiet _ rfl rfl
  | markAllRead => exact hquiet _ rfl rfl
  | addNotification level title message now => exact hquiet _ rfl rfl
  | clearNotif id =>
      simp only [store, ClusterState.clearNotif]
      split
      · exact hquiet _ rfl rfl
      · exact hquiet _ rfl rfl
  | applyWsEvent event =>
      simp only [store, ClusterState.applyWsEvent]
      cases s.snapshot with
      | none => exact hquiet _ rfl rfl
      | some snapshot =>
          cases event with
          | update change => exact hquiet _ rfl rfl
          | alert payload => exact hquiet _ rfl rfl
          | drsRecommendation payload =>
              constructor
              · simp only [h.drsRecs, recommendations, List.filterMap_append, List.reverse_append]
                exact take_cons_take 9 _ _
              · simp [h.auditEvents, denials]
          | microsegDeny payload =>
              constructor
              · simp [h.drsRecs, recommendations]
              · simp only [h.auditEvents, denials, List.filterMap_append, List.reverse_append]
                exact take_cons_take 99 _ _

/-- Over every run the store holds the ten recommendations and the hundred denied flows that it
took in last, the newest first. -/
theorem store_newest (as : List (Action Snapshot Rec Deny)) :
    (store.run .new as).1.drsRecs = (recommendations (store.run .new as).2).reverse.take 10 ∧
      (store.run .new as).1.auditEvents = (denials (store.run .new as).2).reverse.take 100 := by
  have hrun := store.run_related (R := Newest) (P := fun _ _ => True)
    (fun past s a h _ => step_newest past s a h)
    (s := (.new : ClusterState Snapshot Rec Deny)) ⟨rfl, rfl⟩
    (store.allSteps_of (fun _ _ => trivial) _ as)
  exact ⟨hrun.drsRecs, hrun.auditEvents⟩

end Caiman.Ui.Cluster
