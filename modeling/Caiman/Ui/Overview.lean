import Caiman.Ui.Cluster

/-!
# The overview page

The page is drawn from the cluster store when there is a snapshot. Its panels show the first few
recommendations and flows, its counters are taken over all that the store holds.
-/

namespace Caiman.Ui.Overview

open Lib Cluster

inductive PolicyAction
  | allow
  | deny
  | log
  deriving DecidableEq, Repr

structure AuditEvent where
  srcIp : String
  dstIp : String
  dstPort : Nat
  verdict : PolicyAction
  deriving DecidableEq, Repr

structure DrsRecommendation (Score : Type) where
  vmName : String
  fromNode : String
  toNode : String
  score : Score
  deriving DecidableEq, Repr

variable {Snapshot Score : Type}

/-! ## The components -/

structure Panel (Row : Type) where
  rows : List Row
  placeholder : Option String
  deriving DecidableEq, Repr

/-- The score, the VM and the way it goes. -/
def drsPanel (recs : List (DrsRecommendation Score)) : Panel (Score × String × String) where
  rows := (recs.take 3).map fun r => (r.score, r.vmName, r.fromNode ++ " → " ++ r.toNode)
  placeholder := if recs.length = 0 then some "Cluster balanced ✓" else none

/-- The verdict, the addresses and the port. -/
def microsegPanel (events : List AuditEvent) : Panel (PolicyAction × String × String) where
  rows := (events.take 5).map fun e =>
    (e.verdict, e.srcIp ++ " → " ++ e.dstIp, ":" ++ toString e.dstPort)
  placeholder := if events.length = 0 then some "No recent events" else none

structure OverviewPage (Score : Type) where
  /-- `recs pending` -/
  recsPending : Nat
  drsPanel : Panel (Score × String × String)
  /-- `denies/60s` -/
  deniesLast60 : Nat
  microsegPanel : Panel (PolicyAction × String × String)
  deriving DecidableEq, Repr

def overviewPage (s : ClusterState Snapshot (DrsRecommendation Score) AuditEvent) :
    Option (OverviewPage Score) :=
  s.snapshot.map fun _ =>
    { recsPending := s.drsRecs.length
      drsPanel := drsPanel s.drsRecs
      deniesLast60 := (s.auditEvents.filter fun e => e.verdict = .deny).length
      microsegPanel := microsegPanel (s.auditEvents.take 8) }

theorem drsPanel_take {n : Nat} (h : 3 ≤ n) (recs : List (DrsRecommendation Score)) :
    drsPanel (recs.take n) = drsPanel recs := by
  have hempty : (recs.take n).length = 0 ↔ recs.length = 0 := by
    rw [List.length_take]
    omega
  simp only [drsPanel, List.take_take, Nat.min_eq_left h, hempty]

theorem microsegPanel_take {n : Nat} (h : 5 ≤ n) (events : List AuditEvent) :
    microsegPanel (events.take n) = microsegPanel events := by
  have hempty : (events.take n).length = 0 ↔ events.length = 0 := by
    rw [List.length_take]
    omega
  simp only [microsegPanel, List.take_take, Nat.min_eq_left h, hempty]

/-! ## What has arrived -/

section

variable {Rec Deny : Type}

def isSetSnapshot : Cluster.Action Snapshot Rec Deny → Bool
  | .setSnapshot _ => true
  | _ => false

/-- Nothing is shown and nothing is kept of what comes before the first snapshot. -/
def sinceSnapshot (as : List (Cluster.Action Snapshot Rec Deny)) :
    List (Cluster.Action Snapshot Rec Deny) :=
  as.dropWhile fun a => !isSetSnapshot a

def recommended (as : List (Cluster.Action Snapshot Rec Deny)) : List Rec :=
  as.filterMap fun
    | .applyWsEvent (.drsRecommendation payload) => some payload
    | _ => none

def denied (as : List (Cluster.Action Snapshot Rec Deny)) : List Deny :=
  as.filterMap fun
    | .applyWsEvent (.microsegDeny payload) => some payload
    | _ => none

/-- What the store takes in of an action, given a snapshot. -/
def taken : Cluster.Action Snapshot Rec Deny → List (Event Rec Deny)
  | .applyWsEvent (.drsRecommendation payload) => [.recommended payload]
  | .applyWsEvent (.microsegDeny payload) => [.denied payload]
  | _ => []

theorem recommendations_taken (as : List (Cluster.Action Snapshot Rec Deny)) :
    recommendations (as.flatMap taken) = recommended as := by
  rw [recommendations, recommended, List.filterMap_flatMap, List.filterMap_eq_flatMap_toList]
  refine List.flatMap_congr fun a _ => ?_
  cases a with
  | applyWsEvent event => cases event <;> rfl
  | setSnapshot | addNotification | markAllRead | clearNotif => rfl

theorem denials_taken (as : List (Cluster.Action Snapshot Rec Deny)) :
    denials (as.flatMap taken) = denied as := by
  rw [denials, denied, List.filterMap_flatMap, List.filterMap_eq_flatMap_toList]
  refine List.flatMap_congr fun a _ => ?_
  cases a with
  | applyWsEvent event => cases event <;> rfl
  | setSnapshot | addNotification | markAllRead | clearNotif => rfl

variable {s : ClusterState Snapshot Rec Deny}

theorem step_taken (a : Cluster.Action Snapshot Rec Deny) (h : s.snapshot.isSome) :
    (store.step s a).1.snapshot.isSome ∧ (store.step s a).2 = taken a := by
  obtain ⟨snapshot, hs⟩ := Option.isSome_iff_exists.mp h
  cases a with
  | setSnapshot snapshot => exact ⟨rfl, rfl⟩
  | applyWsEvent event =>
      simp only [store, ClusterState.applyWsEvent, hs]
      cases event with
      | update | drsRecommendation | microsegDeny | alert => exact ⟨rfl, rfl⟩
  | addNotification | markAllRead => exact ⟨h, rfl⟩
  | clearNotif id =>
      simp only [store, ClusterState.clearNotif]
      split
      · exact ⟨h, rfl⟩
      · exact ⟨h, rfl⟩

theorem run_taken (as : List (Cluster.Action Snapshot Rec Deny)) (h : s.snapshot.isSome) :
    (store.run s as).1.snapshot.isSome ∧ (store.run s as).2 = as.flatMap taken := by
  induction as generalizing s with
  | nil => exact ⟨h, rfl⟩
  | cons a as ih =>
      obtain ⟨hnext, hstep⟩ := step_taken a h
      obtain ⟨hlast, hrun⟩ := ih hnext
      rw [store.run_cons, hstep, hrun]
      exact ⟨hlast, rfl⟩

theorem step_waiting {a : Cluster.Action Snapshot Rec Deny} (h : s.snapshot = none)
    (ha : isSetSnapshot a = false) :
    (store.step s a).1.snapshot = none ∧ (store.step s a).2 = [] := by
  cases a with
  | setSnapshot snapshot => cases ha
  | applyWsEvent event =>
      simp only [store, ClusterState.applyWsEvent, h, and_self]
  | addNotification | markAllRead => exact ⟨h, rfl⟩
  | clearNotif id =>
      simp only [store, ClusterState.clearNotif]
      split
      · exact ⟨h, trivial⟩
      · exact ⟨h, trivial⟩

theorem run_waiting (as : List (Cluster.Action Snapshot Rec Deny)) (h : s.snapshot = none) :
    (store.run s as).1.snapshot.isSome = !(sinceSnapshot as).isEmpty ∧
      (store.run s as).2 = (sinceSnapshot as).flatMap taken := by
  induction as generalizing s with
  | nil => simp [sinceSnapshot, h]
  | cons a as ih =>
      cases ha : isSetSnapshot a with
      | false =>
          obtain ⟨hnext, hstep⟩ := step_waiting h ha
          obtain ⟨hlast, hrun⟩ := ih hnext
          have hsince : sinceSnapshot (a :: as) = sinceSnapshot as := by
            simp [sinceSnapshot, ha]
          rw [store.run_cons, hstep, hsince]
          exact ⟨hlast, hrun⟩
      | true =>
          have hsince : sinceSnapshot (a :: as) = a :: as := by
            simp [sinceSnapshot, ha]
          have hfirst : (store.step s a).1.snapshot.isSome ∧ (store.step s a).2 = taken a := by
            cases a with
            | setSnapshot snapshot => exact ⟨rfl, rfl⟩
            | applyWsEvent | addNotification | markAllRead | clearNotif => cases ha
          obtain ⟨hlast, hrun⟩ := run_taken as hfirst.1
          rw [store.run_cons, hfirst.2, hrun, hsince]
          exact ⟨hlast, rfl⟩

end

/-! ## What is shown -/

/-- The page is there from the first snapshot on. It shows the three recommendations and the five
flows that came last since then. Of the recommendations it counts ten at most, and of the last
hundred flows those that were denied, however long ago. -/
theorem overview_latest
    (as : List (Cluster.Action Snapshot (DrsRecommendation Score) AuditEvent)) :
    overviewPage (store.run .new as).1 =
      if sinceSnapshot as = [] then none
      else
        let recs := (recommended (sinceSnapshot as)).reverse
        let flows := (denied (sinceSnapshot as)).reverse
        some
          { recsPending := min 10 recs.length
            drsPanel := drsPanel (recs.take 3)
            deniesLast60 := (flows.take 100).countP fun e => e.verdict = .deny
            microsegPanel := microsegPanel (flows.take 5) } := by
  obtain ⟨hsome, hevents⟩ := run_waiting (s := .new) as rfl
  obtain ⟨hrecs, hflows⟩ := store_newest as
  rw [hevents, recommendations_taken] at hrecs
  rw [hevents, denials_taken] at hflows
  generalize (store.run .new as).1 = s at hsome hrecs hflows
  by_cases hnone : sinceSnapshot as = []
  · have hempty : s.snapshot = none := by simpa [hnone] using hsome
    rw [if_pos hnone, overviewPage, hempty, Option.map_none]
  · obtain ⟨snapshot, hs⟩ : ∃ snapshot, s.snapshot = some snapshot := by
      apply Option.isSome_iff_exists.mp
      simp [hsome, hnone]
    rw [if_neg hnone, overviewPage, hs, Option.map_some, hrecs, hflows]
    simp only [drsPanel_take, microsegPanel_take, List.length_take, List.countP_eq_length_filter,
      Nat.le_refl, Nat.reduceLeDiff]

end Caiman.Ui.Overview
