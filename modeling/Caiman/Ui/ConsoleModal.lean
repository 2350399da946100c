import Caiman.Lib.History
import Caiman.Lib.Recent

/-!
# The console window

A window that keeps a WebSocket to the console of a VM. Each socket that closes sets a timer, each
timer makes a socket, and the button Reconnect sets one timer more. Only the newest socket is
known to the window; every open one writes to its terminal.
-/

namespace Caiman.Ui.ConsoleModal

open Lib

/-! ## What is typed -/

def isParameter (c : Char) : Bool := c.isDigit || c = ';' || c = '?'

/-- The length of a match of `ANSI_RESPONSE`, `/\x1b\[[\d;?]*[Rc]/`, at the front. -/
def responseLength : List Char → Option Nat
  | '\x1b' :: '[' :: text =>
      let parameters := (text.takeWhile isParameter).length
      match text[parameters]? with
      | some 'R' | some 'c' => some (parameters + 3)
      | _ => none
  | _ => none

/-- The text without its matches; `skip` characters of one are still to be left out. -/
def cleanFrom : Nat → List Char → List Char
  | _, [] => []
  | skip + 1, _ :: text => cleanFrom skip text
  | 0, c :: text =>
      match responseLength (c :: text) with
      | some n => cleanFrom (n - 1) text
      | none => c :: cleanFrom 0 text

/-- `data.replace(ANSI_RESPONSE, '')` -/
def clean (data : String) : String := String.ofList (cleanFrom 0 data.toList)

/-! ## The window -/

/-- `readyState` of a socket: CONNECTING, OPEN, CLOSING, CLOSED. -/
inductive ReadyState
  | connecting
  | opened
  | closing
  | closed
  deriving DecidableEq, Repr

inductive ConnState
  | connecting
  | connected
  | disconnected
  | reconnecting
  deriving DecidableEq, Repr

def reconnectDelays : List Nat := [1000, 2000, 4000, 8000, 15000]

def delay (retry : Nat) : Nat :=
  reconnectDelays.getD (min retry (reconnectDelays.length - 1)) 0

structure ModalState where
  now : Nat
  /-- `xtermRef` is set from the mount to the unmount. -/
  mounted : Bool
  /-- The timer of the first `connect`, which the unmount clears. -/
  mountTimer : Option Nat
  /-- When the other timers of `connect` are due. -/
  timers : List Nat
  /-- All sockets ever made, the oldest first. -/
  sockets : List ReadyState
  wsRef : Option Nat
  retry : Nat
  connState : ConnState
  log : List String
  deriving DecidableEq, Repr

def ModalState.new (now : Nat) : ModalState :=
  ⟨now, true, some (now + 100), [], [], none, 0, .connecting, []⟩

inductive Action
  | elapse (ms : Nat)
  | mountTimer
  | timer (i : Nat)
  | opened (socket : Nat)
  | message (socket : Nat) (text : String)
  | error (socket : Nat)
  | closed (socket : Nat)
  | input (data : String)
  | reconnect
  | unmount
  deriving DecidableEq, Repr

inductive Event
  | connect (socket : Nat)
  | opened (socket : Nat)
  | retrying (delay : Nat)
  /-- Reconnect was pressed. -/
  | reconnect
  /-- The unmount found the first timer still running. -/
  | cancelled
  | shown (socket : Nat) (text : String)
  /-- A line of the window's own in the terminal. -/
  | notice (text : String)
  | sent (socket : Nat) (text : String)
  deriving DecidableEq, Repr

namespace ModalState

def connect (s : ModalState) : ModalState × List Event :=
  ({ s with
      sockets := s.sockets ++ [.connecting]
      wsRef := some s.sockets.length
      connState := .connecting },
    [.connect s.sockets.length])

def notice (s : ModalState) (text : String) : List Event :=
  if s.mounted then [.notice text] else []

def onOpen (s : ModalState) (socket : Nat) : ModalState × List Event :=
  if s.sockets[socket]? = some .connecting then
    ({ s with sockets := s.sockets.set socket .opened, connState := .connected, retry := 0 },
      .opened socket :: s.notice "\r\x1b[32m[caiman] \x1b[2mconnected\x1b[0m\r\n")
  else (s, [])

def onMessage (s : ModalState) (socket : Nat) (text : String) : ModalState × List Event :=
  if s.sockets[socket]? = some .opened ∧ s.mounted then
    let log := s.log ++ [text]
    ({ s with log := if 10000 < log.length then log.tail else log }, [.shown socket text])
  else (s, [])

/-- The error comes before the close. -/
def onError (s : ModalState) (socket : Nat) : ModalState × List Event :=
  match s.sockets[socket]? with
  | none | some .closed => (s, [])
  | some _ => (s, s.notice "\r\x1b[31m[caiman] \x1b[2mconnection error\x1b[0m\r\n")

def retryNotice (delay : Nat) : String :=
  "\r\x1b[33m[caiman] \x1b[2mdisconnected — reconnecting in " ++ toString (delay / 1000) ++
    "s...\x1b[0m\r\n"

/-- The state `disconnected` is set as well, and overwritten before anything is drawn. -/
def onClose (s : ModalState) (socket : Nat) : ModalState × List Event :=
  match s.sockets[socket]? with
  | none | some .closed => (s, [])
  | some _ =>
      ({ s with
          sockets := s.sockets.set socket .closed
          timers := s.timers ++ [s.now + delay s.retry]
          retry := s.retry + 1
          connState := .reconnecting },
        .retrying (delay s.retry) :: s.notice (retryNotice (delay s.retry)))

/-- `wsRef.current?.close()`: a socket that is connecting or open begins to close. -/
def closeRef (s : ModalState) : ModalState :=
  match s.wsRef with
  | none => s
  | some socket =>
      match s.sockets[socket]? with
      | some .connecting | some .opened => { s with sockets := s.sockets.set socket .closing }
      | _ => s

def fireMount (s : ModalState) : ModalState × List Event :=
  match s.mountTimer with
  | none => (s, [])
  | some due => if due ≤ s.now then { s with mountTimer := none }.connect else (s, [])

/-- A timer, at its time or later. -/
def fire (s : ModalState) (i : Nat) : ModalState × List Event :=
  match s.timers[i]? with
  | none => (s, [])
  | some due => if due ≤ s.now then { s with timers := s.timers.eraseIdx i }.connect else (s, [])

/-- `term.onData` -/
def onData (s : ModalState) (data : String) : ModalState × List Event :=
  match s.wsRef with
  | none => (s, [])
  | some socket =>
      if s.mounted ∧ s.sockets[socket]? = some .opened ∧ clean data ≠ "" then
        (s, [.sent socket (clean data)])
      else (s, [])

def handleReconnect (s : ModalState) : ModalState × List Event :=
  if s.mounted then
    ({ s.closeRef with retry := 0, timers := s.timers ++ [s.now + 200] }, [.reconnect])
  else (s, [])

def unmount (s : ModalState) : ModalState × List Event :=
  if s.mounted then
    ({ s.closeRef with mounted := false, mountTimer := none },
      if s.mountTimer.isSome then [.cancelled] else [])
  else (s, [])

end ModalState

def modal : Machine ModalState Action Event where
  step s
    | .elapse ms => ({ s with now := s.now + ms }, [])
    | .mountTimer => s.fireMount
    | .timer i => s.fire i
    | .opened socket => s.onOpen socket
    | .message socket text => s.onMessage socket text
    | .error socket => s.onError socket
    | .closed socket => s.onClose socket
    | .input data => s.onData data
    | .reconnect => s.handleReconnect
    | .unmount => s.unmount

/-! ## How many connections -/

def Event.isReconnect : Event → Bool
  | .reconnect => true
  | _ => false

def Event.isCancelled : Event → Bool
  | .cancelled => true
  | _ => false

def live (sockets : List ReadyState) : Nat := sockets.countP (· ≠ .closed)

theorem live_append_connecting (sockets : List ReadyState) :
    live (sockets ++ [.connecting]) = live sockets + 1 := by
  rw [live, List.countP_append]
  rfl

theorem live_set {sockets : List ReadyState} {socket : Nat} {was : ReadyState}
    (hwas : sockets[socket]? = some was) (hlive : was ≠ .closed) (st : ReadyState) :
    live (sockets.set socket st) + 1 = live sockets + if st = .closed then 0 else 1 := by
  have hlt := (List.getElem?_eq_some_iff.mp hwas).1
  have hget := (List.getElem?_eq_some_iff.mp hwas).2
  have hpos : 0 < live sockets :=
    List.countP_pos_iff.mpr ⟨was, List.mem_of_getElem? hwas, decide_eq_true hlive⟩
  have hset := List.countP_set (p := fun st => decide (st ≠ ReadyState.closed)) (a := st) hlt
  rw [hget, decide_eq_true hlive, if_pos rfl] at hset
  change live (sockets.set socket st) = live sockets - 1 + _ at hset
  by_cases hst : st = .closed
  · rw [if_neg (by simp [hst])] at hset
    rw [if_pos hst]
    omega
  · rw [if_pos (by simp [hst])] at hset
    rw [if_neg hst]
    omega

namespace ModalState

/-- The sockets that have not closed and the timers that will make one. -/
def chains (s : ModalState) : Nat :=
  live s.sockets + s.timers.length + s.mountTimer.toList.length

theorem closeRef_cases (s : ModalState) :
    s.closeRef = s ∨ ∃ socket was, s.wsRef = some socket ∧ s.sockets[socket]? = some was ∧
      was ≠ .closed ∧ s.closeRef = { s with sockets := s.sockets.set socket .closing } := by
  unfold closeRef
  split
  · exact Or.inl rfl
  · rename_i socket href
    split
    · rename_i hsocket
      exact Or.inr ⟨socket, .connecting, href, hsocket, by decide, rfl⟩
    · rename_i hsocket
      exact Or.inr ⟨socket, .opened, href, hsocket, by decide, rfl⟩
    · exact Or.inl rfl

theorem chains_closeRef (s : ModalState) : s.closeRef.chains = s.chains := by
  cases closeRef_cases s with
  | inl hsame => rw [hsame]
  | inr hclosing =>
      obtain ⟨socket, was, -, hsocket, hlive, hclosing⟩ := hclosing
      have hset := live_set hsocket hlive .closing
      rw [if_neg (by decide)] at hset
      rw [hclosing]
      simp only [chains]
      omega

@[simp] theorem closeRef_timers (s : ModalState) : s.closeRef.timers = s.timers := by
  cases closeRef_cases s with
  | inl hsame => rw [hsame]
  | inr hclosing =>
      obtain ⟨socket, was, -, -, -, hclosing⟩ := hclosing
      rw [hclosing]

@[simp] theorem closeRef_mountTimer (s : ModalState) : s.closeRef.mountTimer = s.mountTimer := by
  cases closeRef_cases s with
  | inl hsame => rw [hsame]
  | inr hclosing =>
      obtain ⟨socket, was, -, -, -, hclosing⟩ := hclosing
      rw [hclosing]

theorem chains_connect (s : ModalState) : s.connect.1.chains = s.chains + 1 := by
  simp only [connect, chains, live_append_connecting]
  omega

theorem chains_fireMount (s : ModalState) : s.fireMount.1.chains = s.chains := by
  unfold fireMount
  split
  · rfl
  · rename_i due hdue
    split
    · rw [chains_connect]
      simp [chains, hdue]
    · rfl

theorem chains_fire (s : ModalState) (i : Nat) : (s.fire i).1.chains = s.chains := by
  unfold fire
  split
  · rfl
  · rename_i due hdue
    have hlt := (List.getElem?_eq_some_iff.mp hdue).1
    split
    · rw [chains_connect]
      simp only [chains, List.length_eraseIdx_of_lt hlt]
      omega
    · rfl

theorem chains_onOpen (s : ModalState) (socket : Nat) : (s.onOpen socket).1.chains = s.chains := by
  unfold onOpen
  split
  · rename_i hsocket
    have hset := live_set hsocket (by decide) .opened
    rw [if_neg (by decide)] at hset
    simp only [chains]
    omega
  · rfl

theorem chains_onClose (s : ModalState) (socket : Nat) :
    (s.onClose socket).1.chains = s.chains := by
  unfold onClose
  split
  · rfl
  · rfl
  · rename_i was hclosed hsocket
    have hset := live_set hsocket (fun h => hclosed h) .closed
    rw [if_pos rfl] at hset
    simp only [chains, List.length_append, List.length_singleton]
    omega

theorem countP_notice (s : ModalState) (text : String) {p : Event → Bool}
    (hp : p (.notice text) = false) : (s.notice text).countP p = 0 := by
  unfold notice
  split
  · rw [List.countP_singleton, hp]
    rfl
  · rfl

end ModalState

open ModalState

def Action.IsPlain : Action → Prop
  | .reconnect | .unmount => False
  | _ => True

theorem step_chains_plain (s : ModalState) (a : Action) (ha : a.IsPlain) :
    (modal.step s a).1.chains = s.chains := by
  cases a with
  | elapse ms => rfl
  | mountTimer => exact chains_fireMount s
  | timer i => exact chains_fire s i
  | opened socket => exact chains_onOpen s socket
  | message socket text =>
      simp only [modal, onMessage]
      split <;> rfl
  | error socket =>
      simp only [modal, onError]
      split <;> rfl
  | closed socket => exact chains_onClose s socket
  | input data =>
      simp only [modal, onData]
      split
      · rfl
      · split <;> rfl
  | reconnect => exact ha.elim
  | unmount => exact ha.elim

theorem step_events_plain (s : ModalState) (a : Action) (ha : a.IsPlain) {p : Event → Bool}
    (hp : ∀ e, p e = true → e = .reconnect ∨ e = .cancelled) :
    (modal.step s a).2.countP p = 0 := by
  have hfalse (e : Event) (hreconnect : e ≠ .reconnect) (hcancelled : e ≠ .cancelled) :
      p e = false := by
    cases h : p e with
    | false => rfl
    | true =>
        cases hp e h with
        | inl heq => exact absurd heq hreconnect
        | inr heq => exact absurd heq hcancelled
  have hnotice (text : String) : (s.notice text).countP p = 0 :=
    countP_notice s text (hfalse _ (by simp) (by simp))
  cases a with
  | elapse ms => rfl
  | mountTimer =>
      simp only [modal, fireMount]
      split
      · rfl
      · split
        · rw [connect, List.countP_singleton, hfalse _ (by simp) (by simp)]
          rfl
        · rfl
  | timer i =>
      simp only [modal, fire]
      split
      · rfl
      · split
        · rw [connect, List.countP_singleton, hfalse _ (by simp) (by simp)]
          rfl
        · rfl
  | opened socket =>
      simp only [modal, onOpen]
      split
      · rw [List.countP_cons, hnotice, hfalse _ (by simp) (by simp)]
        rfl
      · rfl
  | message socket text =>
      simp only [modal, onMessage]
      split
      · rw [List.countP_singleton, hfalse _ (by simp) (by simp)]
        rfl
      · rfl
  | error socket =>
      simp only [modal, onError]
      split
      · rfl
      · rfl
      · exact hnotice _
  | closed socket =>
      simp only [modal, onClose]
      split
      · rfl
      · rfl
      · rw [List.countP_cons, hnotice, hfalse _ (by simp) (by simp)]
        rfl
  | input data =>
      simp only [modal, onData]
      split
      · rfl
      · split
        · rw [List.countP_singleton, hfalse _ (by simp) (by simp)]
          rfl
        · rfl
  | reconnect => exact ha.elim
  | unmount => exact ha.elim

theorem isReconnect_spec (e : Event) (h : e.isReconnect = true) :
    e = .reconnect ∨ e = .cancelled := by
  cases e <;> simp_all [Event.isReconnect]

theorem isCancelled_spec (e : Event) (h : e.isCancelled = true) :
    e = .reconnect ∨ e = .cancelled := by
  cases e <;> simp_all [Event.isCancelled]

theorem chains_handleReconnect {s : ModalState} (hmounted : s.mounted = true) :
    s.handleReconnect.1.chains = s.chains + 1 := by
  have hclose := chains_closeRef s
  rw [handleReconnect, if_pos hmounted]
  simp only [chains, closeRef_timers, List.length_append, List.length_singleton] at hclose ⊢
  omega

theorem chains_unmount {s : ModalState} (hmounted : s.mounted = true) :
    s.unmount.1.chains + s.mountTimer.toList.length = s.chains := by
  have hclose := chains_closeRef s
  rw [unmount, if_pos hmounted]
  simp only [chains, closeRef_timers, closeRef_mountTimer, Option.toList_none,
    List.length_nil] at hclose ⊢
  omega

/-- The button adds a connection, and the unmount takes the first away if it has not been
tried. -/
theorem step_chains (s : ModalState) (a : Action) :
    (modal.step s a).2.countP Event.isReconnect + s.chains =
      (modal.step s a).2.countP Event.isCancelled + (modal.step s a).1.chains := by
  have hplain (ha : a.IsPlain) : (modal.step s a).2.countP Event.isReconnect + s.chains =
      (modal.step s a).2.countP Event.isCancelled + (modal.step s a).1.chains := by
    rw [step_events_plain s a ha isReconnect_spec, step_events_plain s a ha isCancelled_spec,
      step_chains_plain s a ha]
  cases a with
  | reconnect =>
      change s.handleReconnect.2.countP _ + s.chains =
        s.handleReconnect.2.countP _ + s.handleReconnect.1.chains
      cases hmounted : s.mounted with
      | false => simp [handleReconnect, hmounted]
      | true =>
          rw [chains_handleReconnect hmounted, handleReconnect, if_pos hmounted]
          simp only [List.countP_singleton, Event.isReconnect, Event.isCancelled]
          simp
          omega
  | unmount =>
      change s.unmount.2.countP _ + s.chains = s.unmount.2.countP _ + s.unmount.1.chains
      cases hmounted : s.mounted with
      | false => simp [unmount, hmounted]
      | true =>
          have hchains := chains_unmount hmounted
          have hpressed : s.unmount.2.countP Event.isReconnect = 0 := by
            rw [unmount, if_pos hmounted]
            cases s.mountTimer <;> rfl
          have hcancelled : s.unmount.2.countP Event.isCancelled =
              s.mountTimer.toList.length := by
            rw [unmount, if_pos hmounted]
            cases s.mountTimer <;> rfl
          omega
  | elapse | mountTimer | timer | opened | message | error | closed | input => exact hplain trivial

/-- Over every run: of the connections there are or will be, one comes from the mount and one from
each press of Reconnect, and none goes, but for the first if the window is closed before it was
tried. -/
theorem connections_counted (now : Nat) (as : List Action) :
    (modal.run (.new now) as).1.chains + (modal.run (.new now) as).2.countP Event.isCancelled =
      1 + (modal.run (.new now) as).2.countP Event.isReconnect := by
  have hrun :=
    modal.run_account Event.isReconnect Event.isCancelled chains step_chains (.new now) as
  have hnew : (ModalState.new now).chains = 1 := rfl
  omega

/-! ## One at a time -/

/-- There is one connection at most, it is the one that the window types into, and the window says
that it is connected when that is open. -/
structure Single (s : ModalState) : Prop where
  few : s.chains ≤ 1
  whole : s.mounted = true → s.chains = 1
  newest : ∀ (i : Nat) (st : ReadyState), s.sockets[i]? = some st → st ≠ .closed → s.wsRef = some i
  shows : s.mounted = true →
    (s.connState = .connected ↔ ∃ i, s.wsRef = some i ∧ s.sockets[i]? = some .opened)

def Unpressed (s : ModalState) (a : Action) : Prop := a = .reconnect → s.mounted = false

theorem eq_closed_of_live {sockets : List ReadyState} (h : live sockets = 0) {i : Nat}
    {st : ReadyState} (hst : sockets[i]? = some st) : st = .closed := by
  have hnone := List.countP_eq_zero.mp h st (List.mem_of_getElem? hst)
  simpa using hnone

section Single

variable {s : ModalState}

theorem Single.connect (hfew : s.connect.1.chains ≤ 1)
    (hwhole : s.mounted = true → s.connect.1.chains = 1) : Single s.connect.1 := by
  have hnone : live s.sockets = 0 := by
    simp only [ModalState.connect, chains, live_append_connecting] at hfew
    omega
  have hlast (i : Nat) (st : ReadyState) (hst : (s.sockets ++ [.connecting])[i]? = some st)
      (hlive : st ≠ .closed) : i = s.sockets.length ∧ st = .connecting := by
    by_cases hi : i < s.sockets.length
    · rw [List.getElem?_append_left hi] at hst
      exact absurd (eq_closed_of_live hnone hst) hlive
    · rw [List.getElem?_append_right (Nat.le_of_not_lt hi), List.getElem?_singleton] at hst
      split at hst
      · cases hst
        constructor
        · omega
        · rfl
      · cases hst
  constructor
  · exact hfew
  · exact hwhole
  · intro i st hst hlive
    exact congrArg some (hlast i st hst hlive).1.symm
  · intro _
    constructor
    · intro hconnected
      cases hconnected
    · intro hopen
      obtain ⟨i, -, hi⟩ := hopen
      cases (hlast i .opened hi (by decide)).2

theorem Single.fireMount (h : Single s) : Single s.fireMount.1 := by
  have hchains := chains_fireMount s
  unfold ModalState.fireMount at hchains ⊢
  split
  · exact h
  · rename_i due hdue
    split
    · rename_i hnow
      simp only [hdue, if_pos hnow] at hchains
      exact Single.connect (hchains ▸ h.few) fun hmounted => hchains.trans (h.whole hmounted)
    · exact h

theorem Single.fire (h : Single s) (i : Nat) : Single (s.fire i).1 := by
  have hchains := chains_fire s i
  unfold ModalState.fire at hchains ⊢
  split
  · exact h
  · rename_i due hdue
    split
    · rename_i hnow
      simp only [hdue, if_pos hnow] at hchains
      exact Single.connect (hchains ▸ h.few) fun hmounted => hchains.trans (h.whole hmounted)
    · exact h

theorem Single.onOpen (h : Single s) (socket : Nat) : Single (s.onOpen socket).1 := by
  have hchains := chains_onOpen s socket
  unfold ModalState.onOpen at hchains ⊢
  split
  · rename_i hsocket
    rw [if_pos hsocket] at hchains
    have href := h.newest socket _ hsocket (by decide)
    have hlt := (List.getElem?_eq_some_iff.mp hsocket).1
    constructor
    · exact hchains ▸ h.few
    · exact fun hmounted => hchains.trans (h.whole hmounted)
    · intro i st hst hlive
      by_cases hi : socket = i
      · exact hi ▸ href
      · rw [List.getElem?_set_ne hi] at hst
        exact h.newest i st hst hlive
    · intro _
      constructor
      · intro _
        exact ⟨socket, href, List.getElem?_set_self hlt⟩
      · intro _
        rfl
  · exact h

theorem Single.onClose (h : Single s) (socket : Nat) : Single (s.onClose socket).1 := by
  have hchains := chains_onClose s socket
  unfold ModalState.onClose at hchains ⊢
  split
  · exact h
  · exact h
  · rename_i was hclosed hsocket
    simp only [hsocket] at hchains
    have href := h.newest socket was hsocket fun heq => hclosed heq
    have hlt := (List.getElem?_eq_some_iff.mp hsocket).1
    constructor
    · exact hchains ▸ h.few
    · exact fun hmounted => hchains.trans (h.whole hmounted)
    · intro i st hst hlive
      by_cases hi : socket = i
      · exact hi ▸ href
      · rw [List.getElem?_set_ne hi] at hst
        exact h.newest i st hst hlive
    · intro _
      constructor
      · intro hconnected
        cases hconnected
      · intro hopen
        obtain ⟨i, hi, hopened⟩ := hopen
        cases Option.some.inj (href.symm.trans hi)
        rw [List.getElem?_set_self hlt] at hopened
        cases hopened

theorem Single.unmount (h : Single s) : Single s.unmount.1 := by
  cases hmounted : s.mounted with
  | false => simpa [ModalState.unmount, hmounted] using h
  | true =>
      have hchains := chains_unmount hmounted
      have hfew := h.few
      constructor
      · omega
      · intro hstill
        rw [ModalState.unmount, if_pos hmounted] at hstill
        cases hstill
      · rw [ModalState.unmount, if_pos hmounted]
        cases closeRef_cases s with
        | inl hsame =>
            rw [hsame]
            exact h.newest
        | inr hclosing =>
            obtain ⟨socket, was, href, -, -, hclosing⟩ := hclosing
            rw [hclosing]
            intro i st hst hlive
            by_cases hi : socket = i
            · exact hi ▸ href
            · rw [List.getElem?_set_ne hi] at hst
              exact h.newest i st hst hlive
      · intro hstill
        rw [ModalState.unmount, if_pos hmounted] at hstill
        cases hstill

theorem step_single_iff (s : ModalState) (a : Action) (h : Single s) :
    Single (modal.step s a).1 ↔ Unpressed s a := by
  cases a with
  | reconnect =>
      constructor
      · intro hafter _
        cases hmounted : s.mounted with
        | false => rfl
        | true =>
            have hmore : s.handleReconnect.1.chains ≤ 1 := hafter.few
            have hone := h.whole hmounted
            rw [chains_handleReconnect hmounted] at hmore
            omega
      · intro hunpressed
        have hsame : modal.step s .reconnect = (s, []) := by
          simp [modal, handleReconnect, hunpressed rfl]
        rw [hsame]
        exact h
  | elapse ms => exact iff_of_true ⟨h.few, h.whole, h.newest, h.shows⟩ fun heq => nomatch heq
  | mountTimer => exact iff_of_true h.fireMount fun heq => nomatch heq
  | timer i => exact iff_of_true (h.fire i) fun heq => nomatch heq
  | opened socket => exact iff_of_true (h.onOpen socket) fun heq => nomatch heq
  | closed socket => exact iff_of_true (h.onClose socket) fun heq => nomatch heq
  | unmount => exact iff_of_true h.unmount fun heq => nomatch heq
  | message socket text =>
      refine iff_of_true ?_ fun heq => nomatch heq
      simp only [modal, onMessage]
      split
      · exact ⟨h.few, h.whole, h.newest, h.shows⟩
      · exact h
  | error socket =>
      refine iff_of_true ?_ fun heq => nomatch heq
      simp only [modal, onError]
      split <;> exact h
  | input data =>
      refine iff_of_true ?_ fun heq => nomatch heq
      simp only [modal, onData]
      split
      · exact h
      · split <;> exact h

end Single

theorem new_single (now : Nat) : Single (.new now) where
  few := Nat.le_refl 1
  whole := fun _ => rfl
  newest := fun i st hst => by simp [ModalState.new] at hst
  shows := fun _ => by simp [ModalState.new]

/-- All along a run there is one connection at most, the one typed into, with the window connected
when it is open, exactly when Reconnect is never pressed. -/
theorem single_iff (now : Nat) (as : List Action) :
    (∀ pre, pre <+: as → Single (modal.run (.new now) pre).1) ↔
      modal.AllSteps Unpressed (.new now) as :=
  modal.prefixes_iff_allSteps step_single_iff (new_single now) as

/-! ## How long it waits -/

/-- The retries since a connection opened or the button was pressed. -/
def failuresAfter (n : Nat) : Event → Nat
  | .retrying _ => n + 1
  | .opened _ | .reconnect => 0
  | _ => n

def failures (past : List Event) : Nat := past.foldl failuresAfter 0

theorem failures_append (past es : List Event) :
    failures (past ++ es) = es.foldl failuresAfter (failures past) := by
  rw [failures, List.foldl_append, failures]

section Step

variable {past : List Event} {s : ModalState}

theorem failures_quiet (past : List Event) {es : List Event}
    (hes : ∀ e ∈ es, ∀ n, failuresAfter n e = n) : failures (past ++ es) = failures past := by
  rw [failures_append]
  generalize failures past = n
  induction es with
  | nil => rfl
  | cons e es ih =>
      rw [List.foldl_cons, hes e List.mem_cons_self]
      exact ih fun f hf => hes f (List.mem_cons_of_mem e hf)

theorem notice_quiet (s : ModalState) (text : String) :
    ∀ e ∈ s.notice text, ∀ n, failuresAfter n e = n := by
  intro e he
  unfold ModalState.notice at he
  split at he
  · cases List.mem_singleton.mp he
    exact fun _ => rfl
  · cases he

theorem failures_noticed (past : List Event) (e : Event) (text : String) :
    failures (past ++ e :: s.notice text) = failuresAfter (failures past) e := by
  have hsplit : past ++ e :: s.notice text = (past ++ [e]) ++ s.notice text := by
    rw [List.append_assoc, List.singleton_append]
  rw [hsplit, failures_quiet _ (notice_quiet s text), failures_append]
  rfl

theorem step_retry (h : s.retry = failures past) (a : Action) :
    (modal.step s a).1.retry = failures (past ++ (modal.step s a).2) := by
  have hnothing : s.retry = failures (past ++ []) := by rw [h, List.append_nil]
  have hone : ∀ e, (∀ n, failuresAfter n e = n) → s.retry = failures (past ++ [e]) := by
    intro e he
    rw [h, failures_quiet past fun f hf => List.mem_singleton.mp hf ▸ he]
  cases a with
  | elapse ms => exact hnothing
  | mountTimer =>
      simp only [modal, fireMount]
      split
      · exact hnothing
      · split
        · exact hone _ fun _ => rfl
        · exact hnothing
  | timer i =>
      simp only [modal, fire]
      split
      · exact hnothing
      · split
        · exact hone _ fun _ => rfl
        · exact hnothing
  | opened socket =>
      simp only [modal, onOpen]
      split
      · rw [failures_noticed]
        rfl
      · exact hnothing
  | message socket text =>
      simp only [modal, onMessage]
      split
      · exact hone _ fun _ => rfl
      · exact hnothing
  | error socket =>
      simp only [modal, onError]
      split
      · exact hnothing
      · exact hnothing
      · rw [failures_quiet past (notice_quiet s _)]
        exact h
  | closed socket =>
      simp only [modal, onClose]
      split
      · exact hnothing
      · exact hnothing
      · rw [failures_noticed, ← h]
        rfl
  | input data =>
      simp only [modal, onData]
      split
      · exact hnothing
      · split
        · exact hone _ fun _ => rfl
        · exact hnothing
  | reconnect =>
      simp only [modal, handleReconnect]
      split
      · rw [failures_append]
        rfl
      · exact hnothing
  | unmount =>
      simp only [modal, unmount]
      split
      · have hretry : s.closeRef.retry = s.retry := by
          cases closeRef_cases s with
          | inl hsame => rw [hsame]
          | inr hclosing =>
              obtain ⟨socket, was, -, -, -, hclosing⟩ := hclosing
              rw [hclosing]
        rw [hretry]
        split
        · exact hone _ fun _ => rfl
        · exact hnothing
      · exact hnothing

/-- What the close of a connection sets and says. -/
theorem step_closed {socket : Nat} {was : ReadyState} (hsocket : s.sockets[socket]? = some was)
    (hlive : was ≠ .closed) :
    (modal.step s (.closed socket)).1.timers = s.timers ++ [s.now + delay s.retry] ∧
      (modal.step s (.closed socket)).2 =
        .retrying (delay s.retry) :: s.notice (retryNotice (delay s.retry)) := by
  cases was with
  | closed => exact absurd rfl hlive
  | connecting | opened | closing =>
      simp only [modal, onClose, hsocket]
      exact ⟨trivial, trivial⟩

end Step

/-- Over every run: when a connection closes, the next one is set for after the delay for as many
retries as were made since one opened or the button was pressed. As long as there is a terminal, it
says so. -/
theorem delay_of_failures (now : Nat) (as : List Action) {socket : Nat} {was : ReadyState}
    (hsocket : (modal.run (.new now) as).1.sockets[socket]? = some was) (hlive : was ≠ .closed) :
    let s := (modal.run (.new now) as).1
    let d := delay (failures (modal.run (.new now) as).2)
    (modal.step s (.closed socket)).1.timers = s.timers ++ [s.now + d] ∧
      (modal.step s (.closed socket)).2 =
        .retrying d :: if s.mounted then [.notice (retryNotice d)] else [] := by
  have hretry := modal.run_related (R := fun past s => s.retry = failures past)
    (P := fun _ _ => True) (fun _ _ a h _ => step_retry h a) rfl
    (modal.allSteps_of (fun _ _ => trivial) (.new now) as)
  have hclosed := step_closed hsocket hlive
  rw [hretry] at hclosed
  exact hclosed

/-- The first connection was tried and the second one is being tried. -/
def twoTries : List Action := [.elapse 100, .mountTimer, .closed 0, .elapse 1000, .timer 0]

theorem delay_of_failures_second :
    let s := (modal.run (.new 0) twoTries).1
    (modal.step s (.closed 1)).1.timers = [3100] ∧
      (modal.step s (.closed 1)).2 = [.retrying 2000, .notice (retryNotice 2000)] := by
  have hsocket : (modal.run (.new 0) twoTries).1.sockets[1]? = some .connecting := by decide
  exact delay_of_failures 0 twoTries hsocket (by decide)

/-! ## After the window is closed -/

section Onward

theorem exists_connect_of_timer (s : ModalState) (h : s.timers ≠ []) :
    ∃ as, (∀ a ∈ as, a.IsPlain) ∧
      (modal.run s as).1.sockets.length = s.sockets.length + 1 := by
  cases htimers : s.timers with
  | nil => exact absurd htimers h
  | cons due timers =>
      refine ⟨[.elapse due, .timer 0], ?_, ?_⟩
      · intro a ha
        simp only [List.mem_cons, List.not_mem_nil, or_false] at ha
        cases ha with
        | inl heq => rw [heq]; trivial
        | inr heq => rw [heq]; trivial
      · have hdue : due ≤ s.now + due := Nat.le_add_left due s.now
        simp [modal, Machine.run, ModalState.fire, htimers, hdue, ModalState.connect]

theorem exists_connect (s : ModalState) (h : 1 ≤ s.chains) :
    ∃ as, (∀ a ∈ as, a.IsPlain) ∧
      (modal.run s as).1.sockets.length = s.sockets.length + 1 := by
  by_cases htimers : s.timers = []
  · cases hmount : s.mountTimer with
    | some due =>
        refine ⟨[.elapse due, .mountTimer], ?_, ?_⟩
        · intro a ha
          simp only [List.mem_cons, List.not_mem_nil, or_false] at ha
          cases ha with
          | inl heq => rw [heq]; trivial
          | inr heq => rw [heq]; trivial
        · have hdue : due ≤ s.now + due := Nat.le_add_left due s.now
          simp [modal, Machine.run, fireMount, hmount, hdue, ModalState.connect]
    | none =>
        -- the only connection is a socket: it closes, and that sets a timer
        have hlive : 0 < live s.sockets := by
          simp only [chains, htimers, hmount, Option.toList_none, List.length_nil] at h
          omega
        obtain ⟨was, hmem, hwas⟩ := List.countP_pos_iff.mp hlive
        obtain ⟨socket, hsocket⟩ := List.mem_iff_getElem?.mp hmem
        have hstep : (modal.step s (.closed socket)).1.timers ≠ [] ∧
            (modal.step s (.closed socket)).1.sockets.length = s.sockets.length := by
          simp only [modal, onClose, hsocket]
          cases was with
          | closed => exact absurd hwas (by decide)
          | connecting | opened | closing =>
              constructor
              · simp
              · exact List.length_set
        obtain ⟨as, hplain, hmore⟩ := exists_connect_of_timer _ hstep.1
        refine ⟨.closed socket :: as, ?_, ?_⟩
        · intro a ha
          cases List.mem_cons.mp ha with
          | inl heq => rw [heq]; trivial
          | inr hrest => exact hplain a hrest
        · rw [Machine.run_cons, hmore, hstep.2]
  · exact exists_connect_of_timer s htimers

theorem run_chains_plain (s : ModalState) {as : List Action} (has : ∀ a ∈ as, a.IsPlain) :
    (modal.run s as).1.chains = s.chains := by
  induction as generalizing s with
  | nil => rfl
  | cons a as ih =>
      rw [Machine.run_cons, ih _ fun b hb => has b (List.mem_cons_of_mem a hb),
        step_chains_plain s a (has a List.mem_cons_self)]

end Onward

/-- After any run, with the window open or closed, there is a way on without any button on which
as many connections are made as one likes, unless the window was closed before the first. -/
theorem connects_onward (now : Nat) (as : List Action)
    (htried : .cancelled ∉ (modal.run (.new now) as).2) (n : Nat) :
    ∃ bs, (∀ b ∈ bs, b.IsPlain) ∧ (modal.run (.new now) (as ++ bs)).1.sockets.length =
      (modal.run (.new now) as).1.sockets.length + n := by
  have hcounted := connections_counted now as
  have hnone : (modal.run (.new now) as).2.countP Event.isCancelled = 0 := by
    apply List.countP_eq_zero.mpr
    intro e he hcancelled
    cases e with
    | cancelled => exact htried he
    | connect | opened | retrying | reconnect | shown | notice | sent => cases hcancelled
  have hchains : 1 ≤ (modal.run (.new now) as).1.chains := by omega
  simp only [Machine.run_append]
  generalize (modal.run (.new now) as).1 = s at hchains
  induction n generalizing s with
  | zero => exact ⟨[], List.forall_mem_nil _, rfl⟩
  | succ n ih =>
      obtain ⟨first, hfirst, hone⟩ := exists_connect s hchains
      have hkept := run_chains_plain s hfirst
      obtain ⟨rest, hrest, hmore⟩ := ih (modal.run s first).1 (by omega)
      refine ⟨first ++ rest, ?_, ?_⟩
      · intro b hb
        cases List.mem_append.mp hb with
        | inl hb => exact hfirst b hb
        | inr hb => exact hrest b hb
      · rw [Machine.run_append, hmore, hone]
        omega

theorem connects_onward_closed :
    ∃ bs, (∀ b ∈ bs, b.IsPlain) ∧
      (modal.run (.new 0)
        ([.elapse 100, .mountTimer, .opened 0, .unmount] ++ bs)).1.sockets.length = 1 + 7 :=
  connects_onward 0 [.elapse 100, .mountTimer, .opened 0, .unmount] (by decide) 7

end Caiman.Ui.ConsoleModal
