import Mathlib.Data.List.Basic

namespace Pig.Tunnel.Lifecycle

/-! The connection attempts of one client share its `closed` flag, which the
end of a run sets and only the next established connection resets. The error
that ends a connection is part of the outcome of the attempt: what an earlier
run left in the channel of connection errors is drained before the dial. -/

inductive State where
  | disconnected
  | connecting
  | connected
  | stopped
  | connectionFailed
  deriving DecidableEq, Repr

abbrev Conn := Nat

structure EventContext where
  state : State
  conn : Option Conn
  error : Option String
  deriving DecidableEq, Repr

def EventContext.terminal (event : EventContext) : Bool :=
  match event.state with
  | .disconnected | .stopped | .connectionFailed => true
  | .connecting | .connected => false

/-- The state of a client between and in its runs. Every run has a context of
its own, for which `cancelled` says whether it was cancelled. -/
structure Client where
  started : Bool
  closed : Bool
  state : State
  peerAddr : Option Conn
  conn : Option Conn
  closedConns : List Conn
  queuesOpen : Bool
  readExpired : Bool
  events : List EventContext
  cancelled : List Bool
  deriving DecidableEq, Repr

def newClient : Client where
  started := false
  closed := false
  state := .disconnected
  peerAddr := none
  conn := none
  closedConns := []
  queuesOpen := false
  readExpired := false
  events := []
  cancelled := []

def eventsCapacity : Nat := 10

namespace Client

def updateStateFromEvent (c : Client) (event : EventContext) : Client :=
  match event.state with
  | .connected =>
    { c with
      state := .connected
      peerAddr := event.conn.or c.peerAddr }
  | .disconnected | .stopped | .connectionFailed =>
    { c with state := event.state }
  | .connecting => c

def signalEvent (c : Client) (event : EventContext) : Client :=
  let c := c.updateStateFromEvent event
  if c.events.length < eventsCapacity then
    { c with events := c.events ++ [event] }
  else c

/-- Nothing is done for a client that is closed already. -/
def cancelAndSignalEvent (c : Client) (ctx : Nat) (event : EventContext) : Client :=
  if c.closed then c
  else
    let c := { c with
      closed := true
      cancelled := c.cancelled.set ctx true }
    let c := c.signalEvent event
    { c with
      state := .stopped
      closedConns := c.closedConns ++ c.conn.toList
      readExpired := true
      queuesOpen := false }

def resetClosed (c : Client) : Client :=
  if c.closed then { c with closed := false } else c

end Client

inductive Outcome where
  | dialFails (error : String)
  | dialAborted (error : String)
  | authenticationFails (conn : Conn) (error : String)
  | connectionLost (conn : Conn) (error : String)
  | contextCancelled (conn : Conn) (error : String)
  deriving DecidableEq, Repr

def Outcome.connects : Outcome → Bool
  | .connectionLost .. | .contextCancelled .. => true
  | .dialFails .. | .dialAborted .. | .authenticationFails .. => false

def Outcome.dialled : Outcome → Option Conn
  | .dialFails .. | .dialAborted .. => none
  | .authenticationFails conn _ | .connectionLost conn _
  | .contextCancelled conn _ => some conn

def Outcome.authenticates : Outcome → Bool
  | .authenticationFails .. => false
  | _ => true

theorem Outcome.authenticates_of_connects {outcome : Outcome}
    (hconnects : outcome.connects = true) : outcome.authenticates = true := by
  cases outcome with
  | authenticationFails conn error => cases hconnects
  | _ => rfl

theorem Outcome.dialled_eq_none_iff {outcome : Outcome} (hrefused : outcome.connects = false) :
    outcome.dialled = none ↔ outcome.authenticates = true := by
  cases outcome with
  | dialFails error | dialAborted error => exact iff_of_true rfl rfl
  | authenticationFails conn error =>
    exact iff_of_false (Option.some_ne_none conn) Bool.false_ne_true
  | connectionLost conn error | contextCancelled conn error => cases hrefused

namespace Client

def connect (c : Client) (conn : Conn) : Client :=
  ({ c with conn := some conn }.resetClosed).signalEvent ⟨.connected, some conn, none⟩

def setUp (c : Client) : Client :=
  { c with
    cancelled := c.cancelled ++ [false]
    queuesOpen := true
    readExpired := false }

def manageConnection (c : Client) (outcome : Outcome) : Client :=
  let ctx := c.cancelled.length
  let c := c.setUp
  match outcome with
  | .dialFails error =>
    c.cancelAndSignalEvent ctx ⟨.connectionFailed, none, some error⟩
  | .dialAborted _ => c.cancelAndSignalEvent ctx ⟨.stopped, none, none⟩
  | .authenticationFails _ error =>
    c.cancelAndSignalEvent ctx ⟨.connectionFailed, none, some error⟩
  | .connectionLost conn error =>
    let c := c.connect conn
    c.cancelAndSignalEvent ctx ⟨.disconnected, c.conn, some error⟩
  | .contextCancelled conn error =>
    let c := c.connect conn
    c.cancelAndSignalEvent ctx ⟨.stopped, c.conn, some error⟩

/-- A start with a context that is not done, and the wait for the end of the
run. -/
def start (c : Client) (outcome : Outcome) : Client :=
  if c.started then c
  else
    let c := { c with started := true }
    { c.manageConnection outcome with started := false }

end Client

/-- An attempt, before which the receiver of the events takes some of them. -/
structure Attempt where
  taken : Nat
  outcome : Outcome
  deriving DecidableEq, Repr

namespace Client

variable {c : Client} {run : Attempt}

def pending (c : Client) (run : Attempt) : List EventContext := c.events.drop run.taken

def perform (c : Client) (run : Attempt) : Client :=
  { c with events := c.pending run }.start run.outcome

def performAll (c : Client) (runs : List Attempt) : Client := runs.foldl perform c

/-- A run signals at most two events, of which none is dropped. -/
def HasRoom (c : Client) (run : Attempt) : Prop := (c.pending run).length + 2 ≤ eventsCapacity

structure EndsOnce (c : Client) (run : Attempt) : Prop where
  terminal : ∃ signalled, (c.perform run).events = c.pending run ++ signalled ∧
      signalled.countP EventContext.terminal = 1
  cancelled : (c.perform run).cancelled = c.cancelled ++ [true]

structure Ended (c : Client) : Prop where
  idle : c.started = false
  closed : c.closed = true

theorem updateStateFromEvent_eq (c : Client) (event : EventContext) : ∃ state peerAddr,
      c.updateStateFromEvent event =
        { c with state := state, peerAddr := peerAddr } := by
  unfold updateStateFromEvent
  split <;> exact ⟨_, _, rfl⟩

theorem signalEvent_eq (c : Client) (event : EventContext)
    (hroom : c.events.length < eventsCapacity) :
    ∃ state peerAddr, c.signalEvent event =
        { c with
          state := state
          peerAddr := peerAddr
          events := c.events ++ [event] } := by
  obtain ⟨state, peerAddr, heq⟩ := c.updateStateFromEvent_eq event
  exact ⟨state, peerAddr, by simp only [signalEvent, heq, if_pos hroom]⟩

theorem signalEvent_closed (c : Client) (event : EventContext) :
    (c.signalEvent event).closed = c.closed := by
  obtain ⟨state, peerAddr, heq⟩ := c.updateStateFromEvent_eq event
  unfold signalEvent
  simp only [heq]
  split <;> rfl

theorem cancelAndSignalEvent_closed (c : Client) (ctx : Nat)
    (event : EventContext) : (c.cancelAndSignalEvent ctx event).closed := by
  unfold cancelAndSignalEvent
  split
  case isTrue closed => exact closed
  case isFalse => simp only [signalEvent_closed]

theorem cancelAndSignalEvent_of_open (ctx : Nat) (event : EventContext)
    (hopen : c.closed = false) (hroom : c.events.length < eventsCapacity) :
    (c.cancelAndSignalEvent ctx event).events = c.events ++ [event] ∧
      (c.cancelAndSignalEvent ctx event).cancelled =
        c.cancelled.set ctx true := by
  obtain ⟨state, peerAddr, heq⟩ := signalEvent_eq
    { c with closed := true, cancelled := c.cancelled.set ctx true } event
    hroom
  simp [cancelAndSignalEvent, hopen, heq]

theorem cancelAndSignalEvent_of_closed {ctx : Nat} {event : EventContext}
    (hclosed : c.closed = true) : c.cancelAndSignalEvent ctx event = c :=
  if_pos hclosed

theorem resetClosed_eq (c : Client) : c.resetClosed = { c with closed := false } := by
  obtain ⟨started, closed, rest⟩ := c
  cases closed <;> rfl

theorem connect_eq (c : Client) (conn : Conn) (hroom : c.events.length < eventsCapacity) :
    (c.connect conn).closed = false ∧ (c.connect conn).events =
        c.events ++ [⟨.connected, some conn, none⟩] ∧
      (c.connect conn).cancelled = c.cancelled := by
  obtain ⟨state, peerAddr, heq⟩ := signalEvent_eq { c with conn := some conn, closed := false }
    ⟨.connected, some conn, none⟩ hroom
  simp [connect, resetClosed_eq, heq]

def dialling (c : Client) (run : Attempt) : Client :=
  { c with
    events := c.pending run
    started := true }.setUp

theorem perform_cases (run : Attempt) (hidle : c.started = false) :
    ∃ event : EventContext, event.terminal = true ∧ ((run.outcome.connects = false ∧ c.perform run =
          { ((c.dialling run).cancelAndSignalEvent c.cancelled.length
              event) with started := false }) ∨
        (run.outcome.connects = true ∧ ∃ conn, run.outcome.dialled = some conn ∧ c.perform run =
          { (((c.dialling run).connect conn).cancelAndSignalEvent
              c.cancelled.length event) with started := false })) := by
  have heq : c.perform run =
      { ({ c with
            events := c.pending run
            started := true }.manageConnection run.outcome) with
        started := false } := by
    simp [perform, start, hidle]
  rw [heq]
  cases run.outcome with
  | dialFails error | authenticationFails conn error =>
    exact ⟨⟨.connectionFailed, none, some error⟩, rfl, .inl ⟨rfl, rfl⟩⟩
  | dialAborted error =>
    exact ⟨⟨.stopped, none, none⟩, rfl, .inl ⟨rfl, rfl⟩⟩
  | connectionLost conn error =>
    exact ⟨⟨.disconnected, ((c.dialling run).connect conn).conn,
      some error⟩, rfl, .inr ⟨rfl, conn, rfl, rfl⟩⟩
  | contextCancelled conn error =>
    exact ⟨⟨.stopped, ((c.dialling run).connect conn).conn, some error⟩,
      rfl, .inr ⟨rfl, conn, rfl, rfl⟩⟩

theorem ended_perform (hidle : c.started = false) : (c.perform run).Ended := by
  obtain ⟨event, -, ⟨-, heq⟩ | ⟨-, conn, -, heq⟩⟩ := perform_cases run hidle
  · rw [heq]
    exact ⟨rfl, cancelAndSignalEvent_closed _ _ _⟩
  · rw [heq]
    exact ⟨rfl, cancelAndSignalEvent_closed _ _ _⟩

theorem ended_performAll {runs : List Attempt} (hidle : c.started = false)
    (hruns : runs ≠ []) : (c.performAll runs).Ended := by
  induction runs generalizing c with
  | nil => exact absurd rfl hruns
  | cons run runs ih =>
    have hended : (c.perform run).Ended := ended_perform hidle
    cases runs with
    | nil => exact hended
    | cons next runs => exact ih hended.idle (List.cons_ne_nil next runs)

theorem endsOnce_of_open {last : Client} {event : EventContext} {signalled : List EventContext}
    (heq : c.perform run =
      { (last.cancelAndSignalEvent c.cancelled.length event) with
        started := false })
    (hopen : last.closed = false)
    (hroom : last.events.length < eventsCapacity)
    (hevents : last.events = c.pending run ++ signalled)
    (hcancelled : last.cancelled = c.cancelled ++ [false])
    (hterminal : event.terminal = true)
    (hsignalled : signalled.countP EventContext.terminal = 0) :
    c.EndsOnce run := by
  obtain ⟨hadded, hset⟩ := cancelAndSignalEvent_of_open c.cancelled.length event hopen hroom
  constructor
  case terminal =>
    refine ⟨signalled ++ [event], ?_, ?_⟩
    · rw [heq, ← List.append_assoc, ← hevents]
      exact hadded
    · simp [hsignalled, hterminal]
  case cancelled =>
    rw [heq]
    simpa [hcancelled] using hset

theorem endsOnce_iff (hidle : c.started = false) (hroom : c.HasRoom run) :
    c.EndsOnce run ↔ c.closed = false ∨ run.outcome.connects = true := by
  have hpending : (c.pending run).length + 2 ≤ 10 := hroom
  obtain ⟨event, hterminal, ⟨hrefused, heq⟩ | ⟨hconnects, conn, -, heq⟩⟩ := perform_cases run hidle
  · cases hclosed : c.closed with
    | false =>
      have hevents : (c.dialling run).events = c.pending run ++ [] := (List.append_nil _).symm
      exact iff_of_true (endsOnce_of_open heq hclosed
          (show (c.pending run).length < 10 by omega) hevents rfl hterminal
          rfl)
        (.inl rfl)
    | true =>
      -- A client that is closed already is left as it is before the dial.
      refine iff_of_false ?_ (by simp [hrefused])
      intro hends
      have hleft := hends.cancelled
      rw [heq, cancelAndSignalEvent_of_closed (by exact hclosed)] at hleft
      simp [dialling, setUp] at hleft
  · obtain ⟨hopen, hconnected, hkept⟩ := connect_eq (c.dialling run) conn
      (show (c.pending run).length < 10 by omega)
    have hfit : ((c.dialling run).connect conn).events.length <
        eventsCapacity := by
      rw [hconnected, List.length_append]
      change (c.pending run).length + 1 < 10
      omega
    exact iff_of_true (endsOnce_of_open heq hopen hfit hconnected hkept hterminal rfl)
      (.inr hconnects)

end Client

open Pig.Tunnel.Lifecycle.Client

/-- With room for its events, every run of a client ends with one terminal
event and a cancelled context exactly when all attempts but the first one get
a connection. -/
theorem endsOnce_iff_reconnects (runs : List Attempt)
    (hroom : ∀ before run after, runs = before ++ run :: after →
      (newClient.performAll before).HasRoom run) :
    (∀ before run after, runs = before ++ run :: after →
      (newClient.performAll before).EndsOnce run) ↔
    ∀ run ∈ runs.tail, run.outcome.connects = true := by
  constructor
  · intro hends run hrun
    obtain ⟨first, rest, rfl⟩ : ∃ first rest, runs = first :: rest := by
      cases runs with
      | nil => cases hrun
      | cons first rest => exact ⟨first, rest, rfl⟩
    obtain ⟨before, after, rfl⟩ := List.append_of_mem hrun
    have hended : (newClient.performAll (first :: before)).Ended :=
      ended_performAll rfl (List.cons_ne_nil first before)
    have hrun := hends (first :: before) run after rfl
    rw [endsOnce_iff hended.idle (hroom (first :: before) run after rfl), hended.closed] at hrun
    simpa using hrun
  · rintro hconnects before run after rfl
    cases before with
    | nil =>
      have hfits : newClient.HasRoom run := hroom [] run after rfl
      exact (endsOnce_iff rfl hfits).2 (.inl rfl)
    | cons first before =>
      have hended : (newClient.performAll (first :: before)).Ended :=
        ended_performAll rfl (List.cons_ne_nil first before)
      refine (endsOnce_iff hended.idle (hroom (first :: before) run after rfl)).2 (.inr ?_)
      exact hconnects run (by simp)

def dialFailure : Attempt := ⟨0, .dialFails "i/o timeout"⟩

def lostConnection : Attempt := ⟨1, .connectionLost 0 "EOF"⟩

theorem endsOnce_iff_reconnects_lostConnection : (∀ before run after,
      [dialFailure, lostConnection] = before ++ run :: after →
        (newClient.performAll before).HasRoom run) ∧
    ∀ before run after, [dialFailure, lostConnection] = before ++ run :: after →
        (newClient.performAll before).EndsOnce run := by
  have hroom : ∀ before run after, [dialFailure, lostConnection] = before ++ run :: after →
        (newClient.performAll before).HasRoom run := by
    intro before run after heq
    rcases before with _ | ⟨first, _ | ⟨second, before⟩⟩
    · obtain ⟨rfl, -⟩ := List.cons.inj heq
      show (newClient.pending dialFailure).length + 2 ≤ 10
      decide
    · obtain ⟨rfl, hrest⟩ := List.cons.inj heq
      obtain ⟨rfl, -⟩ := List.cons.inj hrest
      show ((newClient.perform dialFailure).pending lostConnection).length + 2 ≤ 10
      decide
    · simp at heq
  exact ⟨hroom, (endsOnce_iff_reconnects _ hroom).2 (by decide)⟩

/-- The second of two failed dials signals nothing, and its context lives
on. -/
theorem exists_not_endsOnce : newClient.HasRoom dialFailure ∧
      (newClient.perform dialFailure).HasRoom dialFailure ∧
      ¬ (newClient.perform dialFailure).EndsOnce dialFailure := by
  have hroom : (newClient.perform dialFailure).HasRoom dialFailure := by
    show ((newClient.perform dialFailure).pending dialFailure).length + 2 ≤ 10
    decide
  refine ⟨show (newClient.pending dialFailure).length + 2 ≤ 10 by decide, hroom, ?_⟩
  rw [endsOnce_iff rfl hroom]
  decide

namespace Client

variable {c : Client} {run : Attempt}

def ClosesDialled (c : Client) (run : Attempt) : Prop :=
  ∃ closing, (c.perform run).closedConns = c.closedConns ++ closing ∧
    ∀ conn ∈ run.outcome.dialled, conn ∈ closing

theorem signalEvent_conns (c : Client) (event : EventContext) :
    (c.signalEvent event).conn = c.conn ∧
      (c.signalEvent event).closedConns = c.closedConns := by
  obtain ⟨state, peerAddr, heq⟩ := c.updateStateFromEvent_eq event
  unfold signalEvent
  simp only [heq]
  split <;> exact ⟨rfl, rfl⟩

theorem cancelAndSignalEvent_closedConns (ctx : Nat) (event : EventContext)
    (hopen : c.closed = false) :
    (c.cancelAndSignalEvent ctx event).closedConns =
      c.closedConns ++ c.conn.toList := by
  obtain ⟨hconn, hclosed⟩ := signalEvent_conns
    { c with closed := true, cancelled := c.cancelled.set ctx true } event
  simp only [cancelAndSignalEvent, hopen, Bool.false_eq_true, if_false, hconn, hclosed]

theorem connect_conns (c : Client) (conn : Conn) :
    (c.connect conn).closed = false ∧ (c.connect conn).conn = some conn ∧
      (c.connect conn).closedConns = c.closedConns := by
  obtain ⟨hconn, hclosed⟩ := signalEvent_conns
    { c with conn := some conn, closed := false } ⟨.connected, some conn, none⟩
  rw [connect, resetClosed_eq]
  exact ⟨signalEvent_closed _ _, hconn, hclosed⟩

structure Quiet (c : Client) : Prop where
  idle : c.started = false
  conn_eq : c.closed = false → c.conn = none

theorem quiet_performAll (runs : List Attempt) : (newClient.performAll runs).Quiet := by
  cases runs with
  | nil => exact ⟨rfl, fun _ => rfl⟩
  | cons run runs =>
    have hended : (newClient.performAll (run :: runs)).Ended :=
      ended_performAll rfl (List.cons_ne_nil run runs)
    refine ⟨hended.idle, fun hopen => ?_⟩
    exact absurd (hended.closed.symm.trans hopen) (by decide)

theorem closedConns_of_refused (quiet : c.Quiet) {event : EventContext} (heq : c.perform run =
      { ((c.dialling run).cancelAndSignalEvent c.cancelled.length event) with
        started := false }) :
    (c.perform run).closedConns = c.closedConns := by
  rw [heq]
  cases hclosed : c.closed with
  | true =>
    rw [cancelAndSignalEvent_of_closed (by exact hclosed)]
    rfl
  | false =>
    have hconns := cancelAndSignalEvent_closedConns
      (c := c.dialling run) c.cancelled.length event hclosed
    have hnone : (c.dialling run).conn = none := quiet.conn_eq hclosed
    rw [hnone, Option.toList_none, List.append_nil] at hconns
    exact hconns

theorem closesDialled_iff (quiet : c.Quiet) :
    c.ClosesDialled run ↔ run.outcome.authenticates = true := by
  obtain ⟨event, -, ⟨hrefused, heq⟩ | ⟨hconnects, conn, hdialled, heq⟩⟩ :=
    perform_cases run quiet.idle
  · have hsame := closedConns_of_refused quiet heq
    rw [← Outcome.dialled_eq_none_iff hrefused]
    constructor
    · rintro ⟨closing, hclosing, hall⟩
      obtain rfl : closing = [] := List.append_right_eq_self.mp (hclosing.symm.trans hsame)
      exact Option.eq_none_iff_forall_not_mem.mpr fun conn hconn =>
        List.not_mem_nil (hall conn hconn)
    · intro hnone
      refine ⟨[], hsame.trans (List.append_nil _).symm, fun conn hconn => ?_⟩
      cases hnone.symm.trans hconn
  · obtain ⟨hopen, hconn, hconns⟩ := connect_conns (c.dialling run) conn
    have hclosing := cancelAndSignalEvent_closedConns c.cancelled.length event hopen
    rw [hconn, hconns] at hclosing
    refine iff_of_true ⟨[conn], ?_, fun other hother => ?_⟩
      (Outcome.authenticates_of_connects hconnects)
    · rw [heq]
      exact hclosing
    · cases hdialled.symm.trans hother
      exact List.mem_singleton_self conn

end Client

/-- Every run closes the connection that it dialled exactly if no authentication
fails. -/
theorem closesDialled_iff_authenticates (runs : List Attempt) :
    (∀ before run after, runs = before ++ run :: after →
      (newClient.performAll before).ClosesDialled run) ↔
    ∀ run ∈ runs, run.outcome.authenticates = true := by
  constructor
  · intro hcloses run hrun
    obtain ⟨before, after, rfl⟩ := List.append_of_mem hrun
    exact (closesDialled_iff (quiet_performAll before)).mp (hcloses before run after rfl)
  · rintro hauthenticates before run after rfl
    exact (closesDialled_iff (quiet_performAll before)).mpr (hauthenticates run (by simp))

/-- The connection of a client that is not let in stays open. -/
theorem exists_not_closesDialled :
    (newClient.perform ⟨0, .authenticationFails 0 "denied"⟩).closedConns = [] ∧
      ¬ newClient.ClosesDialled ⟨0, .authenticationFails 0 "denied"⟩ := by
  have quiet : newClient.Quiet := quiet_performAll []
  rw [closesDialled_iff quiet]
  decide

end Pig.Tunnel.Lifecycle
