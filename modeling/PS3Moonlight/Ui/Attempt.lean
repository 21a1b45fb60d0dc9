import PS3Moonlight.Ui.Frame

/-!
This module contains the main thread's side of a connection: the loop of `main.c` with the requests of
`handshake.c` in it, as far as they look at `ui_state`. Every call that answers something is a statement
whose outcome is left open.
-/

namespace Ui

/- The requests of one attempt. Behind `pairStep2` stands the number of retries left after it. -/
inductive Request where
  | isPaired
  | pairStep1
  | pairStep2 (retries : Nat)
  | pairStep3
  | pairStep4
  | pairStep5
  | serverInfo
  | appList
  | resume
  | cancel
  | launch
  deriving DecidableEq

/- The places where an attempt is given up if `ui_state` is the address screen. -/
inductive Look where
  | initFailed
  | isPaired (paired : Bool)
  | pairFailed
  | paired
  | serverInfoFailed
  | serverInfo
  | appListFailed
  | launchFailed
  deriving DecidableEq

/- The next statement of the main thread. -/
inductive MainPc where
  | running
  | ifPairing
  | hvInitAddress
  | hvInitFiles
  | randomPin
  | connect (r : Request)
  | pollState (r : Request) (polls : Nat)
  | pollRunning (r : Request) (polls : Nat)
  | poll (r : Request) (polls : Nat)
  | exchange (r : Request)
  | retryUuid (retries : Nat)
  | retryState (retries : Nat)
  | look (l : Look)
  | ifStillPairing
  | setAppList
  | setActiveIdx
  | setUnconfirmed
  | resetAppSelection
  | setApplist
  | whileRunning
  | whileApplist
  | whileUnselected
  | ifRunning
  | ifApplist
  | selectedAppId
  | selectedAppName
  | sessionKeys
  | resumeParams
  | liStartConnection
  | liStarting
  | setStreaming
  | waitRunning (waits : Nat)
  | waitConnected (waits : Nat)
  | ifConnectedRunning
  | ifConnected
  | streamRunning
  | streamReady
  | whileStreaming
  | exitCombo
  | setExitCombo
  | setStreamError
  | liStopConnection
  | setIpEntry
  | setError
  | terminated
  deriving DecidableEq

/- How a call turns out. -/
inductive Outcome where
  | ok
  | fail
  | wait
  | apps (entries : List AppEntry)

def Outcome.isOk (o : Outcome) : Bool :=
  match o with
  | .ok => true
  | _ => false

/- The main thread with the locals of an attempt. -/
structure MainThread where
  pc : MainPc
  address : List UInt8
  appList : List AppEntry
  appId : Int
  appName : List UInt8
  serverAddress : List UInt8

/- A request that gets no response. -/
def Request.failed (r : Request) : MainPc :=
  match r with
  | .isPaired => .look (.isPaired false)
  | .pairStep1 => .look .pairFailed
  | .pairStep2 retries => .retryUuid retries
  | .pairStep3 => .look .pairFailed
  | .pairStep4 => .look .pairFailed
  | .pairStep5 => .look .pairFailed
  | .serverInfo => .look .serverInfoFailed
  | .appList => .look .appListFailed
  | .resume => .connect .cancel
  | .cancel => .connect .launch
  | .launch => .look .launchFailed

/- A response with what the request asks for. -/
def Request.accepted (r : Request) : MainPc :=
  match r with
  | .isPaired => .look (.isPaired true)
  | .pairStep1 => .retryUuid 60
  | .pairStep2 _ => .connect .pairStep3
  | .pairStep3 => .connect .pairStep4
  | .pairStep4 => .connect .pairStep5
  | .pairStep5 => .look .paired
  | .serverInfo => .look .serverInfo
  | .appList => .setAppList
  | .resume => .liStartConnection
  | .cancel => .connect .launch
  | .launch => .liStartConnection

/-
The response to a request. A malformed challenge response ends the pairing, any other answer to the
challenge makes it wait for the PIN; a list of apps is only accepted with an app in it.
-/
def Request.answered (r : Request) (o : Outcome) : MainPc :=
  match o with
  | .ok =>
    match r with
    | .appList => .look .appListFailed
    | _ => r.accepted
  | .fail =>
    match r with
    | .pairStep2 _ => .look .pairFailed
    | _ => r.failed
  | .wait => r.failed
  | .apps entries =>
    match r, entries with
    | .appList, _ :: _ => .setAppList
    | _, _ => r.failed

/- The attempt goes on. -/
def Look.passed (l : Look) : MainPc :=
  match l with
  | .initFailed => .setError
  | .isPaired true => .look .paired
  | .isPaired false => .connect .pairStep1
  | .pairFailed => .ifStillPairing
  | .paired => .connect .serverInfo
  | .serverInfoFailed => .look .serverInfo
  | .serverInfo => .connect .appList
  | .appListFailed => .setError
  | .launchFailed => .setError

/- `ui_get_selected_app_id` and `ui_get_selected_app_name` look at the same entry. -/
def Shared.selectedApp (s : Shared) : Option AppEntry :=
  s.currentAppList[s.activeAppIdx]?

namespace MainThread

/- What the next statement writes. -/
def effect (m : MainThread) (s : Shared) : Shared :=
  match m.pc with
  | .setAppList => { s with currentAppList := m.appList }
  | .setActiveIdx => { s with activeAppIdx := 0 }
  | .setUnconfirmed => { s with appSelectionConfirmed := false }
  | .resetAppSelection => { s with appSelectionConfirmed := false }
  | .setApplist => { s with uiState := .applist }
  | .setStreaming => { s with uiState := .streaming }
  | .setExitCombo => { s with uiState := .ipEntry }
  | .setStreamError => { s with uiState := .error }
  | .setIpEntry => { s with uiState := .ipEntry }
  | .setError => { s with uiState := .error }
  | _ => s

/-
Where the thread goes, by what it reads and how a call turns out. An attempt that is given up goes back
to the head of the loop.
-/
def target (m : MainThread) (s : Shared) (o : Outcome) : MainPc :=
  match m.pc with
  | .running => if s.uiRunning then .ifPairing else .terminated
  | .ifPairing => if s.uiState = .pairing then .hvInitAddress else .running
  | .hvInitAddress => .hvInitFiles
  | .hvInitFiles => if o.isOk then .randomPin else .look .initFailed
  | .randomPin => if o.isOk then .connect .isPaired else .setError
  | .connect r =>
    match o with
    | .ok => .exchange r
    | .wait => .pollState r 50
    | _ => r.failed
  | .pollState r polls =>
    if polls = 0 ∨ s.uiState = .ipEntry then r.failed else .pollRunning r polls
  | .pollRunning r polls => if s.uiRunning then .poll r polls else r.failed
  | .poll r polls =>
    match o with
    | .ok => .exchange r
    | .wait => .pollState r (polls - 1)
    | _ => r.failed
  | .exchange r => r.answered o
  | .retryUuid 0 => .look .pairFailed
  | .retryUuid (retries + 1) => if o.isOk then .retryState retries else .look .pairFailed
  | .retryState retries =>
    if s.uiState = .ipEntry then .look .pairFailed else .connect (.pairStep2 retries)
  | .look l => if s.uiState = .ipEntry then .running else l.passed
  | .ifStillPairing => if s.uiState = .pairing then .setError else .running
  | .setAppList => .setActiveIdx
  | .setActiveIdx => .setUnconfirmed
  | .setUnconfirmed => .resetAppSelection
  | .resetAppSelection => .setApplist
  | .setApplist => .whileRunning
  | .whileRunning => if s.uiRunning then .whileApplist else .ifRunning
  | .whileApplist => if s.uiState = .applist then .whileUnselected else .ifRunning
  | .whileUnselected => if s.appSelectionConfirmed then .ifRunning else .whileRunning
  | .ifRunning => if s.uiRunning then .ifApplist else .running
  | .ifApplist => if s.uiState = .applist then .selectedAppId else .running
  | .selectedAppId => .selectedAppName
  | .selectedAppName => .sessionKeys
  | .sessionKeys => if o.isOk then .resumeParams else .setError
  | .resumeParams => if o.isOk then .connect .resume else .look .launchFailed
  | .liStartConnection => .liStarting
  | .liStarting => if o.isOk then .setStreaming else .setError
  | .setStreaming => .waitRunning 100
  | .waitRunning waits => if s.uiRunning then .waitConnected waits else .ifConnectedRunning
  | .waitConnected waits =>
    match o with
    | .wait => if waits = 0 then .ifConnectedRunning else .waitRunning (waits - 1)
    | _ => .ifConnectedRunning
  | .ifConnectedRunning => if s.uiRunning then .ifConnected else .setStreamError
  | .ifConnected => if o.isOk then .streamRunning else .setStreamError
  | .streamRunning => if s.uiRunning then .streamReady else .liStopConnection
  | .streamReady => if o.isOk then .whileStreaming else .liStopConnection
  | .whileStreaming => if s.uiState = .streaming then .exitCombo else .liStopConnection
  | .exitCombo => if o.isOk then .setExitCombo else .streamRunning
  | .setExitCombo => .streamRunning
  | .setStreamError => .liStopConnection
  | .liStopConnection => .setIpEntry
  | .setIpEntry => .running
  | .setError => .running
  | .terminated => .terminated

/- What the next statement stores in the locals. -/
def load (m : MainThread) (s : Shared) (o : Outcome) : MainThread :=
  match m.pc with
  | .hvInitAddress => { m with address := s.targetIp }
  | .exchange .appList =>
    match o with
    | .apps entries => { m with appList := entries }
    | _ => m
  | .selectedAppId => { m with appId := (s.selectedApp.map AppEntry.id).getD (-1) }
  | .selectedAppName => { m with appName := (s.selectedApp.map AppEntry.name).getD [] }
  | .liStartConnection => { m with serverAddress := s.targetIp }
  | _ => m

/- One statement of the main thread, until the program ends. -/
def step (m : MainThread) (s : Shared) (o : Outcome) : Option (Shared × MainThread) :=
  if m.pc = .terminated then
    none
  else
    some ⟨m.effect s, { m.load s o with pc := m.target s o }⟩

end MainThread

theorem MainThread.effect_targetIp (m : MainThread) (s : Shared)
    : (m.effect s).targetIp = s.targetIp := by
  unfold effect
  split
  all_goals rfl

theorem MainThread.load_address (m : MainThread) (s : Shared) (o : Outcome)
    : (m.load s o).address = if m.pc = .hvInitAddress then s.targetIp else m.address := by
  unfold load
  split
  . next hpc => simp [hpc]
  . next hpc =>
    split
    . simp [hpc]
    . simp [hpc]
  . next hpc => simp [hpc]
  . next hpc => simp [hpc]
  . next hpc => simp [hpc]
  . next hpc _ _ _ _ =>
    rw [if_neg]
    exact hpc

theorem MainThread.step_eq_some {m m' : MainThread} {s s' : Shared} {o : Outcome}
    (h : m.step s o = some ⟨s', m'⟩)
    : s' = m.effect s ∧ m'.pc = m.target s o
        ∧ m'.address = if m.pc = .hvInitAddress then s.targetIp else m.address := by
  unfold step at h
  split at h
  . simp at h
  . injection h with h
    injection h with hs hm
    refine ⟨hs.symm, ?_, ?_⟩
    . rw [← hm]
    . rw [← hm]
      apply m.load_address

end Ui
