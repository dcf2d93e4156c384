/-
This file proves that the events connection of a URL is unique. A connection
runs exactly while it has subscribers, the map holds exactly the connections
that run, and the only socket that can still be heard of is the current one; a
reconnect is pending only when there is none. What is stopped stays silent: it
creates no socket, sets no timer and calls nobody.
-/

import Multimux.Events

namespace Multimux

/-! ### One connection -/

/-- The socket is neither closed nor disowned. -/
def Socket.live (socket : Socket) : Bool :=
  socket.owned && socket.readyState ≠ .closed

/-- The socket is open for the page: it opened, and it was neither closed nor disowned since. -/
def Socket.isOpen (socket : Socket) : Bool :=
  socket.opened && socket.live

/-- The current socket is open. -/
def Connection.isOpen (conn : Connection) : Bool :=
  (conn.ws.bind fun index => conn.sockets[index]?).any Socket.isOpen

/-- A connection runs while it has subscribers; only its current socket is live, and none is
while a reconnect is pending. -/
structure Connection.Sound (conn : Connection) : Prop where
  stopped : conn.closed = true ↔ conn.subscribers = []
  single : ∀ (index : Nat) (socket : Socket), conn.sockets[index]? = some socket →
    socket.live = true → conn.ws = some index
  timers : conn.timers = [] ∨ conn.closed = false ∧
    (∃ id, conn.timers = [id] ∧ conn.reconnectTimeoutId = some id) ∧
    ∀ socket ∈ conn.sockets, socket.live = false

/-- What a step leaves when it only counts, reads the clock or calls subscribers. -/
structure Connection.Wired (conn after : Connection) : Prop where
  url : after.url = conn.url
  subscribers : after.subscribers = conn.subscribers
  ws : after.ws = conn.ws
  closed : after.closed = conn.closed
  reconnectTimeoutId : after.reconnectTimeoutId = conn.reconnectTimeoutId
  sockets : after.sockets = conn.sockets
  timers : after.timers = conn.timers
  nextTimer : after.nextTimer = conn.nextTimer

namespace Connection

variable {conn after : Connection} {now : Nat}

theorem Wired.refl (conn : Connection) : conn.Wired conn :=
  ⟨rfl, rfl, rfl, rfl, rfl, rfl, rfl, rfl⟩

theorem Wired.trans {last : Connection} (first : conn.Wired after) (second : after.Wired last) :
    conn.Wired last where
  url := second.url.trans first.url
  subscribers := second.subscribers.trans first.subscribers
  ws := second.ws.trans first.ws
  closed := second.closed.trans first.closed
  reconnectTimeoutId := second.reconnectTimeoutId.trans first.reconnectTimeoutId
  sockets := second.sockets.trans first.sockets
  timers := second.timers.trans first.timers
  nextTimer := second.nextTimer.trans first.nextTimer

theorem Sound.of_wired (sound : conn.Sound) (wired : conn.Wired after) : after.Sound := by
  obtain ⟨-, subscribers, ws, closed, reconnectTimeoutId, sockets, timers, -⟩ := wired
  refine ⟨?_, ?_, ?_⟩
  · rw [closed, subscribers]
    exact sound.stopped
  · rw [sockets, ws]
    exact sound.single
  · rw [timers, closed, reconnectTimeoutId, sockets]
    exact sound.timers

theorem setStatus_wired (conn : Connection) (status : EventsStatus) :
    conn.Wired (conn.setStatus status) :=
  ⟨rfl, rfl, rfl, rfl, rfl, rfl, rfl, rfl⟩

theorem finishClassify_wired (conn : Connection) (status : EventsStatus) :
    conn.Wired (conn.finishClassify status) := by
  unfold finishClassify
  split
  · exact .refl conn
  · exact conn.setStatus_wired status

theorem classify_wired (conn : Connection) : conn.Wired conn.classify := by
  unfold classify
  split
  · exact conn.finishClassify_wired _
  · exact ⟨rfl, rfl, rfl, rfl, rfl, rfl, rfl, rfl⟩

theorem onopen_wired (conn : Connection) (now : Nat) : conn.Wired (conn.onopen now) :=
  ⟨rfl, rfl, rfl, rfl, rfl, rfl, rfl, rfl⟩

theorem onmessage_wired (conn : Connection) (now : Nat) (frame : Option Frame) :
    conn.Wired (conn.onmessage now frame) := by
  unfold onmessage
  repeat' split
  all_goals exact ⟨rfl, rfl, rfl, rfl, rfl, rfl, rfl, rfl⟩

/-! ### Sockets -/

/-- A change that brings no socket to life leaves the connection sound. -/
theorem Sound.setSocket (sound : conn.Sound) (index : Nat) (change : Socket → Socket)
    (lives : ∀ socket, conn.sockets[index]? = some socket → (change socket).live = true →
      socket.live = true) : (conn.setSocket index change).Sound := by
  have older : ∀ (place : Nat) (socket : Socket),
      (conn.setSocket index change).sockets[place]? = some socket → socket.live = true →
      ∃ old, conn.sockets[place]? = some old ∧ old.live = true := by
    intro place socket found live
    obtain ⟨old, there, rfl⟩ := getElem?_modify_cases found
    refine ⟨old, there, ?_⟩
    split at live
    · rename_i same
      subst same
      exact lives old there live
    · exact live
  refine ⟨sound.stopped, ?_, ?_⟩
  · intro place socket found live
    obtain ⟨old, there, lived⟩ := older place socket found live
    exact sound.single place old there lived
  · refine sound.timers.imp_right fun pending => ⟨pending.1, pending.2.1, ?_⟩
    intro socket member
    obtain ⟨place, found⟩ := List.getElem?_of_mem member
    by_contra live
    obtain ⟨old, there, lived⟩ := older place socket found (by simpa using live)
    rw [pending.2.2 old (List.mem_of_getElem? there)] at lived
    cases lived

/-- Without a live socket and a timer a connection may connect. -/
theorem connect_sound (stopped : conn.closed = true ↔ conn.subscribers = [])
    (timers : conn.timers = []) (dead : ∀ socket ∈ conn.sockets, socket.live = false) :
    (conn.connect now).Sound := by
  unfold connect
  split
  · refine ⟨stopped, ?_, .inl timers⟩
    intro index socket found live
    rw [dead socket (List.mem_of_getElem? found)] at live
    cases live
  · refine ⟨stopped, ?_, .inl timers⟩
    intro index socket found live
    rcases getElem?_concat_cases found with older | ⟨rfl, -⟩
    · rw [dead socket (List.mem_of_getElem? older)] at live
      cases live
    · rfl

theorem clearTimer_timers (sound : conn.Sound) : conn.clearTimer.timers = [] := by
  unfold clearTimer
  rcases sound.timers with none | ⟨-, ⟨id, one, set⟩, -⟩
  · split
    · simp [none]
    · exact none
  · rw [set]
    simp [one]

theorem clearTimer_keeps (conn : Connection) :
    conn.clearTimer.sockets = conn.sockets ∧ conn.clearTimer.ws = conn.ws ∧
      conn.clearTimer.subscribers = conn.subscribers ∧ conn.clearTimer.closed = conn.closed ∧
      conn.clearTimer.url = conn.url ∧ conn.clearTimer.nextTimer = conn.nextTimer ∧
      conn.clearTimer.called = conn.called ∧ conn.clearTimer.lastStatus = conn.lastStatus := by
  unfold clearTimer
  split <;> exact ⟨rfl, rfl, rfl, rfl, rfl, rfl, rfl, rfl⟩

theorem Sound.reconnectNow (sound : conn.Sound) : (conn.reconnectNow now).Sound := by
  unfold Connection.reconnectNow
  split
  · exact sound
  · obtain ⟨sockets, ws, subscribers, closed, -⟩ := conn.clearTimer_keeps
    have timers := clearTimer_timers sound
    cases current : conn.ws with
    | none =>
      simp only [ws, current]
      refine connect_sound ?_ timers ?_
      · simp only [closed, subscribers]
        exact sound.stopped
      · intro socket member
        rw [sockets] at member
        obtain ⟨index, found⟩ := List.getElem?_of_mem member
        by_contra live
        have here := sound.single index socket found (by simpa using live)
        rw [current] at here
        cases here
    | some index =>
      simp only [ws, current]
      refine connect_sound ?_ timers ?_
      · change conn.clearTimer.closed = true ↔ conn.clearTimer.subscribers = []
        rw [closed, subscribers]
        exact sound.stopped
      · intro socket member
        obtain ⟨place, found⟩ := List.getElem?_of_mem member
        obtain ⟨old, there, rfl⟩ := getElem?_modify_cases found
        dsimp only at there
        rw [sockets] at there
        split
        · rfl
        · rename_i other
          by_contra live
          have here := sound.single place old there (by simpa using live)
          exact other (Option.some.inj (current.symm.trans here))

/-- While the connection runs a close is counted and a reconnect scheduled. -/
theorem onclose_eq (running : conn.closed = false) :
    ∃ counted, conn.Wired counted ∧ conn.onclose = counted.schedule := by
  have counts : conn.Wired { conn with failsSinceOpen := conn.failsSinceOpen + 1 } :=
    ⟨rfl, rfl, rfl, rfl, rfl, rfl, rfl, rfl⟩
  by_cases again : 2 ≤ conn.failsSinceOpen + 1
  · refine ⟨_, counts.trans (classify_wired _), ?_⟩
    simp only [Connection.onclose, running, Bool.false_eq_true, ↓reduceIte, again]
  · refine ⟨_, counts, ?_⟩
    simp only [Connection.onclose, running, Bool.false_eq_true, ↓reduceIte, again]

/-- The close of the last live socket schedules a reconnect. -/
theorem Sound.onclose (sound : conn.Sound) (timers : conn.timers = [])
    (dead : ∀ socket ∈ conn.sockets, socket.live = false) : conn.onclose.Sound := by
  cases running : conn.closed with
  | true =>
    rw [Connection.onclose, if_pos running]
    exact sound
  | false =>
    obtain ⟨counted, wired, scheduled⟩ := onclose_eq running
    have still := sound.of_wired wired
    rw [scheduled]
    refine ⟨still.stopped, still.single, .inr ⟨wired.closed.trans running,
      ⟨counted.nextTimer, ?_, rfl⟩, ?_⟩⟩
    · simp only [schedule, wired.timers, timers, List.nil_append]
    · intro socket member
      exact dead socket (wired.sockets ▸ member)

/-- A connection that lost its last subscriber is sound once it has stopped. -/
theorem Sound.stop (sound : conn.Sound) :
    ({ conn with subscribers := [] } : Connection).stop.Sound := by
  obtain ⟨sockets, ws, subscribers, -⟩ :=
    ({ conn with subscribers := [] } : Connection).clearTimer_keeps
  have timers : ({ conn with subscribers := [] } : Connection).clearTimer.timers = [] := by
    rw [← clearTimer_timers sound]
    simp only [clearTimer]
    split <;> rfl
  have cleared : ({ ({ conn with subscribers := [] } : Connection).clearTimer with
      closed := true, liveChecks := false, listening := false } : Connection).Sound := by
    refine ⟨iff_of_true rfl subscribers, ?_, .inl timers⟩
    simp only [sockets, ws]
    exact sound.single
  unfold Connection.stop
  dsimp only
  split
  · refine cleared.setSocket _ closeSocket fun socket _ lives => ?_
    simp only [closeSocket] at lives
    split at lives
    · exact lives
    · rename_i unclosed
      simp only [Socket.live, Bool.and_eq_true, decide_eq_true_eq] at lives ⊢
      exact ⟨lives.1, unclosed⟩
  · exact cleared

/-! ### Callbacks -/

/-- Something that happened to a socket, taken apart. -/
theorem deliver_cases {index : Nat} {admits : ReadyState → Bool} {change : Socket → Socket}
    {handler : Connection → Connection}
    (delivered : conn.deliver index admits change handler = some after) :
    ∃ socket, conn.sockets[index]? = some socket ∧ admits socket.readyState = true ∧
      (socket.owned = true ∧ after = handler (conn.setSocket index change) ∨
        socket.owned = false ∧ after = conn.setSocket index change) := by
  unfold deliver at delivered
  split at delivered
  · rename_i socket found
    split at delivered
    · rename_i admitted
      refine ⟨socket, found, admitted, ?_⟩
      cases delivered
      cases owned : socket.owned with
      | true => exact .inl ⟨rfl, rfl⟩
      | false => exact .inr ⟨rfl, rfl⟩
    · cases delivered
  · cases delivered

/-- A timer that fires connects. -/
theorem timeout_cases {id : Nat} (reacted : conn.react now (.timeout id) = some after) :
    id ∈ conn.timers ∧
      after = { conn with timers := conn.timers.filter (· ≠ id) }.connect now := by
  simp only [react] at reacted
  split at reacted
  · rename_i pending
    cases reacted
    exact ⟨pending, rfl⟩
  · cases reacted

/-- A liveness check leaves the connection, or replaces its socket. -/
theorem liveCheck_cases (reacted : conn.react now .liveCheck = some after) :
    after = conn ∨ after = conn.reconnectNow now := by
  simp only [react, liveCheck] at reacted
  repeat' split at reacted
  all_goals cases reacted
  · exact .inr rfl
  · exact .inl rfl

/-- So does the return to the tab. -/
theorem resume_cases {hidden : Bool} (reacted : conn.react now (.resume hidden) = some after) :
    after = conn ∨ after = conn.reconnectNow now := by
  simp only [react, onResume] at reacted
  repeat' split at reacted
  all_goals cases reacted
  · exact .inl rfl
  · exact .inr rfl
  · exact .inl rfl

/-- The answer of a probe ends its classification. -/
theorem probed_cases {answer : Option Nat}
    (reacted : conn.react now (.probed answer) = some after) :
    ∃ counted, conn.Wired counted ∧ counted.called = conn.called ∧
      after = counted.finishClassify (classified answer) := by
  simp only [react] at reacted
  split at reacted
  · cases reacted
  · cases reacted
    exact ⟨{ conn with probes := conn.probes - 1 }, ⟨rfl, rfl, rfl, rfl, rfl, rfl, rfl, rfl⟩,
      rfl, rfl⟩

/-- After the close of a live socket none is live. -/
theorem Sound.dead_of_closed (sound : conn.Sound) {index : Nat} {socket : Socket}
    (found : conn.sockets[index]? = some socket) (lived : socket.live = true) :
    ∀ other ∈ (conn.setSocket index fun socket => { socket with readyState := .closed }).sockets,
      other.live = false := by
  intro other member
  obtain ⟨place, there⟩ := List.getElem?_of_mem member
  obtain ⟨old, before, rfl⟩ := getElem?_modify_cases there
  split
  · simp [Socket.live]
  · rename_i different
    by_contra live
    have here := sound.single place old before (by simpa using live)
    have current := sound.single index socket found lived
    exact different (Option.some.inj (current.symm.trans here))

theorem Sound.react (sound : conn.Sound) {callback : Callback}
    (reacted : conn.react now callback = some after) : after.Sound := by
  cases callback with
  | opens index =>
    simp only [Connection.react] at reacted
    obtain ⟨socket, found, admitted, outcome⟩ := deliver_cases reacted
    have changed := sound.setSocket index
      (fun socket => { socket with readyState := .opened, opened := true }) ?_
    · rcases outcome with ⟨-, rfl⟩ | ⟨-, rfl⟩
      · exact changed.of_wired (onopen_wired _ now)
      · exact changed
    · intro other there lives
      cases found.symm.trans there
      have connecting : socket.readyState = .connecting := by simpa using admitted
      simpa [Socket.live, connecting] using lives
  | message index frame =>
    simp only [Connection.react] at reacted
    obtain ⟨socket, found, -, outcome⟩ := deliver_cases reacted
    have changed := sound.setSocket index id fun _ _ lives => lives
    rcases outcome with ⟨-, rfl⟩ | ⟨-, rfl⟩
    · exact changed.of_wired (onmessage_wired _ now frame)
    · exact changed
  | closing index =>
    simp only [Connection.react] at reacted
    obtain ⟨socket, found, admitted, outcome⟩ := deliver_cases reacted
    have changed := sound.setSocket index
      (fun socket => { socket with readyState := .closing }) ?_
    · rcases outcome with ⟨-, rfl⟩ | ⟨-, rfl⟩ <;> exact changed
    · intro other there lives
      cases found.symm.trans there
      have unclosed : socket.readyState ≠ .closed := by
        intro closed
        simp [closed] at admitted
      simpa [Socket.live, unclosed] using lives
  | closes index =>
    simp only [Connection.react] at reacted
    obtain ⟨socket, found, admitted, outcome⟩ := deliver_cases reacted
    have changed := sound.setSocket index (fun socket => { socket with readyState := .closed })
      fun _ _ lives => by simp [Socket.live] at lives
    rcases outcome with ⟨owned, rfl⟩ | ⟨-, rfl⟩
    · have lived : socket.live = true := by
        simpa [Socket.live, owned] using admitted
      refine changed.onclose ?_ (sound.dead_of_closed found lived)
      rcases sound.timers with none | ⟨-, -, dead⟩
      · exact none
      · rw [dead socket (List.mem_of_getElem? found)] at lived
        cases lived
    · exact changed
  | timeout id =>
    obtain ⟨pending, rfl⟩ := timeout_cases reacted
    rcases sound.timers with none | ⟨-, ⟨only, one, -⟩, dead⟩
    · rw [none] at pending
      cases pending
    · rw [one, List.mem_singleton] at pending
      refine connect_sound sound.stopped ?_ dead
      simp [one, pending]
  | liveCheck =>
    rcases liveCheck_cases reacted with rfl | rfl
    · exact sound
    · exact sound.reconnectNow
  | resume hidden =>
    rcases resume_cases reacted with rfl | rfl
    · exact sound
    · exact sound.reconnectNow
  | probed answer =>
    obtain ⟨counted, wired, -, rfl⟩ := probed_cases reacted
    exact sound.of_wired (wired.trans (counted.finishClassify_wired _))

/-! ### What stays -/

/-- A callback leaves who is subscribed, to what, and whether the connection runs. -/
structure Keeps (conn after : Connection) : Prop where
  url : after.url = conn.url
  subscribers : after.subscribers = conn.subscribers
  closed : after.closed = conn.closed

theorem Wired.keeps (wired : conn.Wired after) : conn.Keeps after :=
  ⟨wired.url, wired.subscribers, wired.closed⟩

theorem connect_keeps (conn : Connection) (now : Nat) : conn.Keeps (conn.connect now) := by
  unfold connect
  split <;> exact ⟨rfl, rfl, rfl⟩

theorem reconnectNow_keeps (conn : Connection) (now : Nat) :
    conn.Keeps (conn.reconnectNow now) := by
  obtain ⟨-, ws, subscribers, closed, url, -⟩ := conn.clearTimer_keeps
  unfold reconnectNow
  split
  · exact ⟨rfl, rfl, rfl⟩
  · dsimp only
    split
    · obtain ⟨first, second, third⟩ := connect_keeps { setSocket { conn.clearTimer with
        reconnectTimeoutId := none, backoff := 1000 } _ disown with ws := none } now
      exact ⟨first.trans url, second.trans subscribers, third.trans closed⟩
    · obtain ⟨first, second, third⟩ := connect_keeps { conn.clearTimer with
        reconnectTimeoutId := none, backoff := 1000 } now
      exact ⟨first.trans url, second.trans subscribers, third.trans closed⟩

theorem onclose_keeps (conn : Connection) : conn.Keeps conn.onclose := by
  cases running : conn.closed with
  | true =>
    rw [onclose, if_pos running]
    exact ⟨rfl, rfl, rfl⟩
  | false =>
    obtain ⟨counted, wired, scheduled⟩ := onclose_eq running
    rw [scheduled]
    exact ⟨wired.url, wired.subscribers, wired.closed⟩

/-- What happens to a socket and its handler keep. -/
theorem deliver_keeps {index : Nat} {admits : ReadyState → Bool} {change : Socket → Socket}
    {handler : Connection → Connection}
    (handles : ∀ before : Connection, before.Keeps (handler before))
    (delivered : conn.deliver index admits change handler = some after) : conn.Keeps after := by
  obtain ⟨socket, -, -, ⟨-, rfl⟩ | ⟨-, rfl⟩⟩ := deliver_cases delivered
  · obtain ⟨url, subscribers, closed⟩ := handles (conn.setSocket index change)
    exact ⟨url, subscribers, closed⟩
  · exact ⟨rfl, rfl, rfl⟩

theorem react_keeps {callback : Callback} (reacted : conn.react now callback = some after) :
    conn.Keeps after := by
  cases callback with
  | opens index =>
    simp only [react] at reacted
    exact deliver_keeps (fun before => (onopen_wired before now).keeps) reacted
  | message index frame =>
    simp only [react] at reacted
    exact deliver_keeps (fun before => (onmessage_wired before now frame).keeps) reacted
  | closing index =>
    simp only [react] at reacted
    exact deliver_keeps (fun before => (Wired.refl before).keeps) reacted
  | closes index =>
    simp only [react] at reacted
    exact deliver_keeps onclose_keeps reacted
  | timeout id =>
    obtain ⟨-, rfl⟩ := timeout_cases reacted
    obtain ⟨url, subscribers, closed⟩ :=
      connect_keeps { conn with timers := conn.timers.filter (· ≠ id) } now
    exact ⟨url, subscribers, closed⟩
  | liveCheck =>
    rcases liveCheck_cases reacted with rfl | rfl
    · exact (Wired.refl _).keeps
    · exact conn.reconnectNow_keeps now
  | resume hidden =>
    rcases resume_cases reacted with rfl | rfl
    · exact (Wired.refl _).keeps
    · exact conn.reconnectNow_keeps now
  | probed answer =>
    obtain ⟨counted, wired, -, rfl⟩ := probed_cases reacted
    exact (wired.trans (counted.finishClassify_wired _)).keeps

/-- Nothing was created, set or called. -/
structure Silent (conn after : Connection) : Prop where
  sockets : after.sockets.length = conn.sockets.length
  timers : after.timers = conn.timers
  nextTimer : after.nextTimer = conn.nextTimer
  called : after.called = conn.called

theorem Silent.refl (conn : Connection) : conn.Silent conn := ⟨rfl, rfl, rfl, rfl⟩

theorem onmessage_silent (conn : Connection) (none : conn.subscribers = []) (now : Nat)
    (frame : Option Frame) : conn.Silent (conn.onmessage now frame) := by
  have wired := conn.onmessage_wired now frame
  refine ⟨congrArg List.length wired.sockets, wired.timers, wired.nextTimer, ?_⟩
  unfold onmessage hello
  repeat' split
  all_goals simp [each, none]

theorem Sound.timers_of_closed (sound : conn.Sound) (stopped : conn.closed = true) :
    conn.timers = [] := by
  rcases sound.timers with none | ⟨running, -⟩
  · exact none
  · rw [stopped] at running
    cases running

/-- Without a live socket the current one is not open. -/
theorem isOpen_of_dead (conn : Connection)
    (dead : ∀ socket ∈ conn.sockets, socket.live = false) : conn.isOpen = false := by
  rw [isOpen, Option.any_eq_false]
  intro socket current
  obtain ⟨index, -, found⟩ := Option.bind_eq_some_iff.mp current
  simp [Socket.isOpen, dead socket (List.mem_of_getElem? found)]

/-- A connection that has stopped is silent whatever it is called for. -/
theorem react_silent (sound : conn.Sound) (stopped : conn.closed = true) {callback : Callback}
    (reacted : conn.react now callback = some after) : conn.Silent after := by
  have none := sound.stopped.mp stopped
  have timers := sound.timers_of_closed stopped
  have sized : ∀ (index : Nat) (change : Socket → Socket),
      conn.Silent (conn.setSocket index change) := fun index change =>
    ⟨List.length_modify .., rfl, rfl, rfl⟩
  cases callback with
  | opens index =>
    simp only [react] at reacted
    obtain ⟨socket, -, -, ⟨-, rfl⟩ | ⟨-, rfl⟩⟩ := deliver_cases reacted
    · obtain ⟨sockets, -⟩ := sized index fun socket =>
        { socket with readyState := .opened, opened := true }
      exact ⟨sockets, rfl, rfl, by simp [onopen, setStatus, each, setSocket, none]⟩
    · exact sized _ _
  | message index frame =>
    simp only [react] at reacted
    obtain ⟨socket, -, -, ⟨-, rfl⟩ | ⟨-, rfl⟩⟩ := deliver_cases reacted
    · have quiet := (conn.setSocket index id).onmessage_silent none now frame
      exact ⟨quiet.sockets.trans (sized index id).sockets, quiet.timers, quiet.nextTimer,
        quiet.called⟩
    · exact sized _ _
  | closing index =>
    simp only [react] at reacted
    obtain ⟨socket, -, -, ⟨-, rfl⟩ | ⟨-, rfl⟩⟩ := deliver_cases reacted <;> exact sized _ _
  | closes index =>
    simp only [react] at reacted
    obtain ⟨socket, -, -, ⟨-, rfl⟩ | ⟨-, rfl⟩⟩ := deliver_cases reacted
    · have unchanged : (conn.setSocket index fun socket =>
          { socket with readyState := .closed }).onclose = conn.setSocket index fun socket =>
            { socket with readyState := .closed } := if_pos stopped
      rw [unchanged]
      exact sized _ _
    · exact sized _ _
  | timeout id =>
    obtain ⟨pending, -⟩ := timeout_cases reacted
    rw [timers] at pending
    cases pending
  | liveCheck =>
    rcases liveCheck_cases reacted with rfl | rfl
    · exact .refl _
    · rw [reconnectNow, if_pos stopped]
      exact .refl conn
  | resume hidden =>
    rcases resume_cases reacted with rfl | rfl
    · exact .refl _
    · rw [reconnectNow, if_pos stopped]
      exact .refl conn
  | probed answer =>
    obtain ⟨counted, wired, called, rfl⟩ := probed_cases reacted
    rw [finishClassify, if_pos (wired.closed.trans stopped)]
    exact ⟨congrArg List.length wired.sockets, wired.timers, wired.nextTimer, called⟩

theorem Silent.trans {last : Connection} (first : conn.Silent after)
    (second : after.Silent last) : conn.Silent last where
  sockets := second.sockets.trans first.sockets
  timers := second.timers.trans first.timers
  nextTimer := second.nextTimer.trans first.nextTimer
  called := second.called.trans first.called

theorem openConnection_sound (url : String) (sub now : Nat) :
    (openConnection url sub now).Sound :=
  connect_sound (by simp) rfl (by simp)

/-- A subscriber joins a connection that runs. -/
theorem Sound.join (sound : conn.Sound) (running : conn.closed = false) (sub : Nat) :
    (conn.join sub).Sound ∧ (conn.join sub).closed = false ∧
      ∀ other, other ∈ (conn.join sub).subscribers ↔ other ∈ conn.subscribers ∨ other = sub := by
  have members : ∀ other,
      other ∈ (conn.join sub).subscribers ↔ other ∈ conn.subscribers ∨ other = sub := by
    intro other
    simp only [Connection.join]
    split
    · rename_i already
      refine ⟨.inl, fun either => either.elim id ?_⟩
      rintro rfl
      exact already
    · rw [List.mem_append, List.mem_singleton]
  refine ⟨⟨?_, sound.single, sound.timers⟩, running, members⟩
  refine iff_of_false (by simp [Connection.join, running]) fun none => ?_
  have there := (members sub).mpr (.inr rfl)
  rw [none] at there
  cases there

theorem stop_url (conn : Connection) :
    conn.stop.url = conn.url ∧ conn.stop.closed = true := by
  obtain ⟨-, -, -, -, url, -⟩ := conn.clearTimer_keeps
  unfold stop
  dsimp only
  split <;> exact ⟨url, rfl⟩

end Connection

/-! ### The page -/

namespace EventsPage

variable {page next : EventsPage}

/-- The map holds exactly the connections that run, under their URLs, and every effect that is
to be cleaned up subscribes to its connection. -/
structure Sound (page : EventsPage) : Prop where
  conns : ∀ conn ∈ page.conns, conn.Sound
  mapped : ∀ url index, page.connections url = some index →
    ∃ conn, page.conns[index]? = some conn ∧ conn.url = url ∧ conn.closed = false
  running : ∀ (index : Nat) (conn : Connection), page.conns[index]? = some conn →
    conn.closed = false → page.connections conn.url = some index
  effects : ∀ effect ∈ page.effects,
    ∃ conn, page.conns[effect.2]? = some conn ∧ effect.1 ∈ conn.subscribers

theorem blankPage_sound (now : Nat) : (blankPage now).Sound := by
  refine ⟨?_, ?_, ?_, ?_⟩ <;> simp [blankPage]

/-- Whose effect is to be cleaned up has a connection that runs. -/
theorem Sound.subscribed (sound : page.Sound) {effect : Nat × Nat}
    (member : effect ∈ page.effects) {conn : Connection}
    (found : page.conns[effect.2]? = some conn) :
    effect.1 ∈ conn.subscribers ∧ conn.closed = false := by
  obtain ⟨other, there, subscribed⟩ := sound.effects effect member
  cases found.symm.trans there
  refine ⟨subscribed, ?_⟩
  by_contra stopped
  have none := (sound.conns conn (List.mem_of_getElem? found)).stopped.mp (by simpa using stopped)
  rw [none] at subscribed
  cases subscribed

/-- A connection is replaced by one with its URL that runs exactly if it did, and the effects
that stay subscribe to the connections there are then. -/
theorem Sound.replace (sound : page.Sound) {index : Nat} {conn after : Connection}
    (found : page.conns[index]? = some conn) (afterSound : after.Sound)
    (url : after.url = conn.url) (closed : after.closed = conn.closed)
    {effects : List (Nat × Nat)}
    (subscribes : ∀ effect ∈ effects, effect.2 = index ∧ effect.1 ∈ after.subscribers ∨
      effect.2 ≠ index ∧ effect ∈ page.effects) :
    Sound { page with
      conns := page.conns.set index after
      effects := effects } := by
  have bound : index < page.conns.length := (List.getElem?_eq_some_iff.mp found).1
  have here : (page.conns.set index after)[index]? = some after :=
    List.getElem?_set_self bound
  refine ⟨?_, ?_, ?_, ?_⟩
  · intro other member
    rcases List.mem_or_eq_of_mem_set member with older | rfl
    · exact sound.conns other older
    · exact afterSound
  · intro wanted place mapped
    obtain ⟨other, there, same, runs⟩ := sound.mapped wanted place mapped
    by_cases at_index : place = index
    · subst at_index
      cases found.symm.trans there
      exact ⟨after, here, url.trans same, closed.trans runs⟩
    · exact ⟨other, (List.getElem?_set_ne (Ne.symm at_index)).trans there, same, runs⟩
  · intro place other there runs
    rcases getElem?_set_cases there with ⟨rfl, rfl⟩ | ⟨-, older⟩
    · change page.connections other.url = some place
      rw [url]
      exact sound.running place conn found (closed.symm.trans runs)
    · exact sound.running place other older runs
  · intro effect member
    rcases subscribes effect member with ⟨rfl, subscribed⟩ | ⟨elsewhere, older⟩
    · exact ⟨after, here, subscribed⟩
    · obtain ⟨other, there, subscribed⟩ := sound.effects effect older
      exact ⟨other, (List.getElem?_set_ne (Ne.symm elsewhere)).trans there, subscribed⟩

/-- The effects as they are keep subscribing while nobody leaves the replaced connection. -/
theorem Sound.still_subscribes (sound : page.Sound) {index : Nat} {conn after : Connection}
    (found : page.conns[index]? = some conn)
    (stays : ∀ sub ∈ conn.subscribers, sub ∈ after.subscribers) (effect : Nat × Nat)
    (member : effect ∈ page.effects) :
    effect.2 = index ∧ effect.1 ∈ after.subscribers ∨ effect.2 ≠ index ∧ effect ∈ page.effects := by
  by_cases at_index : effect.2 = index
  · subst at_index
    exact .inl ⟨rfl, stays _ (sound.subscribed member found).1⟩
  · exact .inr ⟨at_index, member⟩

theorem Sound.subscribe (sound : page.Sound) {url : String} {sub : Nat}
    (subscribed : page.subscribe url sub = some next) : next.Sound := by
  unfold EventsPage.subscribe at subscribed
  split at subscribed
  · cases subscribed
  cases mapped : page.connections url with
  | some index =>
    obtain ⟨conn, found, -, runs⟩ := sound.mapped url index mapped
    simp only [mapped, found] at subscribed
    cases subscribed
    obtain ⟨joined, running, members⟩ :=
      (sound.conns conn (List.mem_of_getElem? found)).join runs sub
    refine sound.replace found joined rfl rfl fun effect member => ?_
    rcases List.mem_append.mp member with older | new
    · exact sound.still_subscribes found (fun other there => (members other).mpr (.inl there))
        effect older
    · rw [List.mem_singleton] at new
      subst new
      exact .inl ⟨rfl, (members sub).mpr (.inr rfl)⟩
  | none =>
    simp only [mapped] at subscribed
    cases subscribed
    refine ⟨?_, ?_, ?_, ?_⟩
    · intro conn member
      rcases List.mem_append.mp member with older | new
      · exact sound.conns conn older
      · rw [List.mem_singleton] at new
        subst new
        exact Connection.openConnection_sound url sub page.now
    · intro wanted index there
      by_cases same : wanted = url
      · subst same
        simp only [Function.update_self] at there
        cases there
        exact ⟨_, List.getElem?_concat_length, rfl, rfl⟩
      · simp only [Function.update_of_ne same] at there
        obtain ⟨conn, found, rest⟩ := sound.mapped wanted index there
        exact ⟨conn, getElem?_concat_left found, rest⟩
    · intro index conn found runs
      rcases getElem?_concat_cases found with older | ⟨rfl, rfl⟩
      · have here := sound.running index conn older runs
        have other : conn.url ≠ url := by
          intro same
          rw [same, mapped] at here
          cases here
        exact (Function.update_of_ne other _ _).trans here
      · exact Function.update_self ..
    · intro effect member
      rcases List.mem_append.mp member with older | new
      · obtain ⟨conn, found, subscribed⟩ := sound.effects effect older
        exact ⟨conn, getElem?_concat_left found, subscribed⟩
      · rw [List.mem_singleton] at new
        subst new
        exact ⟨_, List.getElem?_concat_length, List.mem_singleton_self sub⟩

/-- What a cleanup does: its connection loses the subscriber, and stops with the last one. -/
theorem unsubscribe_cases {sub : Nat} (unsubscribed : page.unsubscribe sub = some next) :
    ∃ effect ∈ page.effects, effect.1 = sub ∧ ∃ conn, page.conns[effect.2]? = some conn ∧
      (conn.subscribers.filter (· ≠ sub) ≠ [] ∧ next = { page with
          conns := page.conns.set effect.2
            { conn with subscribers := conn.subscribers.filter (· ≠ sub) }
          effects := page.effects.filter (·.1 ≠ sub) } ∨
        conn.subscribers.filter (· ≠ sub) = [] ∧ next = { page with
          connections := Function.update page.connections conn.url none
          conns := page.conns.set effect.2 ({ conn with subscribers := [] } : Connection).stop
          effects := page.effects.filter (·.1 ≠ sub) }) := by
  unfold unsubscribe at unsubscribed
  split at unsubscribed
  · cases unsubscribed
  · rename_i effect first
    split at unsubscribed
    · cases unsubscribed
    · rename_i conn found
      refine ⟨effect, List.mem_of_find?_eq_some first, ?_, conn, found, ?_⟩
      · simpa using List.find?_some first
      · dsimp only at unsubscribed
        split at unsubscribed
        · rename_i empty
          cases unsubscribed
          exact .inr ⟨empty, by rw [empty]⟩
        · rename_i remaining
          cases unsubscribed
          exact .inl ⟨remaining, rfl⟩

theorem Sound.unsubscribe (sound : page.Sound) {sub : Nat}
    (unsubscribed : page.unsubscribe sub = some next) : next.Sound := by
  obtain ⟨effect, member, rfl, conn, found, outcome⟩ := unsubscribe_cases unsubscribed
  have runs := (sound.subscribed member found).2
  have connSound := sound.conns conn (List.mem_of_getElem? found)
  rcases outcome with ⟨remaining, rfl⟩ | ⟨empty, rfl⟩
  · have left : ({ conn with
        subscribers := conn.subscribers.filter (· ≠ effect.1) } : Connection).Sound :=
      ⟨iff_of_false (by simp [runs]) remaining, connSound.single, connSound.timers⟩
    refine sound.replace found left rfl rfl fun other there => ?_
    obtain ⟨older, different⟩ := List.mem_filter.mp there
    by_cases same : other.2 = effect.2
    · refine .inl ⟨same, List.mem_filter.mpr ⟨?_, different⟩⟩
      exact (sound.subscribed older (same ▸ found)).1
    · exact .inr ⟨same, older⟩
  · have bound := (List.getElem?_eq_some_iff.mp found).1
    refine ⟨?_, ?_, ?_, ?_⟩
    · intro other there
      rcases List.mem_or_eq_of_mem_set there with older | rfl
      · exact sound.conns other older
      · exact connSound.stop
    · intro url index mapped
      dsimp only at mapped ⊢
      by_cases same : url = conn.url
      · rw [same, Function.update_self] at mapped
        cases mapped
      · rw [Function.update_of_ne same] at mapped
        obtain ⟨other, there, named, running⟩ := sound.mapped url index mapped
        have elsewhere : effect.2 ≠ index := by
          rintro rfl
          cases found.symm.trans there
          exact same named.symm
        exact ⟨other, (List.getElem?_set_ne elsewhere).trans there, named, running⟩
    · intro index other there running
      rcases getElem?_set_cases there with ⟨-, rfl⟩ | ⟨elsewhere, older⟩
      · rw [(Connection.stop_url _).2] at running
        cases running
      · have mapped := sound.running index other older running
        have different : other.url ≠ conn.url := by
          intro same
          rw [same, sound.running effect.2 conn found runs] at mapped
          exact elsewhere (Option.some.inj mapped).symm
        exact (Function.update_of_ne different _ _).trans mapped
    · intro other there
      obtain ⟨older, different⟩ := List.mem_filter.mp there
      obtain ⟨home, at_home, subscribed⟩ := sound.effects other older
      have elsewhere : effect.2 ≠ other.2 := by
        intro same
        rw [← same, found] at at_home
        cases at_home
        have left : other.1 ∈ conn.subscribers.filter (· ≠ effect.1) :=
          List.mem_filter.mpr ⟨subscribed, different⟩
        rw [empty] at left
        cases left
      exact ⟨home, (List.getElem?_set_ne elsewhere).trans at_home, subscribed⟩

/-- A callback of a connection, taken apart. -/
theorem call_cases {index : Nat} {callback : Callback}
    (taken : page.step (.call index callback) = some next) :
    ∃ conn after, page.conns[index]? = some conn ∧ conn.react page.now callback = some after ∧
      next = { page with conns := page.conns.set index after } := by
  simp only [EventsPage.step] at taken
  split at taken
  · rename_i conn found
    obtain ⟨after, reacted, rfl⟩ := Option.map_eq_some_iff.mp taken
    exact ⟨conn, after, found, reacted, rfl⟩
  · cases taken

theorem Sound.step (sound : page.Sound) {action : EventsAction}
    (taken : page.step action = some next) : next.Sound := by
  cases action with
  | wait duration =>
    cases taken
    exact ⟨sound.conns, sound.mapped, sound.running, sound.effects⟩
  | subscribe url sub => exact sound.subscribe taken
  | unsubscribe sub => exact sound.unsubscribe taken
  | call index callback =>
    obtain ⟨conn, after, found, reacted, rfl⟩ := call_cases taken
    have kept := Connection.react_keeps reacted
    exact sound.replace found ((sound.conns conn (List.mem_of_getElem? found)).react reacted)
      kept.url kept.closed
      (sound.still_subscribes found fun sub there => kept.subscribers.symm ▸ there)

theorem Sound.run (sound : page.Sound) {actions : List EventsAction}
    (run : Run EventsPage.step anything page actions next) : next.Sound :=
  run.invariant Sound sound fun _ _ _ before _ taken => before.step taken

/-! ### What has stopped -/

/-- The connection has stopped at an index, and nothing was created, set or called for it
since. -/
def Quiet (index : Nat) (conn : Connection) (page : EventsPage) : Prop :=
  ∃ after, page.conns[index]? = some after ∧ after.closed = true ∧ conn.Silent after

theorem Quiet.step (sound : page.Sound) {index : Nat} {conn : Connection}
    (quiet : Quiet index conn page) {action : EventsAction}
    (taken : page.step action = some next) : Quiet index conn next := by
  obtain ⟨before, found, stopped, silent⟩ := quiet
  have bound := (List.getElem?_eq_some_iff.mp found).1
  cases action with
  | wait duration =>
    cases taken
    exact ⟨before, found, stopped, silent⟩
  | subscribe url sub =>
    simp only [EventsPage.step, EventsPage.subscribe] at taken
    split at taken
    · cases taken
    cases mapped : page.connections url with
    | some place =>
      obtain ⟨other, there, -, runs⟩ := sound.mapped url place mapped
      simp only [mapped, there] at taken
      cases taken
      have elsewhere : place ≠ index := by
        rintro rfl
        cases found.symm.trans there
        rw [stopped] at runs
        cases runs
      exact ⟨before, (List.getElem?_set_ne elsewhere).trans found, stopped, silent⟩
    | none =>
      simp only [mapped] at taken
      cases taken
      exact ⟨before, getElem?_concat_left found, stopped, silent⟩
  | unsubscribe sub =>
    obtain ⟨effect, member, rfl, other, there, outcome⟩ := unsubscribe_cases taken
    have elsewhere : effect.2 ≠ index := by
      rintro rfl
      have runs := (sound.subscribed member found).2
      rw [stopped] at runs
      cases runs
    rcases outcome with ⟨-, rfl⟩ | ⟨-, rfl⟩ <;>
      exact ⟨before, (List.getElem?_set_ne elsewhere).trans found, stopped, silent⟩
  | call place callback =>
    obtain ⟨other, after, there, reacted, rfl⟩ := call_cases taken
    by_cases same : place = index
    · subst same
      cases found.symm.trans there
      have more := Connection.react_silent (sound.conns before (List.mem_of_getElem? found))
        stopped reacted
      refine ⟨after, List.getElem?_set_self bound, ?_, silent.trans more⟩
      exact (Connection.react_keeps reacted).closed.trans stopped
    · exact ⟨before, (List.getElem?_set_ne same).trans found, stopped, silent⟩

end EventsPage

/-- The connection of a URL is unique, its live socket and its timer are, and what has stopped
is silent from then on. -/
theorem eventsConnection_unique {now : Nat} {actions : List EventsAction} {page : EventsPage}
    (run : Run EventsPage.step anything (blankPage now) actions page) :
    (∀ (index other : Nat) (conn second : Connection), page.conns[index]? = some conn →
        page.conns[other]? = some second → conn.closed = false → second.closed = false →
        conn.url = second.url → index = other) ∧
      (∀ conn ∈ page.conns, conn.closed = false →
        (∀ (index other : Nat) (socket second : Socket), conn.sockets[index]? = some socket →
          conn.sockets[other]? = some second → socket.live = true → second.live = true →
          index = other) ∧
        conn.timers.length ≤ 1 ∧ (conn.timers = [] ∨ conn.isOpen = false)) ∧
      ∀ (index : Nat) (conn : Connection), page.conns[index]? = some conn →
        conn.closed = true → ∀ (later : List EventsAction) (final : EventsPage),
          Run EventsPage.step anything page later final →
          ∃ after, final.conns[index]? = some after ∧ after.closed = true ∧
            conn.Silent after := by
  have sound := (EventsPage.blankPage_sound now).run run
  refine ⟨?_, ?_, ?_⟩
  · intro index other conn second found there runs alsoRuns same
    have mapped := sound.running index conn found runs
    rw [same, sound.running other second there alsoRuns] at mapped
    exact (Option.some.inj mapped).symm
  · intro conn member _
    obtain ⟨-, single, timers⟩ := sound.conns conn member
    refine ⟨?_, ?_, ?_⟩
    · intro index other socket second found there live alsoLive
      have current := single index socket found live
      rw [single other second there alsoLive] at current
      exact (Option.some.inj current).symm
    · rcases timers with none | ⟨-, ⟨id, one, -⟩, -⟩
      · simp [none]
      · simp [one]
    · refine timers.imp_right fun ⟨_, _, dead⟩ => ?_
      exact conn.isOpen_of_dead dead
  · intro index conn found stopped later final onward
    exact (onward.invariant (fun state => state.Sound ∧ EventsPage.Quiet index conn state)
      ⟨sound, conn, found, stopped, .refl conn⟩ fun state action next ⟨before, quiet⟩ _ taken =>
        ⟨before.step taken, quiet.step before taken⟩).2

/-- The first attempt fails, the second opens and falls silent, and the last subscriber leaves
before another one comes. -/
def resubscribed : List EventsAction :=
  [.subscribe "wss://host/ws/events" 1, .call 0 (.closes 0), .call 0 (.timeout 1),
    .call 0 (.opens 1), .subscribe "wss://host/ws/events" 2, .wait 75001, .call 0 .liveCheck,
    .unsubscribe 1, .unsubscribe 2, .subscribe "wss://host/ws/events" 3]

/-- The connection that stopped creates no fourth socket, and the one that runs is the other. -/
theorem resubscribed_silent :
    ∃ page, Run EventsPage.step anything (blankPage 0) resubscribed page ∧
      page.conns.map Connection.closed = [true, false] ∧
      ∀ (later : List EventsAction) (final : EventsPage),
        Run EventsPage.step anything page later final →
        ∃ after, final.conns[0]? = some after ∧ after.sockets.length = 3 := by
  obtain ⟨page, computed, passed⟩ := exists_of_exec EventsPage.step (blankPage 0) resubscribed
    (fun page => page.conns.map (fun conn => (conn.closed, conn.sockets.length)) =
      [(true, 3), (false, 1)]) (by decide)
  have run := Run.of_exec_anything computed
  have pairs := of_decide_eq_true passed
  refine ⟨page, run, ?_, ?_⟩
  · have first := congrArg (List.map Prod.fst) pairs
    rwa [List.map_map] at first
  · intro later final onward
    rcases spelled : page.conns with _ | ⟨conn, rest⟩
    · rw [spelled] at pairs
      cases pairs
    · rw [spelled, List.map_cons] at pairs
      have first := (List.cons.inj pairs).1
      obtain ⟨after, found, -, silent⟩ := (eventsConnection_unique run).2.2 0 conn
        (by rw [spelled, List.getElem?_cons_zero]) (congrArg Prod.fst first) later final onward
      exact ⟨after, found, silent.sockets.trans (congrArg Prod.snd first)⟩

end Multimux
