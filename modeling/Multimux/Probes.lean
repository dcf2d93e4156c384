/-
This file proves when the events connection reports an open socket as open. The
second close in a row starts a probe, and nothing cancels it: the reconnect may
succeed first. Every other callback keeps the last status right; an answer that
arrives while the socket is open overwrites it with the trouble that is over,
and that status stays until the next transition.
-/

import Multimux.Connections

namespace Multimux

/-! ### Reports of one connection -/

namespace Connection

variable {conn after : Connection} {now : Nat}

/-- While the connection runs an open socket is reported as open. -/
def Honest (conn : Connection) : Prop :=
  conn.closed = false → conn.isOpen = true → conn.lastStatus = some .opened

theorem honest_of_not_open (unopened : conn.isOpen = false) : conn.Honest := by
  intro _ opened
  rw [unopened] at opened
  cases opened

theorem honest_of_closed (stopped : conn.closed = true) : conn.Honest := by
  intro running
  rw [stopped] at running
  cases running

/-- A new socket is not open yet. -/
theorem connect_honest (conn : Connection) (now : Nat) : (conn.connect now).Honest := by
  unfold connect
  split
  · rename_i stopped
    exact honest_of_closed stopped
  · exact honest_of_not_open (by simp [isOpen, Socket.isOpen])

theorem reconnectNow_honest (conn : Connection) (now : Nat) : (conn.reconnectNow now).Honest := by
  unfold reconnectNow
  split
  · rename_i stopped
    exact honest_of_closed stopped
  · exact connect_honest _ now

theorem isOpen_iff :
    conn.isOpen = true ↔ ∃ index socket, conn.ws = some index ∧
      conn.sockets[index]? = some socket ∧ socket.isOpen = true := by
  rw [isOpen, Option.any_eq_true]
  constructor
  · rintro ⟨socket, current, opened⟩
    obtain ⟨index, here, found⟩ := Option.bind_eq_some_iff.mp current
    exact ⟨index, socket, here, found, opened⟩
  · rintro ⟨index, socket, here, found, opened⟩
    exact ⟨socket, Option.bind_eq_some_iff.mpr ⟨index, here, found⟩, opened⟩

/-- What opens no socket and leaves the status keeps the report. -/
theorem Honest.setSocket (honest : conn.Honest) (index : Nat) (change : Socket → Socket)
    (opens : ∀ socket, conn.sockets[index]? = some socket → (change socket).isOpen = true →
      socket.isOpen = true) : (conn.setSocket index change).Honest := by
  intro running opened
  refine honest running (isOpen_iff.mpr ?_)
  obtain ⟨place, socket, current, found, isOpen⟩ := isOpen_iff.mp opened
  obtain ⟨old, before, rfl⟩ := getElem?_modify_cases found
  refine ⟨place, old, current, before, ?_⟩
  split at isOpen
  · rename_i same
    subst same
    exact opens old before isOpen
  · exact isOpen

theorem Wired.isOpen (wired : conn.Wired after) : after.isOpen = conn.isOpen := by
  rw [Connection.isOpen, Connection.isOpen, wired.ws, wired.sockets]

theorem Honest.of_wired (honest : conn.Honest) (wired : conn.Wired after)
    (status : after.lastStatus = conn.lastStatus) : after.Honest := by
  rw [Honest, wired.closed, wired.isOpen, status]
  exact honest

theorem onmessage_lastStatus (conn : Connection) (now : Nat) (frame : Option Frame) :
    (conn.onmessage now frame).lastStatus = conn.lastStatus := by
  unfold onmessage hello
  repeat' split
  all_goals rfl

/-- The close of the last live socket leaves none that is open. -/
theorem onclose_honest (dead : ∀ socket ∈ conn.sockets, socket.live = false) :
    conn.onclose.Honest := by
  cases running : conn.closed with
  | true =>
    rw [onclose, if_pos running]
    exact honest_of_closed running
  | false =>
    obtain ⟨counted, wired, scheduled⟩ := onclose_eq running
    rw [scheduled]
    refine honest_of_not_open (isOpen_of_dead _ fun socket member => dead socket ?_)
    exact wired.sockets ▸ member

/-- A callback that is not the answer of a probe keeps the report. -/
theorem Honest.react (honest : conn.Honest) (sound : conn.Sound) {callback : Callback}
    (unprobed : ∀ answer, callback ≠ .probed answer)
    (reacted : conn.react now callback = some after) : after.Honest := by
  cases callback with
  | opens index =>
    simp only [Connection.react] at reacted
    obtain ⟨socket, found, -, ⟨-, rfl⟩ | ⟨disowned, rfl⟩⟩ := deliver_cases reacted
    · exact fun _ _ => rfl
    · refine honest.setSocket index _ fun other there opened => ?_
      cases found.symm.trans there
      simp [Socket.isOpen, Socket.live, disowned] at opened
  | message index frame =>
    simp only [Connection.react] at reacted
    obtain ⟨socket, -, -, outcome⟩ := deliver_cases reacted
    have changed := honest.setSocket index id fun _ _ opened => opened
    rcases outcome with ⟨-, rfl⟩ | ⟨-, rfl⟩
    · exact changed.of_wired (onmessage_wired _ now frame) (onmessage_lastStatus _ now frame)
    · exact changed
  | closing index =>
    simp only [Connection.react] at reacted
    obtain ⟨socket, found, admitted, outcome⟩ := deliver_cases reacted
    have changed := honest.setSocket index
      (fun socket => { socket with readyState := .closing }) fun other there opened => ?_
    · rcases outcome with ⟨-, rfl⟩ | ⟨-, rfl⟩ <;> exact changed
    · cases found.symm.trans there
      have unclosed : socket.readyState ≠ .closed := by
        intro closed
        simp [closed] at admitted
      simpa [Socket.isOpen, Socket.live, unclosed] using opened
  | closes index =>
    simp only [Connection.react] at reacted
    obtain ⟨socket, found, admitted, ⟨owned, rfl⟩ | ⟨-, rfl⟩⟩ := deliver_cases reacted
    · have lived : socket.live = true := by
        simpa [Socket.live, owned] using admitted
      exact onclose_honest (sound.dead_of_closed found lived)
    · exact honest.setSocket index _ fun _ _ opened => by
        simp [Socket.isOpen, Socket.live] at opened
  | timeout id =>
    obtain ⟨-, rfl⟩ := timeout_cases reacted
    exact connect_honest _ now
  | liveCheck =>
    rcases liveCheck_cases reacted with rfl | rfl
    · exact honest
    · exact conn.reconnectNow_honest now
  | resume hidden =>
    rcases resume_cases reacted with rfl | rfl
    · exact honest
    · exact conn.reconnectNow_honest now
  | probed answer => exact (unprobed answer rfl).elim

/-- No answer of a probe tells of an open socket. -/
theorem classified_ne_opened (answer : Option Nat) : classified answer ≠ .opened := by
  unfold classified
  repeat' split
  all_goals simp

/-- The answer of a probe keeps the report exactly when it finds no open socket. -/
theorem probed_honest_iff {answer : Option Nat}
    (reacted : conn.react now (.probed answer) = some after) :
    after.Honest ↔ ¬ (conn.closed = false ∧ conn.isOpen = true) := by
  obtain ⟨counted, counts, -, rfl⟩ := probed_cases reacted
  have wired := counts.trans (counted.finishClassify_wired (classified answer))
  rw [Honest, wired.closed, wired.isOpen]
  constructor
  · rintro honest ⟨running, opened⟩
    have reported := honest running opened
    rw [finishClassify, if_neg (by simp [counts.closed, running])] at reported
    exact classified_ne_opened answer (Option.some.inj reported)
  · exact fun unopened running opened => (unopened ⟨running, opened⟩).elim

end Connection

/-! ### Reports of a page -/

namespace EventsPage

variable {page next : EventsPage}

/-- Every connection that runs reports its open socket as open. -/
def Honest (page : EventsPage) : Prop :=
  ∀ conn ∈ page.conns, conn.Honest

/-- The answer of a probe arrives while the connection runs and its socket is open. -/
def AnswersOverOpen (page : EventsPage) (action : EventsAction) : Prop :=
  ∃ index answer conn, action = .call index (.probed answer) ∧
    page.conns[index]? = some conn ∧ conn.closed = false ∧ conn.isOpen = true

instance AnswersOverOpen.decidable (page : EventsPage) :
    ∀ action, Decidable (page.AnswersOverOpen action)
  | .call index (.probed answer) =>
    decidable_of_iff (∃ conn ∈ page.conns[index]?, conn.closed = false ∧ conn.isOpen = true)
      ⟨fun ⟨conn, there, awake⟩ => ⟨index, answer, conn, rfl, there, awake⟩,
        fun ⟨_, _, conn, same, there, awake⟩ => by
          cases same
          exact ⟨conn, there, awake⟩⟩
  | .wait _ | .subscribe _ _ | .unsubscribe _ | .call _ (.opens _) | .call _ (.message _ _)
  | .call _ (.closing _) | .call _ (.closes _) | .call _ (.timeout _) | .call _ .liveCheck
  | .call _ (.resume _) => .isFalse fun ⟨_, _, _, same, _⟩ => by cases same

theorem Honest.set (honest : page.Honest) {index : Nat} {conn after : Connection}
    (found : page.conns[index]? = some conn) :
    (∀ other ∈ page.conns.set index after, other.Honest) ↔ after.Honest := by
  have bound := (List.getElem?_eq_some_iff.mp found).1
  constructor
  · exact fun all => all after (List.mem_of_getElem? (List.getElem?_set_self bound))
  · intro kept other member
    rcases List.mem_or_eq_of_mem_set member with older | rfl
    · exact honest other older
    · exact kept

theorem Honest.subscribe (honest : page.Honest) {url : String} {sub : Nat}
    (subscribed : page.subscribe url sub = some next) : next.Honest := by
  unfold EventsPage.subscribe at subscribed
  split at subscribed
  · cases subscribed
  split at subscribed
  · split at subscribed
    · rename_i conn found
      cases subscribed
      exact (honest.set found).mpr (honest conn (List.mem_of_getElem? found))
    · cases subscribed
  · cases subscribed
    intro conn member
    rcases List.mem_append.mp member with older | new
    · exact honest conn older
    · rw [List.mem_singleton] at new
      subst new
      exact Connection.connect_honest _ page.now

theorem Honest.unsubscribe (honest : page.Honest) {sub : Nat}
    (unsubscribed : page.unsubscribe sub = some next) : next.Honest := by
  obtain ⟨effect, -, -, conn, found, ⟨-, rfl⟩ | ⟨-, rfl⟩⟩ := unsubscribe_cases unsubscribed
  · exact (honest.set found).mpr (honest conn (List.mem_of_getElem? found))
  · exact (honest.set found).mpr (Connection.honest_of_closed (Connection.stop_url _).2)

/-- A step keeps the reports exactly when it is not an answer over an open socket. -/
theorem Honest.step_iff (honest : page.Honest) (sound : page.Sound) {action : EventsAction}
    (taken : page.step action = some next) :
    next.Honest ↔ ¬ page.AnswersOverOpen action := by
  have other : (∀ index answer, action ≠ .call index (.probed answer)) →
      ¬ page.AnswersOverOpen action := by
    rintro different ⟨index, answer, -, same, -⟩
    exact different index answer same
  cases action with
  | wait duration =>
    cases taken
    exact iff_of_true honest (other (by simp))
  | subscribe url sub => exact iff_of_true (honest.subscribe taken) (other (by simp))
  | unsubscribe sub => exact iff_of_true (honest.unsubscribe taken) (other (by simp))
  | call index callback =>
    obtain ⟨conn, after, found, reacted, rfl⟩ := call_cases taken
    have member := List.mem_of_getElem? found
    rw [Honest, honest.set found]
    by_cases probes : ∃ answer, callback = .probed answer
    · obtain ⟨answer, rfl⟩ := probes
      rw [Connection.probed_honest_iff reacted, not_iff_not]
      constructor
      · exact fun opened => ⟨index, answer, conn, rfl, found, opened⟩
      · rintro ⟨_, _, second, same, there, opened⟩
        cases same
        cases found.symm.trans there
        exact opened
    · have unprobed : ∀ answer, callback ≠ .probed answer := fun answer same =>
        probes ⟨answer, same⟩
      refine iff_of_true ((honest conn member).react (sound.conns conn member) unprobed reacted)
        (other fun place answer same => ?_)
      cases same
      exact unprobed answer rfl

end EventsPage

/-- An open socket is reported as open throughout a run exactly when no probe is answered over
an open socket. -/
theorem openSocket_reported_iff {now : Nat} {actions : List EventsAction} {final : EventsPage}
    (run : Run EventsPage.step anything (blankPage now) actions final) :
    (∀ before after page, actions = before ++ after →
        Run EventsPage.step anything (blankPage now) before page →
        ∀ conn ∈ page.conns, conn.closed = false → conn.isOpen = true →
          conn.lastStatus = some .opened) ↔
      (∀ before action after page, actions = before ++ action :: after →
        Run EventsPage.step anything (blankPage now) before page →
        ¬ ∃ index answer conn, action = .call index (.probed answer) ∧
          page.conns[index]? = some conn ∧ conn.closed = false ∧ conn.isOpen = true) := by
  refine run.throughout_iff EventsPage.Honest (fun page action => ¬ page.AnswersOverOpen action)
    (by simp [EventsPage.Honest, blankPage]) ?_
  intro before page action next reached honest taken
  exact honest.step_iff ((EventsPage.blankPage_sound now).run reached) taken

/-- Two attempts fail, and the third opens before the probe that the second started is
answered. -/
def recoveredDuringProbe : List EventsAction :=
  [.subscribe "wss://host/ws/events" 1, .call 0 (.closes 0), .call 0 (.timeout 1),
    .call 0 (.closes 1), .call 0 (.timeout 2), .call 0 (.opens 2)]

/-- The late answer reports the open socket as blocked. -/
theorem openSocket_reported_blocked :
    ∃ page, Run EventsPage.step anything (blankPage 0)
        (recoveredDuringProbe ++ [.call 0 (.probed (some 200))]) page ∧
      ∃ conn ∈ page.conns, conn.closed = false ∧ conn.isOpen = true ∧
        conn.lastStatus = some .wsBlocked := by
  obtain ⟨page, computed, passed⟩ := exists_of_exec EventsPage.step (blankPage 0)
    (recoveredDuringProbe ++ [.call 0 (.probed (some 200))])
    (fun page => page.conns.any fun conn => !conn.closed && conn.isOpen &&
      decide (conn.lastStatus = some .wsBlocked)) (by decide)
  refine ⟨page, Run.of_exec_anything computed, ?_⟩
  obtain ⟨conn, member, tested⟩ := List.any_eq_true.mp passed
  simp only [Bool.and_eq_true, Bool.not_eq_true', decide_eq_true_eq] at tested
  exact ⟨conn, member, tested.1.1, tested.1.2, tested.2⟩

/-- The probe is answered while the socket is down, and then the third attempt opens. -/
def answeredDuringOutage : List EventsAction :=
  [.subscribe "wss://host/ws/events" 1, .call 0 (.closes 0), .call 0 (.timeout 1),
    .call 0 (.closes 1), .call 0 (.probed (some 200)), .call 0 (.timeout 2), .call 0 (.opens 2)]

/-- Every report of an open socket is then right. -/
theorem answeredDuringOutage_reported :
    ∃ page, Run EventsPage.step anything (blankPage 0) answeredDuringOutage page ∧
      (∃ conn ∈ page.conns, conn.isOpen = true) ∧
      ∀ conn ∈ page.conns, conn.closed = false → conn.isOpen = true →
        conn.lastStatus = some .opened := by
  obtain ⟨page, computed, passed⟩ := exists_of_exec EventsPage.step (blankPage 0)
    answeredDuringOutage (fun page => page.conns.any Connection.isOpen) (by decide)
  have run : Run EventsPage.step (fun page action => ¬ page.AnswersOverOpen action) (blankPage 0)
      answeredDuringOutage page := Run.of_exec computed (by decide)
  refine ⟨page, run.unrestricted, List.any_eq_true.mp passed,
    (openSocket_reported_iff run.unrestricted).mpr ?_ answeredDuringOutage [] page
      (List.append_nil _).symm run.unrestricted⟩
  intro before action after state spelled reached
  exact (spelled ▸ run).permitted reached

end Multimux
