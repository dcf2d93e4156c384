/-
This file proves what a PTY socket carries and how it ends. What the browser
sent is done in order and what the attached client printed is forwarded in
order, nothing twice and nothing left out; the exit frame is the last word of
the socket and needs a session that is gone; the two goroutines that may write
never do at once; and whatever the browser does, the handler can give up what
it holds as long as tmux answers.
-/

import Multimux.PtyBridge
import Multimux.Runs

namespace Multimux

/-! ### What the invariants speak of -/

/-- What a frame asks the handler to do. -/
def inputOf : BrowserFrame → Option PtyInput
  | .binary data => some (.write data)
  | .text (some message) =>
    if message.type = "resize" && 0 < message.cols && 0 < message.rows then
      some (.resize message.cols message.rows message.active)
    else none
  | .text none => none
  | .pong => none

/-- The frame carries what was printed. -/
def DaemonFrame.isBinary : DaemonFrame → Bool
  | .binary _ => true
  | _ => false

/-- The bytes of the binary frames. -/
def binaries (frames : List DaemonFrame) : Bytes :=
  frames.flatMap fun
    | .binary data => data
    | _ => []

namespace PtyHandler

/-- What it has read and is about to do. -/
def unread : PtyHandler → List PtyInput
  | .typing data => [.write data]
  | .resizing cols rows active => [.resize cols rows active]
  | _ => []

/-- The read loop is left. -/
def left : PtyHandler → Bool
  | .closingPty | .awaitingPump | .deferredClose | .stoppingPing | .unregistering | .closingConn
  | .returned => true
  | _ => false

/-- It stands between `Register` and `Unregister`. -/
def registers : PtyHandler → Bool
  | .registering | .closingConn | .returned => false
  | _ => true

/-- It stands between `Attach` and the first `Close`. -/
def attaches : PtyHandler → Bool
  | .reading | .typing _ | .resizing _ _ _ | .closingPty => true
  | _ => false

/-- It has told the pinger to stop. -/
def stops : PtyHandler → Bool
  | .unregistering | .closingConn | .returned => true
  | _ => false

/-- It has not attached yet, or the attach failed. -/
def starts : PtyHandler → Bool
  | .registering | .attaching | .checking | .reporting => true
  | _ => false

/-- It waits for the pump, or the pump has begun and the PTY is open. -/
def pumps : PtyHandler → Bool
  | .reading | .typing _ | .resizing _ _ _ | .closingPty | .awaitingPump => true
  | _ => false

end PtyHandler

namespace PtyPump

/-- What it has read and not written. -/
def carried : PtyPump → Bytes
  | .writing data _ => data
  | _ => []

/-- It has neither failed to write nor finished. -/
def forwards : PtyPump → Bool
  | .quitting | .done => false
  | _ => true

/-- It may be writing a message. -/
def writes : PtyPump → Bool
  | .writing _ _ | .reporting => true
  | _ => false

/-- Its read came back with an error. -/
def drained : PtyPump → Bool
  | .writing _ last => last
  | .checking | .reporting | .sayingClose => true
  | _ => false

/-- It has not said anything yet but what was printed. -/
def silent : PtyPump → Bool
  | .reading | .writing _ _ | .checking | .reporting => true
  | _ => false

end PtyPump

namespace PtySocket

/-! ### The invariants -/

/-- The handler holds what its place says; the pump and the pinger fit to it. -/
structure Placed (socket : PtySocket) : Prop where
  registered : socket.registered = socket.handler.registers
  attached : socket.attached = socket.handler.attaches
  stop : socket.stop = socket.handler.stops
  absent : socket.handler.starts = true → socket.pump = .absent
  pumping : socket.handler.pumps = true → socket.pump ≠ .absent
  finished : socket.handler.starts = false → socket.handler.pumps = false →
    socket.pump = .absent ∨ socket.pump = .done
  closed : socket.handler = .returned → socket.connOpen = false
  pinging : socket.handler ≠ .registering → socket.stop = false →
    socket.pinger = .waiting ∨ socket.pinger = .quitting ∨
      socket.pinger = .stopped ∧ socket.connOpen = false
  deadline : socket.handler ≠ .registering → socket.deadline = socket.heard + pongWait

/-- The handler has done what the frames it read ask for; only a write that broke off may be
incomplete, and is then the last. -/
def Fed (socket : PtySocket) : Prop :=
  ∃ read, socket.arrived = read ++ socket.inbound ∧
    (read.filterMap inputOf = socket.inputs ++ socket.handler.unread ∨
      socket.handler.left = true ∧ ∃ before data count,
        read.filterMap inputOf = before ++ [.write data] ∧
        socket.inputs = before ++ [.write (data.take count)])

/-- The pump has forwarded what was printed, up to what it carries and what it has not read. -/
structure Forwarded (socket : PtySocket) : Prop where
  sent : binaries socket.sent <+: socket.output
  whole : socket.pump.forwards = true →
    binaries socket.sent ++ (socket.pump.carried ++ socket.printed) = socket.output
  drained : socket.pump.drained = true → socket.attached = true →
    socket.ended = true ∧ socket.printed = []
  told : .exit ∈ socket.sent ∨ .close ∈ socket.sent → socket.attached = true →
    socket.ended = true ∧ binaries socket.sent = socket.output

/-- Binary frames come first, then at most one exit, then at most one close. -/
structure Shaped (socket : PtySocket) : Prop where
  shape : ∃ data, (∀ frame ∈ data, frame.isBinary = true) ∧
    (socket.sent = data ∨ socket.sent = data ++ [.exit] ∨ socket.sent = data ++ [.close] ∨
      socket.sent = data ++ [.exit, .close])
  silent : socket.pump.silent = true → ∀ frame ∈ socket.sent, frame.isBinary = true
  saying : socket.pump = .sayingClose → ∃ data, (∀ frame ∈ data, frame.isBinary = true) ∧
    (socket.sent = data ∨ socket.sent = data ++ [.exit])
  unsaid : socket.handler.starts = true → socket.sent = []
  reason : .exit ∈ socket.sent ∨ socket.pump = .reporting ∨ socket.handler = .reporting →
    socket.gone = true ∨ socket.misled = true

/-- All that holds of a socket in every run. -/
structure Sound (socket : PtySocket) : Prop where
  placed : socket.Placed
  fed : socket.Fed
  forwarded : socket.Forwarded
  shaped : socket.Shaped

theorem sound_upgraded (now : Int) (alive : Bool) : (upgraded now alive).Sound where
  placed :=
    { registered := rfl
      attached := rfl
      stop := rfl
      absent := fun _ => rfl
      pumping := fun pumps => absurd pumps Bool.false_ne_true
      finished := fun starts => absurd starts.symm Bool.false_ne_true
      closed := fun ended => nomatch ended
      pinging := fun later => absurd rfl later
      deadline := fun later => absurd rfl later }
  fed := ⟨[], rfl, .inl rfl⟩
  forwarded :=
    { sent := List.prefix_refl []
      whole := fun _ => rfl
      drained := fun drained => absurd drained Bool.false_ne_true
      told := fun _ attached => absurd attached Bool.false_ne_true }
  shaped :=
    { shape := ⟨[], nofun, .inl rfl⟩
      silent := fun silent => absurd silent Bool.false_ne_true
      saying := fun saying => nomatch saying
      unsaid := fun _ => rfl
      reason := by
        rintro (told | reporting | reporting)
        · exact absurd told List.not_mem_nil
        · cases reporting
        · cases reporting }

/-! ### Calls -/

section Calls

variable {socket after : PtySocket} {choice : PtyChoice}

theorem writeMessage_eq_some {frame : DaemonFrame}
    (written : socket.writeMessage frame choice = some after) :
    choice = .ok ∧ socket.connOpen = true ∧ socket.stalled = false ∧
        after = { socket with sent := socket.sent ++ [frame] } ∨
      choice = .fails ∧ (socket.connOpen = false ∨ socket.broken = true) ∧ after = socket := by
  unfold writeMessage at written
  split at written
  · split at written
    · rename_i free
      cases written
      simp only [Bool.and_eq_true, Bool.not_eq_true'] at free
      exact .inl ⟨rfl, free.1, free.2, rfl⟩
    · cases written
  · split at written
    · rename_i lost
      cases written
      simp only [Bool.or_eq_true, Bool.not_eq_true'] at lost
      exact .inr ⟨rfl, lost, rfl⟩
    · cases written
  · cases written

/-- `has-session` only ever tells of the session. -/
theorem isAlive_eq_some {answer : Bool} (answered : socket.isAlive choice = some (after, answer)) :
    ∃ gone misled, after = { socket with gone, misled } ∧ (socket.gone = true → gone = true) ∧
      (socket.misled = true → misled = true) ∧ (answer = false → gone = true ∨ misled = true) := by
  unfold isAlive at answered
  split at answered
  · split at answered <;> cases answered
    refine ⟨_, socket.misled, rfl, ?_, id, ?_⟩
    · exact fun gone => by rw [gone, Bool.true_or]
    · exact fun dead => .inl (by rw [dead, Bool.not_false, Bool.or_true])
  · cases answered
    exact ⟨socket.gone, true, rfl, id, fun _ => rfl, fun _ => .inr rfl⟩
  · cases answered

/-- A tmux that answers tells whether the session is there. -/
theorem isAlive_ok (socket : PtySocket) (answers : socket.hung = false) :
    socket.isAlive .ok =
      some ({ socket with gone := socket.gone || !socket.alive }, socket.alive) :=
  if_neg (by rw [answers]; exact Bool.false_ne_true)

theorem afterRead_unread (frame : BrowserFrame) :
    (afterRead frame).unread = (inputOf frame).toList := by
  cases frame with
  | binary data => rfl
  | text message =>
    cases message with
    | none => rfl
    | some message =>
      simp only [afterRead, inputOf]
      split <;> rfl
  | pong => rfl

/-- After a frame the handler reads on, or does what the frame asks for. -/
theorem afterRead_place (frame : BrowserFrame) : afterRead frame = .reading ∨
    (∃ data, afterRead frame = .typing data) ∨
      ∃ cols rows active, afterRead frame = .resizing cols rows active := by
  cases frame with
  | binary data => exact .inr (.inl ⟨data, rfl⟩)
  | text message =>
    cases message with
    | none => exact .inl rfl
    | some message =>
      simp only [afterRead]
      split
      · exact .inr (.inr ⟨_, _, _, rfl⟩)
      · exact .inl rfl
  | pong => exact .inl rfl

end Calls

/-! ### The handler -/

section Steps

variable {socket after : PtySocket} {choice : PtyChoice}

/-- What the handler does where it stands. -/
inductive HandlerMove (socket : PtySocket) : PtySocket → Prop
  | register (place : socket.handler = .registering) :
    HandlerMove socket { socket with
      registered := true, deadline := socket.now + pongWait, heard := socket.now,
      pinger := .waiting, handler := .attaching }
  | attach (place : socket.handler = .attaching) :
    HandlerMove socket { socket with attached := true, pump := .reading, handler := .reading }
  | attachFails (place : socket.handler = .attaching) :
    HandlerMove socket { socket with handler := .checking }
  | check {gone misled : Bool} (place : socket.handler = .checking)
      (stillGone : socket.gone = true → gone = true)
      (stillMisled : socket.misled = true → misled = true) :
    HandlerMove socket { socket with gone, misled, handler := .stoppingPing }
  | findGone {gone misled : Bool} (place : socket.handler = .checking)
      (stillGone : socket.gone = true → gone = true)
      (stillMisled : socket.misled = true → misled = true) (dead : gone = true ∨ misled = true) :
    HandlerMove socket { socket with gone, misled, handler := .reporting }
  | report (place : socket.handler = .reporting) :
    HandlerMove socket { socket with sent := socket.sent ++ [.exit], handler := .stoppingPing }
  | reportFails (place : socket.handler = .reporting) :
    HandlerMove socket { socket with handler := .stoppingPing }
  | read {frame : BrowserFrame} (place : socket.handler = .reading)
      (there : socket.inbound = frame :: socket.inbound.tail) :
    HandlerMove socket { socket with
      inbound := socket.inbound.tail, deadline := socket.now + pongWait, heard := socket.now,
      handler := afterRead frame }
  | readFails (place : socket.handler = .reading) :
    HandlerMove socket { socket with handler := .closingPty }
  | type {data : Bytes} (place : socket.handler = .typing data) :
    HandlerMove socket { socket with
      inputs := socket.inputs ++ [.write data], handler := .reading }
  | typeBreaks {data : Bytes} {count : Nat} (place : socket.handler = .typing data) :
    HandlerMove socket { socket with
      inputs := socket.inputs ++ [.write (data.take count)], handler := .closingPty }
  | resize {cols rows : UInt16} {active : Bool}
      (place : socket.handler = .resizing cols rows active) :
    HandlerMove socket { socket with
      inputs := socket.inputs ++ [.resize cols rows active], handler := .reading }
  | closePty (place : socket.handler = .closingPty) :
    HandlerMove socket { socket with attached := false, handler := .awaitingPump }
  | join (place : socket.handler = .awaitingPump) (finished : socket.pump = .done) :
    HandlerMove socket { socket with handler := .deferredClose }
  | closeAgain (place : socket.handler = .deferredClose) :
    HandlerMove socket { socket with attached := false, handler := .stoppingPing }
  | stopPing (place : socket.handler = .stoppingPing) :
    HandlerMove socket { socket with stop := true, handler := .unregistering }
  | unregister (place : socket.handler = .unregistering) :
    HandlerMove socket { socket with registered := false, handler := .closingConn }
  | closeConn (place : socket.handler = .closingConn) :
    HandlerMove socket { socket with connOpen := false, handler := .returned }

theorem stepHandler_move (taken : socket.stepHandler choice = some after) :
    socket.HandlerMove after := by
  unfold stepHandler at taken
  split at taken <;> rename_i place
  · cases taken
    exact .register place
  · split at taken <;> cases taken
    · exact .attach place
    · exact .attachFails place
  · obtain ⟨⟨checked, answer⟩, answered, rfl⟩ := Option.map_eq_some_iff.mp taken
    obtain ⟨gone, misled, rfl, stillGone, stillMisled, dead⟩ := isAlive_eq_some answered
    cases answer with
    | true => exact .check place stillGone stillMisled
    | false => exact .findGone place stillGone stillMisled (dead rfl)
  · obtain ⟨written, wrote, rfl⟩ := Option.map_eq_some_iff.mp taken
    rcases writeMessage_eq_some wrote with ⟨-, -, -, rfl⟩ | ⟨-, -, rfl⟩
    · exact .report place
    · exact .reportFails place
  · split at taken
    · obtain ⟨frame, head, rfl⟩ := Option.map_eq_some_iff.mp taken
      exact .read place (List.cons_head?_tail head).symm
    · split at taken <;> cases taken
      exact .readFails place
    · cases taken
  · split at taken
    · split at taken <;> cases taken
      exact .type place
    · cases taken
      exact .typeBreaks place
    · cases taken
  · split at taken <;> cases taken
    exact .resize place
  · cases taken
    exact .closePty place
  · split at taken <;> cases taken
    exact .join place ‹_›
  · cases taken
    exact .closeAgain place
  · cases taken
    exact .stopPing place
  · cases taken
    exact .unregister place
  · cases taken
    exact .closeConn place
  · cases taken

/-- What the pump does where it stands. -/
inductive PumpMove (socket : PtySocket) : PtySocket → Prop
  | read {count : Nat} {last : Bool} (place : socket.pump = .reading)
      (drained : last = true → socket.ended = true ∧ socket.printed.drop count = []) :
    PumpMove socket { socket with
      printed := socket.printed.drop count, pump := .writing (socket.printed.take count) last }
  | readFails (place : socket.pump = .reading)
      (drained : socket.attached = true → socket.ended = true ∧ socket.printed = []) :
    PumpMove socket { socket with pump := .checking }
  | write {data : Bytes} (place : socket.pump = .writing data false) :
    PumpMove socket { socket with sent := socket.sent ++ [.binary data], pump := .reading }
  | writeLast {data : Bytes} (place : socket.pump = .writing data true) :
    PumpMove socket { socket with sent := socket.sent ++ [.binary data], pump := .checking }
  | writeFails {data : Bytes} {last : Bool} (place : socket.pump = .writing data last) :
    PumpMove socket { socket with pump := .quitting }
  | check {gone misled : Bool} (place : socket.pump = .checking)
      (stillGone : socket.gone = true → gone = true)
      (stillMisled : socket.misled = true → misled = true) :
    PumpMove socket { socket with gone, misled, pump := .sayingClose }
  | findGone {gone misled : Bool} (place : socket.pump = .checking)
      (stillGone : socket.gone = true → gone = true)
      (stillMisled : socket.misled = true → misled = true) (dead : gone = true ∨ misled = true) :
    PumpMove socket { socket with gone, misled, pump := .reporting }
  | report (place : socket.pump = .reporting) :
    PumpMove socket { socket with sent := socket.sent ++ [.exit], pump := .sayingClose }
  | reportFails (place : socket.pump = .reporting) :
    PumpMove socket { socket with pump := .sayingClose }
  | sayClose (place : socket.pump = .sayingClose) :
    PumpMove socket { socket with sent := socket.sent ++ [.close], pump := .quitting }
  | closeFails (place : socket.pump = .sayingClose) :
    PumpMove socket { socket with pump := .quitting }
  | quit (place : socket.pump = .quitting) :
    PumpMove socket { socket with connOpen := false, pump := .done }

theorem stepPump_move (taken : socket.stepPump choice = some after) : socket.PumpMove after := by
  unfold stepPump at taken
  split at taken <;> rename_i place
  · split at taken
    · split at taken <;> cases taken
      rename_i count last possible
      simp only [Bool.and_eq_true, Bool.or_eq_true, Bool.not_eq_true', decide_eq_true_eq]
        at possible
      refine .read place fun ends => ?_
      obtain ⟨ended, all⟩ := possible.2.resolve_left fun more =>
        Bool.false_ne_true (more.symm.trans ends)
      exact ⟨ended, by rw [all, List.drop_length]⟩
    · split at taken <;> cases taken
      rename_i possible
      simp only [Bool.or_eq_true, Bool.not_eq_true', Bool.and_eq_true, decide_eq_true_eq]
        at possible
      exact .readFails place fun attached =>
        possible.resolve_left fun closed => Bool.false_ne_true (closed.symm.trans attached)
    · cases taken
  · rename_i data last
    obtain ⟨written, wrote, rfl⟩ := Option.map_eq_some_iff.mp taken
    rcases writeMessage_eq_some wrote with ⟨rfl, -, -, rfl⟩ | ⟨rfl, -, rfl⟩
    · cases last with
      | true => exact .writeLast place
      | false => exact .write place
    · exact .writeFails place
  · obtain ⟨⟨checked, answer⟩, answered, rfl⟩ := Option.map_eq_some_iff.mp taken
    obtain ⟨gone, misled, rfl, stillGone, stillMisled, dead⟩ := isAlive_eq_some answered
    cases answer with
    | true => exact .check place stillGone stillMisled
    | false => exact .findGone place stillGone stillMisled (dead rfl)
  · obtain ⟨written, wrote, rfl⟩ := Option.map_eq_some_iff.mp taken
    rcases writeMessage_eq_some wrote with ⟨-, -, -, rfl⟩ | ⟨-, -, rfl⟩
    · exact .report place
    · exact .reportFails place
  · split at taken
    · split at taken <;> cases taken
      exact .sayClose place
    · split at taken <;> cases taken
      exact .closeFails place
    · cases taken
  · cases taken
    exact .quit place
  · cases taken
  · cases taken

theorem occur_cases {event : PtyEvent} (taken : socket.occur event = some after) :
    (∃ now alive broken stalled hung,
      after = { socket with now, alive, broken, stalled, hung }) ∨
    (∃ frame, after = { socket with
      inbound := socket.inbound ++ [frame], arrived := socket.arrived ++ [frame] }) ∨
    (∃ data, socket.ended = false ∧ after = { socket with
      printed := socket.printed ++ data, output := socket.output ++ data }) ∨
    after = { socket with ended := true } := by
  cases event with
  | wait | stalls | resumes | leaves | hangs | answers | sessionEnds =>
    cases taken
    exact .inl ⟨_, _, _, _, _, rfl⟩
  | sends frame =>
    obtain ⟨-, rfl⟩ := (Option.ite_none_left_eq_some.1 taken).imp_right Option.some.inj
    exact .inr (.inl ⟨frame, rfl⟩)
  | prints data =>
    obtain ⟨prints, rfl⟩ := (Option.ite_none_right_eq_some.1 taken).imp_right Option.some.inj
    simp only [Bool.and_eq_true, Bool.not_eq_true'] at prints
    exact .inr (.inr (.inl ⟨data, prints.2, rfl⟩))
  | detaches =>
    obtain ⟨-, rfl⟩ := (Option.ite_none_right_eq_some.1 taken).imp_right Option.some.inj
    exact .inr (.inr (.inr rfl))

/-! ### Places -/

theorem afterRead_placed (frame : BrowserFrame) :
    (afterRead frame).registers = true ∧ (afterRead frame).attaches = true ∧
      (afterRead frame).stops = false ∧ (afterRead frame).starts = false ∧
      (afterRead frame).pumps = true ∧ (afterRead frame).left = false ∧
      afterRead frame ≠ .registering ∧ afterRead frame ≠ .reporting ∧
      afterRead frame ≠ .returned := by
  rcases afterRead_place frame with reading | ⟨data, typing⟩ | ⟨cols, rows, active, resizing⟩
  · rw [reading]
    exact ⟨rfl, rfl, rfl, rfl, rfl, rfl, nofun, nofun, nofun⟩
  · rw [typing]
    exact ⟨rfl, rfl, rfl, rfl, rfl, rfl, nofun, nofun, nofun⟩
  · rw [resizing]
    exact ⟨rfl, rfl, rfl, rfl, rfl, rfl, nofun, nofun, nofun⟩

theorem Placed.handler (placed : socket.Placed) (move : socket.HandlerMove after) :
    after.Placed := by
  obtain ⟨registered, attached, stop, absent, pumping, finished, closed, pinging, deadline⟩ :=
    placed
  cases move with
  | register place =>
    rw [place] at attached stop absent
    exact ⟨rfl, attached, stop, fun _ => absent rfl, nofun, nofun, nofun, fun _ _ => .inl rfl,
      fun _ => rfl⟩
  | attach place =>
    rw [place] at registered stop pinging deadline
    exact ⟨registered, rfl, stop, nofun, fun _ => nofun, fun _ => nofun, nofun,
      fun _ => pinging nofun, fun _ => deadline nofun⟩
  | attachFails place | findGone place =>
    rw [place] at registered attached stop absent pinging deadline
    exact ⟨registered, attached, stop, fun _ => absent rfl, nofun, nofun, nofun,
      fun _ => pinging nofun, fun _ => deadline nofun⟩
  | check place | report place | reportFails place =>
    rw [place] at registered attached stop absent pinging deadline
    exact ⟨registered, attached, stop, nofun, nofun, fun _ _ => .inl (absent rfl), nofun,
      fun _ => pinging nofun, fun _ => deadline nofun⟩
  | read place there =>
    rename_i frame
    obtain ⟨registers, attaches, stops, starts, pumps, -, -, -, notLast⟩ := afterRead_placed frame
    rw [place] at registered attached stop pumping pinging
    exact ⟨registered.trans registers.symm, attached.trans attaches.symm, stop.trans stops.symm,
      fun early => absurd (starts.symm.trans early) nofun, fun _ => pumping rfl,
      fun _ idle => absurd (pumps.symm.trans idle) nofun, fun last => absurd last notLast,
      fun _ => pinging nofun, fun _ => rfl⟩
  | readFails place | type place | typeBreaks place | resize place =>
    rw [place] at registered attached stop pumping pinging deadline
    exact ⟨registered, attached, stop, nofun, fun _ => pumping rfl, fun _ => nofun, nofun,
      fun _ => pinging nofun, fun _ => deadline nofun⟩
  | closePty place =>
    rw [place] at registered stop pumping pinging deadline
    exact ⟨registered, rfl, stop, nofun, fun _ => pumping rfl, fun _ => nofun, nofun,
      fun _ => pinging nofun, fun _ => deadline nofun⟩
  | join place ended =>
    rw [place] at registered attached stop pinging deadline
    exact ⟨registered, attached, stop, nofun, nofun, fun _ _ => .inr ended, nofun,
      fun _ => pinging nofun, fun _ => deadline nofun⟩
  | closeAgain place =>
    rw [place] at registered stop finished pinging deadline
    exact ⟨registered, rfl, stop, nofun, nofun, fun _ _ => finished rfl rfl, nofun,
      fun _ => pinging nofun, fun _ => deadline nofun⟩
  | stopPing place =>
    rw [place] at registered attached finished deadline
    exact ⟨registered, attached, rfl, nofun, nofun, fun _ _ => finished rfl rfl, nofun,
      fun _ => nofun, fun _ => deadline nofun⟩
  | unregister place =>
    rw [place] at attached stop finished pinging deadline
    exact ⟨rfl, attached, stop, nofun, nofun, fun _ _ => finished rfl rfl, nofun,
      fun _ => pinging nofun, fun _ => deadline nofun⟩
  | closeConn place =>
    rw [place] at registered attached stop finished deadline
    exact ⟨registered, attached, stop, nofun, nofun, fun _ _ => finished rfl rfl, fun _ => rfl,
      fun _ going => absurd (stop.symm.trans going) nofun, fun _ => deadline nofun⟩

/-- While the pump runs, the handler has begun and has not joined it. -/
theorem Placed.busy (placed : socket.Placed) (began : socket.pump ≠ .absent)
    (going : socket.pump ≠ .done) :
    socket.handler.starts = false ∧ socket.handler.pumps = true := by
  have started : socket.handler.starts = false :=
    Bool.eq_false_iff.2 fun starts => began (placed.absent starts)
  refine ⟨started, ?_⟩
  by_contra idle
  exact (placed.finished started (Bool.eq_false_iff.2 idle)).elim began going

/-- A step of the pump to a place where it still runs. -/
theorem Placed.runs (placed : socket.Placed) (began : socket.pump ≠ .absent)
    (going : socket.pump ≠ .done) {sent : List DaemonFrame} {printed : Bytes} {gone misled : Bool}
    {pump : PtyPump} (begun : pump ≠ .absent) :
    Placed { socket with sent, printed, gone, misled, pump } := by
  obtain ⟨started, joins⟩ := placed.busy began going
  exact ⟨placed.registered, placed.attached, placed.stop,
    fun early => absurd (started.symm.trans early) nofun, fun _ => begun,
    fun _ idle => absurd (joins.symm.trans idle) nofun, placed.closed, placed.pinging,
    placed.deadline⟩

theorem Placed.pump (placed : socket.Placed) (move : socket.PumpMove after) : after.Placed := by
  cases move with
  | read place | readFails place | write place | writeLast place | writeFails place | check place
  | findGone place | report place | reportFails place | sayClose place | closeFails place =>
    exact placed.runs (by rw [place]; exact nofun) (by rw [place]; exact nofun) nofun
  | quit place =>
    obtain ⟨started, joins⟩ :=
      placed.busy (by rw [place]; exact nofun) (by rw [place]; exact nofun)
    refine ⟨placed.registered, placed.attached, placed.stop,
      fun early => absurd (started.symm.trans early) nofun, fun _ => nofun, fun _ _ => .inr rfl,
      fun _ => rfl, fun later going => ?_, placed.deadline⟩
    exact (placed.pinging later going).imp_right fun other => other.imp_right fun closes =>
      ⟨closes.1, rfl⟩

theorem Placed.pinger (placed : socket.Placed) (taken : socket.stepPinger choice = some after) :
    after.Placed := by
  obtain ⟨registered, attached, stop, absent, pumping, finished, closed, pinging, deadline⟩ :=
    placed
  unfold stepPinger at taken
  split at taken
  · split at taken
    · split at taken <;> cases taken
      exact ⟨registered, attached, stop, absent, pumping, finished, closed, pinging, deadline⟩
    · split at taken <;> cases taken
      exact ⟨registered, attached, stop, absent, pumping, finished, closed,
        fun _ _ => .inr (.inl rfl), deadline⟩
    · split at taken <;> cases taken
      rename_i stopped
      exact ⟨registered, attached, stop, absent, pumping, finished, closed,
        fun _ going => absurd (stopped.symm.trans going) nofun, deadline⟩
    · cases taken
  · cases taken
    exact ⟨registered, attached, stop, absent, pumping, finished, fun _ => rfl,
      fun _ _ => .inr (.inr ⟨rfl, rfl⟩), deadline⟩
  · cases taken
  · cases taken

theorem Placed.occur {event : PtyEvent} (placed : socket.Placed)
    (taken : socket.occur event = some after) : after.Placed := by
  obtain ⟨registered, attached, stop, absent, pumping, finished, closed, pinging, deadline⟩ :=
    placed
  rcases occur_cases taken with ⟨_, _, _, _, _, rfl⟩ | ⟨_, rfl⟩ | ⟨_, -, rfl⟩ | rfl
  all_goals
    exact ⟨registered, attached, stop, absent, pumping, finished, closed, pinging, deadline⟩

/-- The pinger only ever closes the socket. -/
theorem stepPinger_frame (taken : socket.stepPinger choice = some after) :
    ∃ pinger connOpen, after = { socket with pinger, connOpen } := by
  unfold stepPinger at taken
  split at taken
  · split at taken
    · split at taken <;> cases taken
      exact ⟨_, _, rfl⟩
    · split at taken <;> cases taken
      exact ⟨_, _, rfl⟩
    · split at taken <;> cases taken
      exact ⟨_, _, rfl⟩
    · cases taken
  · cases taken
    exact ⟨_, _, rfl⟩
  · cases taken
  · cases taken

/-! ### What the browser sent -/

/-- The handler goes on without reading or doing anything. -/
theorem Fed.goes (fed : socket.Fed) (arrived : after.arrived = socket.arrived)
    (inbound : after.inbound = socket.inbound) (inputs : after.inputs = socket.inputs)
    (unread : after.handler.unread = socket.handler.unread)
    (left : socket.handler.left = true → after.handler.left = true) : after.Fed := by
  obtain ⟨read, whole, done⟩ := fed
  refine ⟨read, by rw [arrived, inbound, whole], ?_⟩
  rw [inputs, unread]
  exact done.imp_right fun broken => ⟨left broken.1, broken.2⟩

theorem Fed.done (fed : socket.Fed) (stays : socket.handler.left = false) :
    ∃ read, socket.arrived = read ++ socket.inbound ∧
      read.filterMap inputOf = socket.inputs ++ socket.handler.unread := by
  obtain ⟨read, whole, done⟩ := fed
  exact ⟨read, whole, done.resolve_right fun broken =>
    Bool.false_ne_true (stays.symm.trans broken.1)⟩

theorem Fed.handler (fed : socket.Fed) (move : socket.HandlerMove after) : after.Fed := by
  cases move with
  | read place there =>
    rename_i frame
    obtain ⟨read, whole, done⟩ := fed.done (by rw [place]; rfl)
    refine ⟨read ++ [frame], ?_, .inl ?_⟩
    · rw [whole, there, List.append_assoc]
      rfl
    · rw [List.filterMap_append, done, place]
      show socket.inputs ++ [] ++ [frame].filterMap inputOf =
        socket.inputs ++ (afterRead frame).unread
      rw [afterRead_unread, List.append_nil]
      cases asks : inputOf frame <;> simp [asks]
  | type place =>
    obtain ⟨read, whole, done⟩ := fed.done (by rw [place]; rfl)
    refine ⟨read, whole, .inl ?_⟩
    rw [done, place]
    exact (List.append_nil _).symm
  | typeBreaks place =>
    rename_i data count
    obtain ⟨read, whole, done⟩ := fed.done (by rw [place]; rfl)
    refine ⟨read, whole, .inr ⟨rfl, socket.inputs, data, count, ?_, rfl⟩⟩
    rw [done, place]
    rfl
  | resize place =>
    obtain ⟨read, whole, done⟩ := fed.done (by rw [place]; rfl)
    refine ⟨read, whole, .inl ?_⟩
    rw [done, place]
    exact (List.append_nil _).symm
  | register place | attach place | attachFails place | findGone place =>
    exact fed.goes rfl rfl rfl (by rw [place]; rfl) (by rw [place]; exact nofun)
  | check place | report place | reportFails place | readFails place | closePty place
  | join place | closeAgain place | stopPing place | unregister place | closeConn place =>
    exact fed.goes rfl rfl rfl (by rw [place]; rfl) fun _ => rfl

theorem Fed.occur {event : PtyEvent} (fed : socket.Fed)
    (taken : socket.occur event = some after) : after.Fed := by
  rcases occur_cases taken with ⟨_, _, _, _, _, rfl⟩ | ⟨frame, rfl⟩ | ⟨_, -, rfl⟩ | rfl
  · exact fed
  · obtain ⟨read, whole, done⟩ := fed
    exact ⟨read, by rw [whole, List.append_assoc], done⟩
  · exact fed
  · exact fed

/-! ### What was printed -/

theorem binaries_concat (frames : List DaemonFrame) (frame : DaemonFrame) :
    binaries (frames ++ [frame]) = binaries frames ++ binaries [frame] :=
  List.flatMap_append

theorem Forwarded.handler (forwarded : socket.Forwarded) (placed : socket.Placed)
    (shaped : socket.Shaped) (move : socket.HandlerMove after) : after.Forwarded := by
  obtain ⟨sent, whole, drained, told⟩ := forwarded
  cases move with
  | attach place =>
    have silent : socket.sent = [] := shaped.unsaid (by rw [place]; rfl)
    have absent : socket.pump = .absent := placed.absent (by rw [place]; rfl)
    rw [absent] at whole
    refine ⟨sent, whole, nofun, fun spoke _ => ?_⟩
    rw [silent] at spoke
    exact absurd spoke (not_or_intro List.not_mem_nil List.not_mem_nil)
  | report place =>
    have same : binaries (socket.sent ++ [.exit]) = binaries socket.sent := by
      rw [binaries_concat]
      exact List.append_nil _
    have closed : socket.attached = false := by rw [placed.attached, place]; rfl
    refine ⟨?_, ?_, drained, fun _ attached => absurd (closed.symm.trans attached) nofun⟩
    · exact same ▸ sent
    · exact same ▸ whole
  | closePty => exact ⟨sent, whole, fun _ attached => absurd attached nofun,
      fun _ attached => absurd attached nofun⟩
  | closeAgain => exact ⟨sent, whole, fun _ attached => absurd attached nofun,
      fun _ attached => absurd attached nofun⟩
  | register | attachFails | check | findGone | reportFails | read | readFails | type | typeBreaks
  | resize | join | stopPing | unregister | closeConn => exact ⟨sent, whole, drained, told⟩

theorem Forwarded.pump (forwarded : socket.Forwarded) (shaped : socket.Shaped)
    (move : socket.PumpMove after) : after.Forwarded := by
  obtain ⟨sent, whole, drained, told⟩ := forwarded
  -- while the pump is silent, nothing but binary frames was sent
  have unspoken : socket.pump.silent = true → ¬ (.exit ∈ socket.sent ∨ .close ∈ socket.sent) := by
    rintro silent (exit | close)
    · exact nomatch shaped.silent silent _ exit
    · exact nomatch shaped.silent silent _ close
  have wrote : ∀ {data : Bytes} {last : Bool}, socket.pump = .writing data last →
      binaries (socket.sent ++ [.binary data]) ++ socket.printed = socket.output := by
    intro data last place
    have all := whole (by rw [place]; rfl)
    rw [place] at all
    rw [binaries_concat, List.append_assoc]
    show binaries socket.sent ++ ((data ++ []) ++ socket.printed) = socket.output
    rw [List.append_nil]
    exact all
  have spoken : ∀ {data : Bytes} {last : Bool}, socket.pump = .writing data last →
      ¬ (.exit ∈ socket.sent ++ [.binary data] ∨ .close ∈ socket.sent ++ [.binary data]) := by
    intro data last place
    have before := unspoken (by rw [place]; rfl)
    simpa using before
  -- what the exit and the close say does not count as printed
  have wordless : ∀ frame, (frame = .exit ∨ frame = .close) →
      binaries (socket.sent ++ [frame]) = binaries socket.sent := by
    rintro frame (rfl | rfl) <;> rw [binaries_concat] <;> exact List.append_nil _
  cases move with
  | read place ends =>
    rename_i count last
    refine ⟨sent, fun _ => ?_, fun last attached => ends last, fun spoke => ?_⟩
    · have all := whole (by rw [place]; rfl)
      rw [place] at all
      show _ ++ (socket.printed.take count ++ socket.printed.drop count) = _
      rw [List.take_append_drop]
      exact all
    · exact absurd spoke (unspoken (by rw [place]; rfl))
  | readFails place ends =>
    refine ⟨sent, fun _ => ?_, fun _ => ends, told⟩
    have all := whole (by rw [place]; rfl)
    rw [place] at all
    exact all
  | write place =>
    exact ⟨⟨_, wrote place⟩, fun _ => wrote place, nofun, fun spoke => absurd spoke (spoken place)⟩
  | writeLast place =>
    exact ⟨⟨_, wrote place⟩, fun _ => wrote place, fun _ => drained (by rw [place]; rfl),
      fun spoke => absurd spoke (spoken place)⟩
  | writeFails place => exact ⟨sent, nofun, nofun, told⟩
  | check place | findGone place | reportFails place =>
    refine ⟨sent, fun _ => ?_, fun _ => drained (by rw [place]; rfl), told⟩
    have all := whole (by rw [place]; rfl)
    rw [place] at all
    exact all
  | report place =>
    have same := wordless .exit (.inl rfl)
    have all := whole (by rw [place]; rfl)
    rw [place] at all
    refine ⟨same ▸ sent, fun _ => same ▸ all, fun _ => drained (by rw [place]; rfl),
      fun _ attached => ?_⟩
    obtain ⟨ended, nothing⟩ := drained (by rw [place]; rfl) attached
    rw [nothing] at all
    exact ⟨ended, same.trans ((List.append_nil _).symm.trans all)⟩
  | sayClose place =>
    have same := wordless .close (.inr rfl)
    have all := whole (by rw [place]; rfl)
    rw [place] at all
    refine ⟨same ▸ sent, nofun, nofun, fun _ attached => ?_⟩
    obtain ⟨ended, nothing⟩ := drained (by rw [place]; rfl) attached
    rw [nothing] at all
    exact ⟨ended, same.trans ((List.append_nil _).symm.trans all)⟩
  | closeFails place => exact ⟨sent, nofun, nofun, told⟩
  | quit place => exact ⟨sent, nofun, nofun, told⟩

theorem Forwarded.occur {event : PtyEvent} (forwarded : socket.Forwarded)
    (taken : socket.occur event = some after) : after.Forwarded := by
  obtain ⟨sent, whole, drained, told⟩ := forwarded
  rcases occur_cases taken with ⟨_, _, _, _, _, rfl⟩ | ⟨_, rfl⟩ | ⟨data, goes, rfl⟩ | rfl
  · exact ⟨sent, whole, drained, told⟩
  · exact ⟨sent, whole, drained, told⟩
  · refine ⟨sent.trans (List.prefix_append _ _), fun forwards => ?_, fun drains attached => ?_,
      fun spoke attached => ?_⟩
    · rw [← whole forwards]
      simp only [List.append_assoc]
    · exact absurd (goes.symm.trans (drained drains attached).1) nofun
    · exact absurd (goes.symm.trans (told spoke attached).1) nofun
  · exact ⟨sent, whole, fun drains attached => ⟨rfl, (drained drains attached).2⟩,
      fun spoke attached => ⟨rfl, (told spoke attached).2⟩⟩

/-! ### What the daemon says -/

/-- An exit keeps its reason when the handler goes on to a place where it reports nothing. -/
theorem Shaped.placeReason (shaped : socket.Shaped) {place : PtyHandler}
    (quiet : place ≠ .reporting)
    (why : .exit ∈ socket.sent ∨ socket.pump = .reporting ∨ place = .reporting) :
    socket.gone = true ∨ socket.misled = true :=
  shaped.reason (why.imp_right fun other => other.imp_right fun wrong => absurd wrong quiet)

/-- So it does when the pump goes on to such a place. -/
theorem Shaped.pumpReason (shaped : socket.Shaped) {place : PtyPump} (quiet : place ≠ .reporting)
    (why : .exit ∈ socket.sent ∨ place = .reporting ∨ socket.handler = .reporting) :
    socket.gone = true ∨ socket.misled = true :=
  shaped.reason (why.imp_right fun other => other.imp_left fun wrong => absurd wrong quiet)

theorem Shaped.handler (shaped : socket.Shaped) (placed : socket.Placed)
    (move : socket.HandlerMove after) : after.Shaped := by
  have ⟨shape, silent, saying, unsaid, reason⟩ := shaped
  have absent : socket.handler.starts = true → socket.pump = .absent := placed.absent
  cases move with
  | register place =>
    exact ⟨shape, silent, saying, fun _ => unsaid (by rw [place]; rfl), shaped.placeReason nofun⟩
  | attach place =>
    have nothing := unsaid (by rw [place]; rfl)
    refine ⟨shape, fun _ => ?_, nofun, nofun, ?_⟩
    · rw [nothing]
      exact nofun
    · rintro (said | wrong | wrong)
      · exact reason (.inl said)
      · cases wrong
      · cases wrong
  | attachFails place =>
    exact ⟨shape, silent, saying, fun _ => unsaid (by rw [place]; rfl), shaped.placeReason nofun⟩
  | check place stillGone stillMisled =>
    refine ⟨shape, silent, saying, nofun, fun why => ?_⟩
    have quiet : PtyHandler.stoppingPing ≠ .reporting := nofun
    exact (shaped.placeReason quiet why).imp stillGone stillMisled
  | findGone place stillGone stillMisled dead =>
    exact ⟨shape, silent, saying, fun _ => unsaid (by rw [place]; rfl), fun _ => dead⟩
  | report place =>
    have nothing := unsaid (by rw [place]; rfl)
    have none := absent (by rw [place]; rfl)
    refine ⟨⟨[], nofun, .inr (.inl ?_)⟩, ?_, ?_, nofun, fun _ => reason (.inr (.inr place))⟩
    · show socket.sent ++ [.exit] = [] ++ [.exit]
      rw [nothing]
    · exact fun speaks => nomatch (none ▸ speaks : PtyPump.absent.silent = true)
    · exact fun speaks => nomatch none.symm.trans speaks
  | reportFails place =>
    exact ⟨shape, silent, saying, nofun, shaped.placeReason nofun⟩
  | read place there =>
    rename_i frame
    obtain ⟨-, -, -, starts, -, -, -, notReporting, -⟩ := afterRead_placed frame
    refine ⟨shape, silent, saying, fun early => absurd (starts.symm.trans early) nofun, ?_⟩
    exact shaped.placeReason notReporting
  | readFails place | type place | typeBreaks place | resize place | closePty place
  | join place | closeAgain place | stopPing place | unregister place | closeConn place =>
    exact ⟨shape, silent, saying, nofun, shaped.placeReason nofun⟩

theorem Shaped.pump (shaped : socket.Shaped) (placed : socket.Placed)
    (move : socket.PumpMove after) : after.Shaped := by
  have ⟨shape, silent, saying, unsaid, reason⟩ := shaped
  -- the handler says nothing once there is a pump
  have later : ∀ {place : PtyPump}, socket.pump = place → place ≠ .absent →
      ∀ {sent : List DaemonFrame}, socket.handler.starts = true → sent = [] :=
    fun there busy _ starts => absurd (there.symm.trans (placed.absent starts)) busy
  cases move with
  | read place =>
    exact ⟨shape, fun _ => silent (by rw [place]; rfl), nofun, unsaid, shaped.pumpReason nofun⟩
  | readFails place =>
    exact ⟨shape, fun _ => silent (by rw [place]; rfl), nofun, unsaid, shaped.pumpReason nofun⟩
  | write place | writeLast place =>
    rename_i data
    have before := silent (by rw [place]; rfl)
    have binary : ∀ frame ∈ socket.sent ++ [.binary data], frame.isBinary = true := by
      intro frame member
      rcases List.mem_append.1 member with old | new
      · exact before frame old
      · rw [List.mem_singleton.1 new]
        rfl
    refine ⟨⟨_, binary, .inl rfl⟩, fun _ => binary, nofun, later place nofun, ?_⟩
    rintro (said | wrong | reporting)
    · exact nomatch binary _ said
    · cases wrong
    · exact reason (.inr (.inr reporting))
  | writeFails place =>
    exact ⟨shape, nofun, nofun, unsaid, shaped.pumpReason nofun⟩
  | check place stillGone stillMisled =>
    refine ⟨shape, nofun, fun _ => ⟨_, silent (by rw [place]; rfl), .inl rfl⟩, unsaid,
      fun why => ?_⟩
    have quiet : PtyPump.sayingClose ≠ .reporting := nofun
    exact (shaped.pumpReason quiet why).imp stillGone stillMisled
  | findGone place stillGone stillMisled dead =>
    exact ⟨shape, fun _ => silent (by rw [place]; rfl), nofun, unsaid, fun _ => dead⟩
  | report place =>
    have before := silent (by rw [place]; rfl)
    exact ⟨⟨_, before, .inr (.inl rfl)⟩, nofun, fun _ => ⟨_, before, .inr rfl⟩,
      later place nofun, fun _ => reason (.inr (.inl place))⟩
  | reportFails place =>
    exact ⟨shape, nofun, fun _ => ⟨_, silent (by rw [place]; rfl), .inl rfl⟩, unsaid,
      shaped.pumpReason nofun⟩
  | sayClose place =>
    obtain ⟨data, binary, whole⟩ := saying place
    refine ⟨⟨data, binary, ?_⟩, nofun, nofun, later place nofun, ?_⟩
    · show socket.sent ++ [.close] = _ ∨ socket.sent ++ [.close] = _ ∨
        socket.sent ++ [.close] = _ ∨ socket.sent ++ [.close] = _
      rcases whole with same | same
      · rw [same]
        exact .inr (.inr (.inl rfl))
      · rw [same, List.append_assoc]
        exact .inr (.inr (.inr rfl))
    · rintro (said | wrong | reporting)
      · refine reason (.inl ((List.mem_append.1 said).resolve_right fun wrong => ?_))
        exact nomatch List.mem_singleton.1 wrong
      · cases wrong
      · exact reason (.inr (.inr reporting))
  | closeFails place =>
    exact ⟨shape, nofun, nofun, unsaid, shaped.pumpReason nofun⟩
  | quit place =>
    exact ⟨shape, nofun, nofun, unsaid, shaped.pumpReason nofun⟩

theorem Shaped.occur {event : PtyEvent} (shaped : socket.Shaped)
    (taken : socket.occur event = some after) : after.Shaped := by
  obtain ⟨shape, silent, saying, unsaid, reason⟩ := shaped
  rcases occur_cases taken with ⟨_, _, _, _, _, rfl⟩ | ⟨_, rfl⟩ | ⟨_, -, rfl⟩ | rfl
  all_goals exact ⟨shape, silent, saying, unsaid, reason⟩

/-! ### Runs -/

theorem Sound.next {action : PtyAction} (sound : socket.Sound)
    (taken : socket.next action = some after) : after.Sound := by
  obtain ⟨placed, fed, forwarded, shaped⟩ := sound
  cases action with
  | handler choice =>
    have move := stepHandler_move taken
    exact ⟨placed.handler move, fed.handler move, forwarded.handler placed shaped move,
      shaped.handler placed move⟩
  | pump choice =>
    have move := stepPump_move taken
    refine ⟨placed.pump move, ?_, forwarded.pump shaped move, shaped.pump placed move⟩
    cases move <;> exact fed
  | pinger choice =>
    have stays := placed.pinger taken
    obtain ⟨pinger, connOpen, rfl⟩ := stepPinger_frame taken
    exact ⟨stays, fed, ⟨forwarded.sent, forwarded.whole, forwarded.drained, forwarded.told⟩,
      ⟨shaped.shape, shaped.silent, shaped.saying, shaped.unsaid, shaped.reason⟩⟩
  | occur event =>
    exact ⟨placed.occur taken, fed.occur taken, forwarded.occur taken, shaped.occur taken⟩

end Steps

theorem sound_of_run {final : PtySocket} {actions : List PtyAction} {now : Int} {alive : Bool}
    (run : Run PtySocket.next anything (.upgraded now alive) actions final) : final.Sound :=
  run.invariant Sound (sound_upgraded now alive) fun _ _ _ sound _ taken => sound.next taken

end PtySocket

/-- What a PTY socket carries. The handler has done, in order, what the frames it read ask for,
up to the one it is about to do; only a write that broke off is done in part, and ends the
reading. The pump has sent a prefix of what was printed, and while it forwards, what it carries
and what it has not read are the rest. Binary frames come first, then at most one exit, then at
most one close; an exit follows a `has-session` that said the session is gone or could not run,
and while the PTY is open it follows everything that was printed. The handler and the pump never
write at once. -/
theorem pty_carries {final : PtySocket} {actions : List PtyAction} {now : Int} {alive : Bool}
    (run : Run PtySocket.next anything (.upgraded now alive) actions final) :
    (∃ read, final.arrived = read ++ final.inbound ∧
      (read.filterMap inputOf = final.inputs ++ final.handler.unread ∨
        final.handler.left = true ∧ ∃ before data count,
          read.filterMap inputOf = before ++ [.write data] ∧
          final.inputs = before ++ [.write (data.take count)])) ∧
    binaries final.sent <+: final.output ∧
    (final.pump.forwards = true →
      binaries final.sent ++ (final.pump.carried ++ final.printed) = final.output) ∧
    (∃ data, (∀ frame ∈ data, frame.isBinary = true) ∧
      (final.sent = data ∨ final.sent = data ++ [.exit] ∨ final.sent = data ++ [.close] ∨
        final.sent = data ++ [.exit, .close])) ∧
    (.exit ∈ final.sent → (final.gone = true ∨ final.misled = true) ∧
      (final.attached = true → binaries final.sent = final.output)) ∧
    ¬ (final.handler = .reporting ∧ final.pump.writes = true) := by
  obtain ⟨placed, fed, forwarded, shaped⟩ := PtySocket.sound_of_run run
  refine ⟨fed, forwarded.sent, forwarded.whole, shaped.shape,
    fun exits => ⟨?_, fun attached => ?_⟩, ?_⟩
  · exact shaped.reason (.inl exits)
  · exact (forwarded.told (.inl exits) attached).2
  · rintro ⟨reporting, writes⟩
    have absent := placed.absent (by rw [reporting]; rfl)
    rw [absent] at writes
    cases writes

/-! ### How the handler ends -/

/-- It is in its deferred calls, or through with them. -/
def PtyHandler.defers : PtyHandler → Bool
  | .deferredClose => true
  | .stoppingPing => true
  | .unregistering => true
  | .closingConn => true
  | .returned => true
  | _ => false

/-- A step of one of the three goroutines. -/
def PtyAction.own : PtyAction → Bool
  | .occur _ => false
  | _ => true

namespace PtySocket

/-- The goroutines alone lead there. -/
def Reaches (socket final : PtySocket) : Prop :=
  ∃ actions, (∀ action ∈ actions, action.own = true) ∧
    Run PtySocket.next anything socket actions final

/-- The goroutines alone bring the handler to its return. -/
def Ends (socket : PtySocket) : Prop := ∃ final, socket.Reaches final ∧ final.handler = .returned

/-- The read of the socket fails. -/
def Lost (socket : PtySocket) : Prop :=
  socket.broken = true ∨ socket.connOpen = false ∨ socket.deadline ≤ socket.now

variable {socket after : PtySocket}

theorem Reaches.step {action : PtyAction} (own : action.own = true)
    (taken : socket.next action = some after) : socket.Reaches after :=
  ⟨[action], fun _ member => List.mem_singleton.1 member ▸ own, Run.nil.snoc trivial taken⟩

theorem Reaches.trans {final : PtySocket} (first : socket.Reaches after)
    (second : after.Reaches final) : socket.Reaches final := by
  obtain ⟨before, own, run⟩ := first
  obtain ⟨rest, others, onward⟩ := second
  exact ⟨before ++ rest, fun action member => (List.mem_append.1 member).elim (own action)
    (others action), run.append onward⟩

theorem Reaches.ends (reaches : socket.Reaches after) (ends : after.Ends) : socket.Ends :=
  ends.imp fun _ about => ⟨reaches.trans about.1, about.2⟩

theorem Sound.reaches (sound : socket.Sound) (reaches : socket.Reaches after) : after.Sound := by
  obtain ⟨actions, -, run⟩ := reaches
  exact run.invariant Sound sound fun _ _ _ sound _ taken => sound.next taken

/-- The deferred calls wait for nobody. -/
theorem ends_deferred (deferred : socket.handler.defers = true) : socket.Ends := by
  obtain ⟨count, final, computed, returned⟩ : ∃ count final,
      exec PtySocket.next socket (List.replicate count (.handler .ok)) = some final ∧
        final.handler = .returned := by
    cases socket
    dsimp only at deferred
    unfold PtyHandler.defers at deferred
    split at deferred
    · exact ⟨4, _, rfl, rfl⟩
    · exact ⟨3, _, rfl, rfl⟩
    · exact ⟨2, _, rfl, rfl⟩
    · exact ⟨1, _, rfl, rfl⟩
    · exact ⟨0, _, rfl, rfl⟩
    · cases deferred
  refine ⟨final, ⟨_, fun action member => ?_, Run.of_exec_anything computed⟩, returned⟩
  rw [List.eq_of_mem_replicate member]
  rfl

/-- A ping that is not written in time closes the socket, so no write blocks for good. -/
theorem reaches_unblocked (sound : socket.Sound) (later : socket.handler ≠ .registering)
    (going : socket.stop = false) :
    ∃ pinger connOpen, socket.Reaches { socket with pinger, connOpen } ∧
      (connOpen = false ∨ connOpen = true ∧ socket.stalled = false) := by
  by_cases blocked : socket.connOpen = true ∧ socket.stalled = true
  · obtain ⟨opened, stalls⟩ := blocked
    have closes : ∀ middle : PtySocket, middle.pinger = .quitting →
        middle.Reaches { middle with pinger := .stopped, connOpen := false } := by
      intro middle place
      have step : middle.next (.pinger .ok) =
          some { middle with pinger := .stopped, connOpen := false } := by
        show middle.stepPinger .ok = _
        rw [stepPinger, place]
      exact .step rfl step
    refine ⟨.stopped, false, ?_, .inl rfl⟩
    rcases sound.placed.pinging later going with waiting | quitting | ⟨-, closed⟩
    · have step : socket.next (.pinger .fails) = some { socket with pinger := .quitting } := by
        show socket.stepPinger .fails = _
        rw [stepPinger, waiting]
        simp [stalls]
      exact (Reaches.step rfl step).trans (closes _ rfl)
    · exact closes socket quitting
    · exact absurd (opened.symm.trans closed) nofun
  · refine ⟨socket.pinger, socket.connOpen, ⟨[], nofun, .nil⟩, ?_⟩
    cases opened : socket.connOpen with
    | false => exact .inl rfl
    | true => exact .inr ⟨rfl, Bool.eq_false_iff.2 fun stalls => blocked ⟨opened, stalls⟩⟩

/-- A message is written, or the write fails. -/
theorem exists_writeMessage (socket : PtySocket) (frame : DaemonFrame)
    (free : socket.connOpen = false ∨ socket.connOpen = true ∧ socket.stalled = false) :
    ∃ choice sent, socket.writeMessage frame choice = some { socket with sent } := by
  rcases free with closed | ⟨opened, reads⟩
  · refine ⟨.fails, socket.sent, ?_⟩
    exact if_pos (by rw [closed]; rfl)
  · refine ⟨.ok, socket.sent ++ [frame], ?_⟩
    exact if_pos (by rw [opened, reads]; rfl)

/-! ### The pump ends once the PTY is closed -/

/-- The handler waits for the pump, and tmux answers. -/
structure Waits (socket : PtySocket) : Prop where
  sound : socket.Sound
  place : socket.handler = .awaitingPump
  answers : socket.hung = false

theorem Waits.pumped (waits : socket.Waits) {choice : PtyChoice}
    (taken : socket.next (.pump choice) = some after) (same : after.handler = socket.handler)
    (answers : after.hung = socket.hung) : after.Waits :=
  ⟨waits.sound.next taken, same.trans waits.place, answers.trans waits.answers⟩

theorem ends_done (waits : socket.Waits) (place : socket.pump = .done) : socket.Ends := by
  have step : socket.next (.handler .ok) = some { socket with handler := .deferredClose } := by
    show socket.stepHandler .ok = _
    unfold stepHandler
    rw [waits.place]
    exact if_pos place
  exact (Reaches.step rfl step).ends (ends_deferred rfl)

theorem ends_quitting (waits : socket.Waits) (place : socket.pump = .quitting) : socket.Ends := by
  have step : socket.next (.pump .ok) = some { socket with connOpen := false, pump := .done } := by
    show socket.stepPump .ok = _
    unfold stepPump
    rw [place]
  exact (Reaches.step rfl step).ends (ends_done (waits.pumped step rfl rfl) rfl)

theorem ends_sayingClose (waits : socket.Waits) (place : socket.pump = .sayingClose) :
    socket.Ends := by
  by_cases free : (socket.connOpen && !socket.stalled) = true
  · have step : socket.next (.pump .ok) =
        some { socket with sent := socket.sent ++ [.close], pump := .quitting } := by
      show socket.stepPump .ok = _
      unfold stepPump
      rw [place]
      exact if_pos free
    exact (Reaches.step rfl step).ends (ends_quitting (waits.pumped step rfl rfl) rfl)
  · have fails : (!socket.connOpen || socket.broken || socket.stalled) = true := by
      cases opened : socket.connOpen with
      | false => rfl
      | true =>
        cases stalls : socket.stalled with
        | false => exact absurd (by rw [opened, stalls]; rfl) free
        | true => exact Bool.or_true _
    have step : socket.next (.pump .fails) = some { socket with pump := .quitting } := by
      show socket.stepPump .fails = _
      unfold stepPump
      rw [place]
      exact if_pos fails
    exact (Reaches.step rfl step).ends (ends_quitting (waits.pumped step rfl rfl) rfl)

/-- A place of the pump from which it writes. -/
theorem Waits.unblock (waits : socket.Waits) :
    ∃ pinger connOpen, socket.Reaches { socket with pinger, connOpen } ∧
      Waits { socket with pinger, connOpen } ∧
      (connOpen = false ∨ connOpen = true ∧ socket.stalled = false) := by
  have going : socket.stop = false := by rw [waits.sound.placed.stop, waits.place]; rfl
  obtain ⟨pinger, connOpen, reaches, free⟩ :=
    reaches_unblocked waits.sound (fun early => nomatch waits.place.symm.trans early) going
  exact ⟨pinger, connOpen, reaches, ⟨waits.sound.reaches reaches, waits.place, waits.answers⟩, free⟩

theorem ends_reporting (waits : socket.Waits) (place : socket.pump = .reporting) : socket.Ends := by
  obtain ⟨pinger, connOpen, reaches, still, free⟩ := waits.unblock
  refine reaches.ends ?_
  generalize whole : { socket with pinger, connOpen } = middle at still
  have there : middle.pump = .reporting := whole ▸ place
  obtain ⟨choice, sent, wrote⟩ := exists_writeMessage middle .exit (whole ▸ free)
  have step : middle.next (.pump choice) = some { middle with sent, pump := .sayingClose } := by
    show middle.stepPump choice = _
    unfold stepPump
    rw [there]
    show (middle.writeMessage .exit choice).map _ = _
    rw [wrote]
    rfl
  exact (Reaches.step rfl step).ends (ends_sayingClose (still.pumped step rfl rfl) rfl)

theorem ends_checking (waits : socket.Waits) (place : socket.pump = .checking) : socket.Ends := by
  have step : socket.next (.pump .ok) = some { socket with
      gone := socket.gone || !socket.alive
      pump := if socket.alive then .sayingClose else .reporting } := by
    show socket.stepPump .ok = _
    unfold stepPump
    rw [place]
    show (socket.isAlive .ok).map _ = _
    rw [socket.isAlive_ok waits.answers]
    rfl
  refine (Reaches.step rfl step).ends ?_
  have still := waits.pumped step rfl rfl
  by_cases alive : socket.alive = true
  · exact ends_sayingClose still (if_pos alive)
  · exact ends_reporting still (if_neg alive)

theorem ends_pumpReading (waits : socket.Waits) (place : socket.pump = .reading) : socket.Ends := by
  have closed : socket.attached = false := by rw [waits.sound.placed.attached, waits.place]; rfl
  have step : socket.next (.pump .fails) = some { socket with pump := .checking } := by
    show socket.stepPump .fails = _
    unfold stepPump
    rw [place]
    simp [closed]
  exact (Reaches.step rfl step).ends (ends_checking (waits.pumped step rfl rfl) rfl)

theorem ends_writing {data : Bytes} {last : Bool} (waits : socket.Waits)
    (place : socket.pump = .writing data last) : socket.Ends := by
  obtain ⟨pinger, connOpen, reaches, still, free⟩ := waits.unblock
  refine reaches.ends ?_
  generalize whole : { socket with pinger, connOpen } = middle at still
  have there : middle.pump = .writing data last := whole ▸ place
  obtain ⟨choice, sent, wrote⟩ :=
    exists_writeMessage middle (.binary data) (whole ▸ free)
  have step : middle.next (.pump choice) = some { middle with
      sent
      pump := if choice = .fails then .quitting else if last then .checking else .reading } := by
    show middle.stepPump choice = _
    unfold stepPump
    rw [there]
    show (middle.writeMessage (.binary data) choice).map _ = _
    rw [wrote]
    rfl
  refine (Reaches.step rfl step).ends ?_
  have next := still.pumped step rfl rfl
  by_cases failed : choice = .fails
  · exact ends_quitting next (if_pos failed)
  · cases last with
    | true => exact ends_checking next (if_neg failed)
    | false => exact ends_pumpReading next (if_neg failed)

theorem ends_awaitingPump (waits : socket.Waits) : socket.Ends := by
  cases place : socket.pump with
  | absent => exact absurd place (waits.sound.placed.pumping (by rw [waits.place]; rfl))
  | reading => exact ends_pumpReading waits place
  | writing data last => exact ends_writing waits place
  | checking => exact ends_checking waits place
  | reporting => exact ends_reporting waits place
  | sayingClose => exact ends_sayingClose waits place
  | quitting => exact ends_quitting waits place
  | done => exact ends_done waits place

/-! ### The handler ends once its read fails -/

theorem ends_closingPty (sound : socket.Sound) (answers : socket.hung = false)
    (place : socket.handler = .closingPty) : socket.Ends := by
  have step : socket.next (.handler .ok) =
      some { socket with attached := false, handler := .awaitingPump } := by
    show socket.stepHandler .ok = _
    unfold stepHandler
    rw [place]
  exact (Reaches.step rfl step).ends (ends_awaitingPump ⟨sound.next step, rfl, answers⟩)

theorem ends_reading (sound : socket.Sound) (answers : socket.hung = false)
    (lost : socket.Lost) (place : socket.handler = .reading) : socket.Ends := by
  have fails : (!socket.connOpen || socket.broken || decide (socket.deadline ≤ socket.now)) =
      true := by
    rcases lost with broken | closed | late
    · rw [broken, Bool.or_true, Bool.true_or]
    · rw [closed]
      rfl
    · rw [decide_eq_true late, Bool.or_true]
  have step : socket.next (.handler .fails) = some { socket with handler := .closingPty } := by
    show socket.stepHandler .fails = _
    unfold stepHandler
    rw [place]
    exact if_pos fails
  exact (Reaches.step rfl step).ends (ends_closingPty (sound.next step) answers rfl)

/-- The attach failed: the handler may report that the session is gone. -/
theorem ends_handlerReporting (sound : socket.Sound) (place : socket.handler = .reporting) :
    socket.Ends := by
  have going : socket.stop = false := by rw [sound.placed.stop, place]; rfl
  obtain ⟨pinger, connOpen, reaches, free⟩ :=
    reaches_unblocked sound (fun early => nomatch place.symm.trans early) going
  refine reaches.ends ?_
  generalize whole : { socket with pinger, connOpen } = middle
  have there : middle.handler = .reporting := whole ▸ place
  obtain ⟨choice, sent, wrote⟩ := exists_writeMessage middle .exit (whole ▸ free)
  have step : middle.next (.handler choice) =
      some { middle with sent, handler := .stoppingPing } := by
    show middle.stepHandler choice = _
    unfold stepHandler
    rw [there]
    show (middle.writeMessage .exit choice).map _ = _
    rw [wrote]
    rfl
  exact (Reaches.step rfl step).ends (ends_deferred rfl)

theorem ends_handlerChecking (sound : socket.Sound) (answers : socket.hung = false)
    (place : socket.handler = .checking) : socket.Ends := by
  have step : socket.next (.handler .ok) = some { socket with
      gone := socket.gone || !socket.alive
      handler := if socket.alive then .stoppingPing else .reporting } := by
    show socket.stepHandler .ok = _
    unfold stepHandler
    rw [place]
    show (socket.isAlive .ok).map _ = _
    rw [socket.isAlive_ok answers]
    rfl
  refine (Reaches.step rfl step).ends ?_
  by_cases alive : socket.alive = true
  · exact ends_deferred (by rw [if_pos alive]; rfl)
  · exact ends_handlerReporting (sound.next step) (if_neg alive)

theorem ends_of_lost (sound : socket.Sound) (later : socket.handler ≠ .registering)
    (answers : socket.hung = false) (ending : socket.Lost ∨ socket.handler.left = true) :
    socket.Ends := by
  -- a place that has not left the read loop leaves it because the read fails
  have lost : socket.handler.left = false → socket.Lost := fun stays =>
    ending.resolve_right fun left => Bool.false_ne_true (stays.symm.trans left)
  cases place : socket.handler with
  | registering => exact absurd place later
  | attaching =>
    have step : socket.next (.handler .ok) =
        some { socket with attached := true, pump := .reading, handler := .reading } := by
      show socket.stepHandler .ok = _
      unfold stepHandler
      rw [place]
      rfl
    exact (Reaches.step rfl step).ends
      (ends_reading (sound.next step) answers (lost (by rw [place]; rfl)) rfl)
  | checking => exact ends_handlerChecking sound answers place
  | reporting => exact ends_handlerReporting sound place
  | reading => exact ends_reading sound answers (lost (by rw [place]; rfl)) place
  | typing data =>
    have step : socket.next (.handler .ok) =
        some { socket with inputs := socket.inputs ++ [.write data], handler := .reading } := by
      show socket.stepHandler .ok = _
      unfold stepHandler
      rw [place]
      simp [answers]
    exact (Reaches.step rfl step).ends
      (ends_reading (sound.next step) answers (lost (by rw [place]; rfl)) rfl)
  | resizing cols rows active =>
    have step : socket.next (.handler .ok) = some { socket with
        inputs := socket.inputs ++ [.resize cols rows active], handler := .reading } := by
      show socket.stepHandler .ok = _
      unfold stepHandler
      rw [place]
      simp [answers]
    exact (Reaches.step rfl step).ends
      (ends_reading (sound.next step) answers (lost (by rw [place]; rfl)) rfl)
  | closingPty => exact ends_closingPty sound answers place
  | awaitingPump => exact ends_awaitingPump ⟨sound, place, answers⟩
  | deferredClose | stoppingPing | unregistering | closingConn | returned =>
    exact ends_deferred (by rw [place]; rfl)

end PtySocket

/-- As long as tmux answers, a browser that is gone, or that nothing was read from for `pongWait`,
holds nothing for good: whatever else is the case, its goroutines alone can bring the handler to
its return, where the connection is not registered, the PTY and the socket are closed, the pump
does not run and the pinger is told to stop. So they can once the read loop is left for another
reason. -/
theorem pty_returns {final : PtySocket} {actions : List PtyAction} {now : Int} {alive : Bool}
    (run : Run PtySocket.next anything (.upgraded now alive) actions final)
    (later : final.handler ≠ .registering) (answers : final.hung = false)
    (ending : final.broken = true ∨ final.connOpen = false ∨ final.heard + pongWait ≤ final.now ∨
      final.handler.left = true) :
    ∃ after, final.Reaches after ∧ after.handler = .returned ∧ after.registered = false ∧
      after.attached = false ∧ after.connOpen = false ∧ after.stop = true ∧
      (after.pump = .absent ∨ after.pump = .done) := by
  have sound := PtySocket.sound_of_run run
  have deadline := sound.placed.deadline later
  have ends : final.Ends := by
    refine PtySocket.ends_of_lost sound later answers ?_
    rcases ending with broken | closed | late | left
    · exact .inl (.inl broken)
    · exact .inl (.inr (.inl closed))
    · exact .inl (.inr (.inr (deadline ▸ late)))
    · exact .inr left
  obtain ⟨after, reaches, returned⟩ := ends
  obtain ⟨registered, attached, stop, -, -, finished, closed, -, -⟩ :=
    (sound.reaches reaches).placed
  rw [returned] at registered attached stop finished
  exact ⟨after, reaches, returned, registered, attached, closed returned, stop, finished rfl rfl⟩

/-! ### A connection that is kept up -/

/-- What the handler calls there may fail. -/
def PtyHandler.mayFail : PtyHandler → Bool
  | .attaching | .typing _ => true
  | _ => false

/-- It serves the browser, or is about to. -/
def PtyHandler.serves : PtyHandler → Bool
  | .registering | .attaching | .reading | .typing _ | .resizing _ _ _ => true
  | _ => false

theorem PtyHandler.serving {handler : PtyHandler} (serves : handler.serves = true) :
    handler.stops = false ∧ handler.left = false := by
  cases handler with
  | registering | attaching | reading | typing | resizing => exact ⟨rfl, rfl⟩
  | _ => cases serves

theorem PtyHandler.attaches_of_serves {handler : PtyHandler} (serves : handler.serves = true)
    (started : handler.starts = false) : handler.attaches = true := by
  cases handler with
  | reading | typing | resizing => rfl
  | registering | attaching => cases started
  | _ => cases serves

namespace PtySocket

/-- Nothing fails, the browser stays and reads, the attached client goes on, and time never
passes the deadline. -/
def Healthy (socket : PtySocket) : PtyAction → Prop
  | .handler choice => socket.handler.mayFail = true → choice = .ok
  | .occur (.wait duration) =>
    socket.handler = .registering ∨ socket.now + duration < socket.deadline
  | .occur .stalls | .occur .leaves | .occur .detaches => False
  | _ => True

instance Healthy.decidable (socket : PtySocket) (action : PtyAction) :
    Decidable (socket.Healthy action) := by
  unfold Healthy
  split <;> infer_instance

/-- The connection is up, and each goroutine does what it is there for. -/
structure Up (socket : PtySocket) : Prop where
  opened : socket.connOpen = true
  whole : socket.broken = false
  reads : socket.stalled = false
  runs : socket.ended = false
  prompt : socket.handler ≠ .registering → socket.now < socket.deadline
  serves : socket.handler.serves = true
  pump : socket.pump = .absent ∨ socket.pump = .reading ∨ ∃ data, socket.pump = .writing data false
  pinger : socket.pinger = .absent ∨ socket.pinger = .waiting

section Up

variable {socket after : PtySocket} {choice : PtyChoice}

theorem lt_add_pongWait (now : Int) : now < now + pongWait :=
  Int.lt_add_of_pos_right now (by decide)

theorem afterRead_serves (frame : BrowserFrame) : (afterRead frame).serves = true := by
  rcases afterRead_place frame with reading | ⟨data, typing⟩ | ⟨cols, rows, active, resizing⟩
  · rw [reading]
    rfl
  · rw [typing]
    rfl
  · rw [resizing]
    rfl

theorem Up.handler (up : socket.Up) (healthy : socket.handler.mayFail = true → choice = .ok)
    (taken : socket.stepHandler choice = some after) : after.Up := by
  obtain ⟨opened, whole, reads, runs, prompt, serves, pump, pinger⟩ := up
  unfold stepHandler at taken
  cases place : socket.handler with
  | registering =>
    rw [place] at taken
    cases taken
    exact ⟨opened, whole, reads, runs, fun _ => lt_add_pongWait _, rfl, pump, .inr rfl⟩
  | attaching =>
    rw [place] at taken healthy
    cases healthy rfl
    cases taken
    exact ⟨opened, whole, reads, runs, fun _ => prompt (by rw [place]; exact nofun), rfl,
      .inr (.inl rfl), pinger⟩
  | reading =>
    rw [place] at taken
    have current := prompt (by rw [place]; exact nofun)
    cases choice with
    | ok =>
      obtain ⟨frame, -, rfl⟩ := Option.map_eq_some_iff.mp taken
      exact ⟨opened, whole, reads, runs, fun _ => lt_add_pongWait _, afterRead_serves frame, pump,
        pinger⟩
    | fails =>
      have cannot : ¬ (!socket.connOpen || socket.broken ||
          decide (socket.deadline ≤ socket.now)) = true := by
        rw [opened, whole, decide_eq_false (Int.not_le.2 current)]
        exact nofun
      exact absurd ((if_neg cannot).symm.trans taken) nofun
    | breaks | reads | stops => cases taken
  | typing data =>
    rw [place] at taken healthy
    cases healthy rfl
    obtain ⟨-, rfl⟩ := (Option.ite_none_left_eq_some.1 taken).imp_right Option.some.inj
    exact ⟨opened, whole, reads, runs, fun _ => prompt (by rw [place]; exact nofun), rfl, pump,
      pinger⟩
  | resizing cols rows active =>
    rw [place] at taken
    obtain ⟨-, rfl⟩ := (Option.ite_none_left_eq_some.1 taken).imp_right Option.some.inj
    exact ⟨opened, whole, reads, runs, fun _ => prompt (by rw [place]; exact nofun), rfl, pump,
      pinger⟩
  | checking | reporting | closingPty | awaitingPump | deferredClose | stoppingPing
  | unregistering | closingConn | returned =>
    rw [place] at serves
    cases serves

theorem Up.pumped (up : socket.Up) (placed : socket.Placed)
    (taken : socket.stepPump choice = some after) : after.Up := by
  obtain ⟨opened, whole, reads, runs, prompt, serves, pump, pinger⟩ := up
  unfold stepPump at taken
  rcases pump with absent | reading | ⟨data, writing⟩
  · rw [absent] at taken
    cases taken
  · rw [reading] at taken
    have busy := placed.busy (by rw [reading]; exact nofun) (by rw [reading]; exact nofun)
    have attached : socket.attached = true :=
      placed.attached.trans (PtyHandler.attaches_of_serves serves busy.1)
    cases choice with
    | reads count last =>
      obtain ⟨possible, rfl⟩ := (Option.ite_none_right_eq_some.1 taken).imp_right Option.some.inj
      rw [runs, Bool.false_and, Bool.or_false] at possible
      have goes := (Bool.and_eq_true_iff.1 possible).2
      cases last with
      | true => cases goes
      | false => exact ⟨opened, whole, reads, runs, prompt, serves, .inr (.inr ⟨_, rfl⟩), pinger⟩
    | fails =>
      obtain ⟨possible, -⟩ := Option.ite_none_right_eq_some.1 taken
      rw [attached, runs] at possible
      cases possible
    | ok | breaks | stops => cases taken
  · rw [writing] at taken
    obtain ⟨written, wrote, rfl⟩ := Option.map_eq_some_iff.mp taken
    rcases writeMessage_eq_some wrote with ⟨rfl, -, -, rfl⟩ | ⟨-, lost, -⟩
    · exact ⟨opened, whole, reads, runs, prompt, serves, .inr (.inl rfl), pinger⟩
    · rcases lost with closed | broken
      · exact absurd (opened.symm.trans closed) nofun
      · exact absurd (whole.symm.trans broken) nofun

theorem Up.pinged (up : socket.Up) (placed : socket.Placed)
    (taken : socket.stepPinger choice = some after) : after.Up := by
  have up' := up
  obtain ⟨opened, whole, reads, runs, prompt, serves, pump, pinger⟩ := up
  have going : socket.stop = false :=
    placed.stop.trans (PtyHandler.serving serves).1
  unfold stepPinger at taken
  rcases pinger with absent | waiting
  · rw [absent] at taken
    cases taken
  · rw [waiting] at taken
    cases choice with
    | ok =>
      obtain ⟨-, same⟩ := Option.ite_none_right_eq_some.1 taken
      cases same
      exact up'
    | fails =>
      obtain ⟨lost, -⟩ := Option.ite_none_right_eq_some.1 taken
      rw [opened, whole, reads] at lost
      cases lost
    | stops =>
      obtain ⟨stopped, -⟩ := Option.ite_none_right_eq_some.1 taken
      exact absurd (going.symm.trans stopped) nofun
    | breaks | reads => cases taken

theorem Up.occurs {event : PtyEvent} (up : socket.Up) (healthy : socket.Healthy (.occur event))
    (taken : socket.occur event = some after) : after.Up := by
  obtain ⟨opened, whole, reads, runs, prompt, serves, pump, pinger⟩ := up
  cases event with
  | wait duration =>
    cases taken
    refine ⟨opened, whole, reads, runs, fun later => ?_, serves, pump, pinger⟩
    exact healthy.resolve_left later
  | sends frame =>
    obtain ⟨-, rfl⟩ := (Option.ite_none_left_eq_some.1 taken).imp_right Option.some.inj
    exact ⟨opened, whole, reads, runs, prompt, serves, pump, pinger⟩
  | prints data =>
    obtain ⟨-, rfl⟩ := (Option.ite_none_right_eq_some.1 taken).imp_right Option.some.inj
    exact ⟨opened, whole, reads, runs, prompt, serves, pump, pinger⟩
  | resumes =>
    cases taken
    exact ⟨opened, whole, rfl, runs, prompt, serves, pump, pinger⟩
  | sessionEnds | hangs | answers =>
    cases taken
    exact ⟨opened, whole, reads, runs, prompt, serves, pump, pinger⟩
  | stalls | leaves | detaches => exact healthy.elim

end Up

end PtySocket

/-- A connection is only given up for a cause. While nothing fails, the browser stays and reads,
the attached client goes on and something is read from the browser within each `pongWait`, the
handler serves and the socket is open; what the frames that were read ask for is done up to the
one in hand, and what was printed is sent up to what the pump has in hand. -/
theorem pty_stays_up {final : PtySocket} {actions : List PtyAction} {now : Int} {alive : Bool}
    (run : Run PtySocket.next PtySocket.Healthy (.upgraded now alive) actions final) :
    final.connOpen = true ∧ final.handler.serves = true ∧
    (∃ read, final.arrived = read ++ final.inbound ∧
      read.filterMap inputOf = final.inputs ++ final.handler.unread) ∧
    binaries final.sent ++ (final.pump.carried ++ final.printed) = final.output := by
  have up : final.Sound ∧ final.Up := by
    refine run.invariant (fun socket => socket.Sound ∧ socket.Up)
      ⟨PtySocket.sound_upgraded now alive, ⟨rfl, rfl, rfl, rfl, fun later => absurd rfl later, rfl,
        .inl rfl, .inl rfl⟩⟩ ?_
    rintro socket action after ⟨sound, up⟩ healthy taken
    refine ⟨sound.next taken, ?_⟩
    cases action with
    | handler choice => exact up.handler healthy taken
    | pump choice => exact up.pumped sound.placed taken
    | pinger choice => exact up.pinged sound.placed taken
    | occur event => exact up.occurs healthy taken
  obtain ⟨sound, opened, -, -, -, -, serves, pump, -⟩ := up
  refine ⟨opened, serves, sound.fed.done ?_, sound.forwarded.whole ?_⟩
  · exact (PtyHandler.serving serves).2
  · rcases pump with absent | reading | ⟨data, writing⟩
    · rw [absent]
      rfl
    · rw [reading]
      rfl
    · rw [writing]
      rfl

/-! ### Runs of one connection -/

/-- The browser types a byte and the client prints two; then the session ends. -/
def typedThenExited : List PtyAction :=
  [.handler .ok, .handler .ok, .occur (.sends (.binary [108])), .occur (.prints [36, 32]),
    .handler .ok, .pump (.reads 2 false), .handler .ok, .pump .ok, .occur .sessionEnds,
    .occur .detaches, .pump .fails, .pump .ok, .pump .ok, .pump .ok, .pump .ok]

theorem pty_carries_typedThenExited :
    ∃ final : PtySocket, final.sent = [.binary [36, 32], .exit, .close] ∧
      final.inputs = [.write [108]] ∧ binaries final.sent <+: final.output ∧
      (.exit ∈ final.sent → final.gone = true ∨ final.misled = true) := by
  obtain ⟨final, done, sent⟩ := exists_of_exec PtySocket.next (.upgraded 0 true) typedThenExited
    (fun socket => socket.sent = [.binary [36, 32], .exit, .close] ∧
      socket.inputs = [.write [108]]) rfl
  obtain ⟨same, inputs⟩ := of_decide_eq_true sent
  have carries := pty_carries (Run.of_exec_anything done)
  exact ⟨final, same, inputs, carries.2.1, fun exits => (carries.2.2.2.2.1 exits).1⟩

/-- The browser types a byte, reads no more and falls silent, while tmux hangs and answers
again. -/
def silentBrowser : List PtyAction :=
  [.handler .ok, .handler .ok, .occur (.prints [36, 32]), .pump (.reads 2 false),
    .occur (.sends (.binary [108])), .occur .stalls, .handler .ok, .occur .hangs,
    .occur (.wait 75000000000), .occur .answers]

theorem pty_returns_silentBrowser :
    ∃ final after : PtySocket, final.registered = true ∧ final.handler = .typing [108] ∧
      final.Reaches after ∧ after.handler = .returned ∧ after.registered = false := by
  obtain ⟨final, done, stands⟩ := exists_of_exec PtySocket.next (.upgraded 0 true) silentBrowser
    (fun socket => socket.registered = true ∧ socket.handler = .typing [108] ∧
      socket.hung = false ∧ socket.heard + pongWait ≤ socket.now) rfl
  obtain ⟨registered, typing, answers, late⟩ := of_decide_eq_true stands
  obtain ⟨after, reaches, returned, unregistered, -⟩ := pty_returns (Run.of_exec_anything done)
    (by rw [typing]; exact nofun) answers (.inr (.inr (.inl late)))
  exact ⟨final, after, registered, typing, reaches, returned, unregistered⟩

/-- The browser answers a ping shortly before its deadline. -/
def answeredPing : List PtyAction :=
  [.handler .ok, .handler .ok, .occur (.wait 74000000000), .pinger .ok, .occur (.sends .pong),
    .handler .ok, .occur (.wait 74000000000), .occur (.prints [36, 32])]

theorem pty_stays_up_answeredPing :
    ∃ final : PtySocket, final.now = 148000000000 ∧ final.connOpen = true ∧
      final.handler.serves = true ∧
      binaries final.sent ++ (final.pump.carried ++ final.printed) = final.output := by
  obtain ⟨final, done, passed⟩ := exists_of_exec PtySocket.next (.upgraded 0 true) answeredPing
    (fun socket => socket.now = 148000000000) rfl
  have up := pty_stays_up (Run.of_exec done (by decide) : Run _ PtySocket.Healthy _ _ _)
  exact ⟨final, of_decide_eq_true passed, up.1, up.2.1, up.2.2.2⟩

end Multimux
