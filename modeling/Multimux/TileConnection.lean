/-
This file proves that a tile's connection is neither lost nor doubled. A run of
the effect that is not over waits for exactly one thing: its only socket, one
lookup or one timer; what the tile shows says which. Earlier runs are over and
change nothing. The tiles share their lookups: while a request for a server is
in flight there is no other, and what a tile is told was asked for no earlier
than its socket closed.
-/

import Multimux.TerminalTile

namespace Multimux

/-! ### Where a run of the effect stands -/

namespace TerminalEffect

variable {effect : TerminalEffect} {event : TileEvent} {reaction : Reaction} {state : ConnState}

/-- The run is over: it waits for no timer, and its sockets are closed or about to be. -/
structure Ended (effect : TerminalEffect) : Prop where
  closed : effect.closed = true
  timers : effect.timers = []
  quiet : ∀ socket ∈ effect.sockets,
    socket.readyState = .closing ∨ socket.readyState = .closed

/-- Where a run stands, with what its tile shows: it has its one socket, it asks why that
closed, it waits to open the next one, or it is finished. -/
inductive Phase (effect : TerminalEffect) : ConnState → Prop
  | linked {index : Nat} {socket : Socket} (running : effect.closed = false)
    (current : effect.ws = some index) (there : effect.sockets[index]? = some socket)
    (live : socket.live = true)
    (others : ∀ (place : Nat) (other : Socket), effect.sockets[place]? = some other →
      place ≠ index → other.readyState = .closed)
    (timers : effect.timers = []) (awaiting : effect.awaiting = []) :
    Phase effect (if socket.opened then .opened else .connecting)
  | asking {lookup : Nat} (running : effect.closed = false)
    (dead : ∀ socket ∈ effect.sockets, socket.readyState = .closed)
    (timers : effect.timers = []) (awaiting : effect.awaiting = [lookup]) :
    Phase effect .offline
  | waiting {id : Nat} (running : effect.closed = false)
    (dead : ∀ socket ∈ effect.sockets, socket.readyState = .closed)
    (timers : effect.timers = [id]) (set : effect.reconnectTimeoutId = some id)
    (awaiting : effect.awaiting = []) : Phase effect .offline
  | finished {state : ConnState} (ended : effect.Ended) (final : state.final = true) :
    Phase effect state

/-- The delay of the next reconnect is within its bounds. -/
def Bounded (effect : TerminalEffect) : Prop := 500 ≤ effect.backoff ∧ effect.backoff ≤ 10000

/-! ### Callbacks -/

theorem getElem?_setSocket_self {index : Nat} {change : Socket → Socket} {socket : Socket}
    (there : effect.sockets[index]? = some socket) :
    (effect.setSocket index change).sockets[index]? = some (change socket) := by
  simp [setSocket, there]

theorem deliver_cases {index : Nat} {admits : ReadyState → Bool} {change : Socket → Socket}
    {heard : Socket → Bool} {handler : TerminalEffect → Reaction}
    (delivered : effect.deliver index admits change heard handler = some reaction) :
    ∃ socket, effect.sockets[index]? = some socket ∧ admits socket.readyState = true ∧
      reaction = if heard socket then handler (effect.setSocket index change)
        else ⟨effect.setSocket index change, none, false⟩ := by
  unfold deliver at delivered
  split at delivered
  · rename_i socket there
    split at delivered
    · rename_i admitted
      exact ⟨socket, there, admitted, (Option.some.inj delivered).symm⟩
    · cases delivered
  · cases delivered

/-- A change that reopens nothing leaves a run that is over as it is. -/
theorem Ended.setSocket (ended : effect.Ended) (index : Nat) {change : Socket → Socket}
    (closes : ∀ socket, (socket.readyState = .closing ∨ socket.readyState = .closed) →
      (change socket).readyState = .closing ∨ (change socket).readyState = .closed) :
    (effect.setSocket index change).Ended := by
  refine ⟨ended.closed, ended.timers, ?_⟩
  intro socket member
  obtain ⟨place, found⟩ := List.getElem?_of_mem member
  obtain ⟨old, there, rfl⟩ := getElem?_modify_cases found
  have quiet := ended.quiet old (List.mem_of_getElem? there)
  split
  · exact closes old quiet
  · exact quiet

/-- What a run that is over still hears of shows nothing and starts nothing. -/
theorem Ended.react (ended : effect.Ended) (reacted : effect.react event = some reaction) :
    reaction.effect.Ended ∧ reaction.shows = none ∧ reaction.asks = false ∧
      reaction.effect.backoff = effect.backoff := by
  have quiet : ∀ (index : Nat) (socket : Socket), effect.sockets[index]? = some socket →
      socket.readyState ≠ .connecting ∧ socket.readyState ≠ .opened := by
    intro index socket there
    rcases ended.quiet socket (List.mem_of_getElem? there) with closing | closed
    · rw [closing]
      exact ⟨nofun, nofun⟩
    · rw [closed]
      exact ⟨nofun, nofun⟩
  cases event with
  | opens index =>
    simp only [TerminalEffect.react] at reacted
    obtain ⟨socket, there, admitted, -⟩ := deliver_cases reacted
    exact absurd (of_decide_eq_true admitted) (quiet index socket there).1
  | binary index =>
    simp only [TerminalEffect.react] at reacted
    obtain ⟨socket, there, admitted, -⟩ := deliver_cases reacted
    exact absurd (of_decide_eq_true admitted) (quiet index socket there).2
  | text index type =>
    simp only [TerminalEffect.react] at reacted
    obtain ⟨socket, there, admitted, -⟩ := deliver_cases reacted
    exact absurd (of_decide_eq_true admitted) (quiet index socket there).2
  | closing index =>
    simp only [TerminalEffect.react] at reacted
    obtain ⟨socket, there, admitted, -⟩ := deliver_cases reacted
    rcases Bool.or_eq_true_iff.mp admitted with connecting | opened
    · exact absurd (of_decide_eq_true connecting) (quiet index socket there).1
    · exact absurd (of_decide_eq_true opened) (quiet index socket there).2
  | closes index =>
    simp only [TerminalEffect.react] at reacted
    obtain ⟨socket, there, admitted, rfl⟩ := deliver_cases reacted
    have still : (effect.setSocket index fun socket =>
        { socket with readyState := .closed }).Ended := ended.setSocket index fun _ _ => .inr rfl
    split
    · unfold onclose
      rw [if_pos still.closed]
      exact ⟨still, rfl, rfl, rfl⟩
    · exact ⟨still, rfl, rfl, rfl⟩
  | timeout id =>
    simp only [TerminalEffect.react, ended.timers, List.not_mem_nil, if_false] at reacted
    cases reacted
  | classified lookup kind =>
    simp only [TerminalEffect.react] at reacted
    split at reacted
    · cases reacted
      unfold classified
      rw [if_pos ended.closed]
      exact ⟨⟨ended.closed, ended.timers, ended.quiet⟩, rfl, rfl, rfl⟩
    · cases reacted

/-- The one socket of a run changes and stays alive. -/
theorem Phase.setSocket {index : Nat} {socket : Socket} (change : Socket → Socket)
    (running : effect.closed = false) (current : effect.ws = some index)
    (there : effect.sockets[index]? = some socket) (live : (change socket).live = true)
    (others : ∀ (place : Nat) (other : Socket), effect.sockets[place]? = some other →
      place ≠ index → other.readyState = .closed)
    (timers : effect.timers = []) (awaiting : effect.awaiting = []) :
    (effect.setSocket index change).Phase
      (if (change socket).opened then .opened else .connecting) := by
  refine .linked running current (getElem?_setSocket_self there) live ?_ timers awaiting
  intro place other found different
  obtain ⟨old, before, rfl⟩ := getElem?_modify_cases found
  rw [if_neg (Ne.symm different)]
  exact others place old before different

/-- The delay does not matter to where a run stands. -/
theorem Phase.setBackoff (phase : effect.Phase state) (backoff : Nat) :
    { effect with backoff }.Phase state := by
  cases phase with
  | linked running current there live others timers awaiting =>
    exact .linked running current there live others timers awaiting
  | asking running dead timers awaiting => exact .asking running dead timers awaiting
  | waiting running dead timers set awaiting => exact .waiting running dead timers set awaiting
  | finished ended final => exact .finished ⟨ended.closed, ended.timers, ended.quiet⟩ final

/-- All sockets are closed once the only one that was not is. -/
theorem closed_setSocket {index : Nat}
    (others : ∀ (place : Nat) (other : Socket), effect.sockets[place]? = some other →
      place ≠ index → other.readyState = .closed) {change : Socket → Socket}
    (closes : ∀ socket, (change socket).readyState = .closed) :
    ∀ socket ∈ (effect.setSocket index change).sockets, socket.readyState = .closed := by
  intro socket member
  obtain ⟨place, found⟩ := List.getElem?_of_mem member
  obtain ⟨old, there, rfl⟩ := getElem?_modify_cases found
  split
  · exact closes old
  · rename_i different
    exact others place old there (Ne.symm different)

theorem getElem?_of_dead (dead : ∀ socket ∈ effect.sockets, socket.readyState = .closed)
    {index : Nat} {socket : Socket} (there : effect.sockets[index]? = some socket) :
    socket.readyState = .closed :=
  dead socket (List.mem_of_getElem? there)

@[simp] theorem setSocket_closed (effect : TerminalEffect) (index : Nat)
    (change : Socket → Socket) : (effect.setSocket index change).closed = effect.closed := rfl

theorem setSocket_id (effect : TerminalEffect) (index : Nat) :
    effect.setSocket index id = effect := by
  simp [setSocket]

/-- Closing the only socket that is not closed leaves none in use. -/
theorem quiet_closing {index : Nat}
    (others : ∀ (place : Nat) (other : Socket), effect.sockets[place]? = some other →
      place ≠ index → other.readyState = .closed) {change : Socket → Socket}
    (closes : ∀ socket, (change socket).readyState = .closing ∨
      (change socket).readyState = .closed) :
    ∀ socket ∈ (effect.setSocket index change).sockets,
      socket.readyState = .closing ∨ socket.readyState = .closed := by
  intro socket member
  obtain ⟨place, found⟩ := List.getElem?_of_mem member
  obtain ⟨old, there, rfl⟩ := getElem?_modify_cases found
  split
  · exact closes old
  · rename_i different
    exact .inr (others place old there (Ne.symm different))

theorem closeSocket_closes (socket : Socket) :
    (Connection.closeSocket socket).readyState = .closing ∨
      (Connection.closeSocket socket).readyState = .closed := by
  unfold Connection.closeSocket
  split
  · rename_i closed
    exact .inr closed
  · exact .inl rfl

/-- A run whose sockets are all closed and that waits for no timer may end. -/
theorem Ended.of_dead (closed : effect.closed = true)
    (dead : ∀ socket ∈ effect.sockets, socket.readyState = .closed)
    (timers : effect.timers = []) : effect.Ended :=
  ⟨closed, timers, fun socket member => .inr (dead socket member)⟩

/-- After a callback a run stands where its tile shows; where it asks, with the lookup it is
given. -/
def Lands (reaction : Reaction) (state : ConnState) : Prop :=
  if reaction.asks then ∀ lookup, { reaction.effect with
      awaiting := reaction.effect.awaiting ++ [lookup] }.Phase (reaction.shows.getD state)
  else reaction.effect.Phase (reaction.shows.getD state)

/-- A callback of the one socket of a run. -/
theorem Phase.react_linked {index : Nat} {socket : Socket} (running : effect.closed = false)
    (current : effect.ws = some index) (there : effect.sockets[index]? = some socket)
    (live : socket.live = true)
    (others : ∀ (place : Nat) (other : Socket), effect.sockets[place]? = some other →
      place ≠ index → other.readyState = .closed)
    (timers : effect.timers = []) (awaiting : effect.awaiting = [])
    (reacted : effect.react event = some reaction) :
    Lands reaction (if socket.opened then .opened else .connecting) := by
  have only : ∀ (place : Nat) (other : Socket), effect.sockets[place]? = some other →
      other.readyState ≠ .closed → place = index ∧ other = socket := by
    intro place other found alive
    by_cases same : place = index
    · subst same
      exact ⟨rfl, (Option.some.inj (there.symm.trans found)).symm⟩
    · exact absurd (others place other found same) alive
  have owned : socket.owned = true := by
    simp only [Socket.live, Bool.and_eq_true] at live
    exact live.1
  cases event with
  | opens place =>
    simp only [TerminalEffect.react] at reacted
    obtain ⟨other, found, admitted, rfl⟩ := deliver_cases reacted
    obtain ⟨rfl, rfl⟩ := only place other found (by simp_all)
    have opened := Phase.setSocket
      (fun socket => { socket with readyState := .opened, opened := true }) running current there
      (by simp [Socket.live, owned]) others timers awaiting
    exact opened.setBackoff 500
  | binary place =>
    simp only [TerminalEffect.react] at reacted
    obtain ⟨other, found, admitted, rfl⟩ := deliver_cases reacted
    obtain ⟨rfl, rfl⟩ := only place other found (by simp_all)
    rw [if_pos owned, setSocket_id]
    exact .linked running current there live others timers awaiting
  | text place type =>
    simp only [TerminalEffect.react] at reacted
    obtain ⟨other, found, admitted, rfl⟩ := deliver_cases reacted
    obtain ⟨rfl, rfl⟩ := only place other found (by simp_all)
    rw [if_pos owned]
    rw [setSocket_id]
    unfold onmessage
    split
    · have closing : { effect with closed := true }.closeCurrent =
          { effect with closed := true }.setSocket place Connection.closeSocket := by
        simp only [closeCurrent, current]
      rw [closing]
      exact .finished ⟨rfl, timers, quiet_closing others closeSocket_closes⟩ rfl
    · exact .linked running current there live others timers awaiting
  | closing place =>
    simp only [TerminalEffect.react] at reacted
    obtain ⟨other, found, admitted, rfl⟩ := deliver_cases reacted
    obtain ⟨rfl, rfl⟩ := only place other found (by rintro closed; simp [closed] at admitted)
    exact Phase.setSocket (fun socket => { socket with readyState := .closing }) running current
      there (by simp [Socket.live, owned]) others timers awaiting
  | closes place =>
    simp only [TerminalEffect.react] at reacted
    obtain ⟨other, found, admitted, rfl⟩ := deliver_cases reacted
    obtain ⟨rfl, rfl⟩ := only place other found (by simpa using admitted)
    have dead : ∀ socket ∈ (effect.setSocket place fun socket =>
        { socket with readyState := .closed }).sockets, socket.readyState = .closed :=
      closed_setSocket others fun _ => rfl
    rw [if_pos owned]
    unfold onclose
    rw [setSocket_closed, if_neg (by simp [running])]
    intro lookup
    exact .asking running dead timers (show effect.awaiting ++ [lookup] = [lookup] by
      rw [awaiting]
      rfl)
  | timeout id =>
    simp only [TerminalEffect.react, timers, List.not_mem_nil, if_false] at reacted
    cases reacted
  | classified lookup kind =>
    simp only [TerminalEffect.react, awaiting, List.not_mem_nil, if_false] at reacted
    cases reacted

/-- Sockets that are closed are not heard of any more. -/
theorem react_dead (dead : ∀ socket ∈ effect.sockets, socket.readyState = .closed)
    (reacted : effect.react event = some reaction) :
    (∃ id, event = .timeout id) ∨ ∃ lookup kind, event = .classified lookup kind := by
  have refused : ∀ {index : Nat} {admits : ReadyState → Bool} {change : Socket → Socket}
      {heard : Socket → Bool} {handler : TerminalEffect → Reaction}, admits .closed = false →
      effect.deliver index admits change heard handler ≠ some reaction := by
    intro index admits change heard handler shut delivered
    obtain ⟨socket, there, admitted, -⟩ := deliver_cases delivered
    rw [dead socket (List.mem_of_getElem? there), shut] at admitted
    cases admitted
  cases event with
  | opens index =>
    simp only [TerminalEffect.react] at reacted
    exact (refused rfl reacted).elim
  | binary index =>
    simp only [TerminalEffect.react] at reacted
    exact (refused rfl reacted).elim
  | text index type =>
    simp only [TerminalEffect.react] at reacted
    exact (refused rfl reacted).elim
  | closing index =>
    simp only [TerminalEffect.react] at reacted
    exact (refused rfl reacted).elim
  | closes index =>
    simp only [TerminalEffect.react] at reacted
    exact (refused rfl reacted).elim
  | timeout id => exact .inl ⟨id, rfl⟩
  | classified lookup kind => exact .inr ⟨lookup, kind, rfl⟩

/-- A run that learns why its socket closed. -/
theorem Phase.classified (running : effect.closed = false)
    (dead : ∀ socket ∈ effect.sockets, socket.readyState = .closed)
    (timers : effect.timers = []) (awaiting : effect.awaiting = []) (kind : CloseKind) :
    Lands (effect.classified kind) .offline := by
  unfold TerminalEffect.classified
  rw [if_neg (by simp [running])]
  cases kind with
  | retry =>
    exact .waiting running dead (show effect.timers ++ [effect.nextTimer] = [effect.nextTimer] by
      rw [timers]
      rfl) rfl awaiting
  | exited => exact .finished (.of_dead rfl dead timers) rfl
  | missing => exact .finished (.of_dead rfl dead timers) rfl
  | auth => exact .finished (.of_dead rfl dead timers) rfl

/-- A run without a socket in use opens one. -/
theorem Phase.connect (running : effect.closed = false)
    (dead : ∀ socket ∈ effect.sockets, socket.readyState = .closed)
    (timers : effect.timers = []) (awaiting : effect.awaiting = []) (state : ConnState) :
    Lands effect.connect state := by
  unfold TerminalEffect.connect
  rw [if_neg (by simp [running])]
  have there : (effect.sockets ++ [(⟨.connecting, true, false⟩ : Socket)])[effect.sockets.length]? =
      some ⟨.connecting, true, false⟩ := by simp
  have others : ∀ (place : Nat) (other : Socket),
      (effect.sockets ++ [(⟨.connecting, true, false⟩ : Socket)])[place]? = some other →
      place ≠ effect.sockets.length → other.readyState = .closed := by
    intro place other found different
    rcases getElem?_concat_cases found with older | ⟨new, -⟩
    · exact getElem?_of_dead dead older
    · exact absurd new different
  exact @Phase.linked _ effect.sockets.length ⟨.connecting, true, false⟩ running rfl there rfl
    others timers awaiting

/-- A callback of a run leads to where its tile shows then. -/
theorem Phase.react (phase : effect.Phase state)
    (reacted : effect.react event = some reaction) : Lands reaction state := by
  cases phase with
  | linked running current there live others timers awaiting =>
    exact Phase.react_linked running current there live others timers awaiting reacted
  | asking running dead timers awaiting =>
    rcases react_dead dead reacted with ⟨id, rfl⟩ | ⟨lookup, kind, rfl⟩
    · simp only [TerminalEffect.react, timers, List.not_mem_nil, if_false] at reacted
      cases reacted
    · simp only [TerminalEffect.react, awaiting, List.mem_singleton] at reacted
      split at reacted
      · rename_i same
        subst same
        cases reacted
        refine Phase.classified ?_ ?_ ?_ ?_ kind
        · exact running
        · exact dead
        · exact timers
        · simp
      · cases reacted
  | waiting running dead timers set awaiting =>
    rcases react_dead dead reacted with ⟨id, rfl⟩ | ⟨lookup, kind, rfl⟩
    · simp only [TerminalEffect.react, timers, List.mem_singleton] at reacted
      split at reacted
      · rename_i same
        subst same
        cases reacted
        refine Phase.connect ?_ ?_ ?_ ?_ .offline
        · exact running
        · exact dead
        · simp
        · exact awaiting
      · cases reacted
    · simp only [TerminalEffect.react, awaiting, List.not_mem_nil, if_false] at reacted
      cases reacted
  | finished ended final =>
    obtain ⟨still, shows, asks, -⟩ := ended.react reacted
    unfold Lands
    rw [asks, shows]
    exact .finished still final

theorem Bounded.setSocket (bounded : effect.Bounded) (index : Nat) (change : Socket → Socket) :
    (effect.setSocket index change).Bounded := bounded

theorem Bounded.onmessage (bounded : effect.Bounded) (type : Option String) :
    (effect.onmessage type).effect.Bounded := by
  unfold TerminalEffect.onmessage
  split
  · unfold closeCurrent
    split <;> exact bounded
  · exact bounded

theorem Bounded.onclose (bounded : effect.Bounded) : effect.onclose.effect.Bounded := by
  unfold TerminalEffect.onclose
  split <;> exact bounded

theorem Bounded.connect (bounded : effect.Bounded) : effect.connect.effect.Bounded := by
  unfold TerminalEffect.connect
  split <;> exact bounded

theorem Bounded.classified (bounded : effect.Bounded) (kind : CloseKind) :
    (effect.classified kind).effect.Bounded := by
  unfold TerminalEffect.classified
  split
  · exact bounded
  · cases kind with
    | retry =>
      obtain ⟨least, most⟩ := bounded
      constructor
      · exact Nat.le_min.mpr ⟨by omega, by omega⟩
      · exact Nat.min_le_right _ _
    | exited => exact bounded
    | missing => exact bounded
    | auth => exact bounded

/-- The delay stays within its bounds. -/
theorem Bounded.react (bounded : effect.Bounded)
    (reacted : effect.react event = some reaction) : reaction.effect.Bounded := by
  cases event with
  | opens index =>
    simp only [TerminalEffect.react] at reacted
    obtain ⟨socket, -, -, rfl⟩ := deliver_cases reacted
    constructor
    · exact Nat.le_refl 500
    · change 500 ≤ 10000
      decide
  | binary index =>
    simp only [TerminalEffect.react] at reacted
    obtain ⟨socket, -, -, rfl⟩ := deliver_cases reacted
    split <;> exact bounded
  | text index type =>
    simp only [TerminalEffect.react] at reacted
    obtain ⟨socket, -, -, rfl⟩ := deliver_cases reacted
    split
    · exact (bounded.setSocket index id).onmessage type
    · exact bounded
  | closing index =>
    simp only [TerminalEffect.react] at reacted
    obtain ⟨socket, -, -, rfl⟩ := deliver_cases reacted
    exact bounded
  | closes index =>
    simp only [TerminalEffect.react] at reacted
    obtain ⟨socket, -, -, rfl⟩ := deliver_cases reacted
    split
    · exact (bounded.setSocket index _).onclose
    · exact bounded
  | timeout id =>
    simp only [TerminalEffect.react] at reacted
    split at reacted
    · cases reacted
      have waited : { effect with timers := effect.timers.filter (· ≠ id) }.Bounded := bounded
      exact waited.connect
    · cases reacted
  | classified lookup kind =>
    simp only [TerminalEffect.react] at reacted
    split at reacted
    · cases reacted
      have told : { effect with awaiting := effect.awaiting.erase lookup }.Bounded := bounded
      exact told.classified kind
    · cases reacted

theorem Bounded.cleanup (bounded : effect.Bounded) : effect.cleanup.Bounded := by
  have cleared : { effect with closed := true }.clearTimer.Bounded := by
    unfold clearTimer
    split <;> exact bounded
  unfold TerminalEffect.cleanup disownCurrent
  split
  · exact cleared.setSocket _ _
  · exact cleared

theorem clearTimer_keeps (effect : TerminalEffect) :
    effect.clearTimer.closed = effect.closed ∧ effect.clearTimer.ws = effect.ws ∧
      effect.clearTimer.sockets = effect.sockets := by
  unfold clearTimer
  split <;> exact ⟨rfl, rfl, rfl⟩

/-- A run that has no timer but the one it would clear, and no socket in use but its own, is
ended by its cleanup. -/
theorem cleanup_ended
    (timers : effect.timers = [] ∨ ∃ id, effect.timers = [id] ∧
      effect.reconnectTimeoutId = some id)
    (sockets : ∀ (place : Nat) (socket : Socket), effect.sockets[place]? = some socket →
      effect.ws ≠ some place →
      socket.readyState = .closing ∨ socket.readyState = .closed) : effect.cleanup.Ended := by
  have cleared : { effect with closed := true }.clearTimer.timers = [] := by
    unfold clearTimer
    rcases timers with none | ⟨id, one, set⟩
    · split <;> simp [none]
    · simp [one, set]
  obtain ⟨closed, ws, same⟩ := { effect with closed := true }.clearTimer_keeps
  unfold TerminalEffect.cleanup disownCurrent
  rw [ws]
  split
  · rename_i index current
    refine ⟨closed, cleared, ?_⟩
    intro socket member
    obtain ⟨place, found⟩ := List.getElem?_of_mem member
    obtain ⟨old, there, rfl⟩ := getElem?_modify_cases found
    split
    · exact closeSocket_closes old
    · rename_i different
      exact sockets place old (same ▸ there) fun own =>
        different (Option.some.inj (current.symm.trans own))
  · rename_i none
    refine ⟨closed, cleared, ?_⟩
    intro socket member
    obtain ⟨place, found⟩ := List.getElem?_of_mem (same ▸ member)
    exact sockets place socket found fun own => nomatch none.symm.trans own

/-- The cleanup ends the run, wherever it stands. -/
theorem Phase.cleanup (phase : effect.Phase state) : effect.cleanup.Ended := by
  cases phase with
  | linked running current there live others timers awaiting =>
    refine cleanup_ended (.inl timers) ?_
    intro place socket found other
    exact .inr (others place socket found fun same => other (same ▸ current))
  | asking running dead timers awaiting =>
    exact cleanup_ended (.inl timers) fun place socket found _ =>
      .inr (getElem?_of_dead dead found)
  | waiting running dead timers set awaiting =>
    exact cleanup_ended (.inr ⟨_, timers, set⟩) fun place socket found _ =>
      .inr (getElem?_of_dead dead found)
  | finished ended final =>
    exact cleanup_ended (.inl ended.timers) fun place socket found _ =>
      ended.quiet socket (List.mem_of_getElem? found)

/-- A callback waits for no lookup but those it did, and only a socket that closes asks. -/
theorem react_awaiting (reacted : effect.react event = some reaction) :
    (∀ lookup ∈ reaction.effect.awaiting, lookup ∈ effect.awaiting) ∧
      (reaction.asks = true → ∃ socket, event = .closes socket) := by
  cases event with
  | opens index =>
    simp only [TerminalEffect.react] at reacted
    obtain ⟨socket, -, -, rfl⟩ := deliver_cases reacted
    exact ⟨fun _ => id, nofun⟩
  | binary index =>
    simp only [TerminalEffect.react] at reacted
    obtain ⟨socket, -, -, rfl⟩ := deliver_cases reacted
    split <;> exact ⟨fun _ => id, nofun⟩
  | text index type =>
    simp only [TerminalEffect.react] at reacted
    obtain ⟨socket, -, -, rfl⟩ := deliver_cases reacted
    split
    · unfold onmessage
      split
      · unfold closeCurrent
        split <;> exact ⟨fun _ => id, nofun⟩
      · exact ⟨fun _ => id, nofun⟩
    · exact ⟨fun _ => id, nofun⟩
  | closing index =>
    simp only [TerminalEffect.react] at reacted
    obtain ⟨socket, -, -, rfl⟩ := deliver_cases reacted
    exact ⟨fun _ => id, nofun⟩
  | closes index =>
    simp only [TerminalEffect.react] at reacted
    obtain ⟨socket, -, -, rfl⟩ := deliver_cases reacted
    refine ⟨?_, fun _ => ⟨index, rfl⟩⟩
    split
    · unfold onclose
      split <;> exact fun _ => id
    · exact fun _ => id
  | timeout timer =>
    simp only [TerminalEffect.react] at reacted
    split at reacted
    · cases reacted
      unfold TerminalEffect.connect
      split <;> exact ⟨fun _ => id, nofun⟩
    · cases reacted
  | classified lookup kind =>
    simp only [TerminalEffect.react] at reacted
    split at reacted
    · cases reacted
      have fewer : ∀ other ∈ effect.awaiting.erase lookup, other ∈ effect.awaiting :=
        fun _ => List.mem_of_mem_erase
      unfold TerminalEffect.classified
      split
      · exact ⟨fewer, nofun⟩
      · cases kind <;> exact ⟨fewer, nofun⟩
    · cases reacted

theorem startEffect_phase : startEffect.Phase .connecting := by
  have started : Lands (TerminalEffect.connect ⟨none, false, 500, none, [], [], 1, []⟩)
      .connecting := Phase.connect rfl (by simp) rfl rfl .connecting
  exact started

end TerminalEffect

/-! ### Tiles -/

/-- The current run stands where the tile shows, every other run is over, and all delays are
within their bounds. -/
structure TerminalTile.Sound (tile : TerminalTile) : Prop where
  started : tile.running = true → tile.effects ≠ []
  current : ∀ (place : Nat) (effect : TerminalEffect), tile.effects[place]? = some effect →
    tile.running = true → place + 1 = tile.effects.length → effect.Phase tile.state
  earlier : ∀ (place : Nat) (effect : TerminalEffect), tile.effects[place]? = some effect →
    ¬ (tile.running = true ∧ place + 1 = tile.effects.length) → effect.Ended
  bounded : ∀ effect ∈ tile.effects, effect.Bounded

namespace TerminalTile

variable {tile : TerminalTile}

/-- A run of the effect goes on. -/
theorem Sound.setEffect (sound : tile.Sound) {place : Nat} {effect after : TerminalEffect}
    {state : ConnState} (there : tile.effects[place]? = some effect)
    (phase : effect.Phase tile.state → after.Phase state)
    (ended : effect.Ended → after.Ended ∧ state = tile.state) (bounded : after.Bounded) :
    { tile with state, effects := tile.effects.set place after }.Sound := by
  refine ⟨?_, ?_, ?_, ?_⟩
  · intro running empty
    exact sound.started running (by simpa using empty)
  · intro index found at_index running last
    simp only [List.length_set] at last
    rcases getElem?_set_cases at_index with ⟨rfl, rfl⟩ | ⟨different, old⟩
    · exact phase (sound.current index effect there running last)
    · have finished := sound.earlier place effect there fun both => different (by omega)
      rw [(ended finished).2]
      exact sound.current index found old running last
  · intro index found at_index other
    simp only [List.length_set] at other
    rcases getElem?_set_cases at_index with ⟨rfl, rfl⟩ | ⟨-, old⟩
    · exact (ended (sound.earlier index effect there other)).1
    · exact sound.earlier index found old other
  · intro found member
    rcases List.mem_or_eq_of_mem_set member with old | rfl
    · exact sound.bounded found old
    · exact bounded

theorem Sound.cleanup (sound : tile.Sound) : (TilePage.cleanup tile).Sound := by
  have older : ∀ (place : Nat) (effect : TerminalEffect),
      (tile.effects.modify (tile.effects.length - 1) TerminalEffect.cleanup)[place]? =
        some effect → effect.Ended ∧ effect.Bounded := by
    intro place effect there
    rw [List.getElem?_modify] at there
    obtain ⟨old, before, rfl⟩ := Option.map_eq_some_iff.mp there
    have bounded := sound.bounded old (List.mem_of_getElem? before)
    by_cases current : tile.running = true ∧ place + 1 = tile.effects.length
    · have ended := (sound.current place old before current.1 current.2).cleanup
      rw [if_pos (by omega)]
      exact ⟨ended, bounded.cleanup⟩
    · have ended := sound.earlier place old before current
      split
      · have finished : old.Phase .exited := .finished ended rfl
        exact ⟨finished.cleanup, bounded.cleanup⟩
      · exact ⟨ended, bounded⟩
  refine ⟨nofun, ?_, ?_, ?_⟩
  · intro place effect there running
    cases running
  · intro place effect there _
    exact (older place effect there).1
  · intro effect member
    obtain ⟨place, there⟩ := List.getElem?_of_mem member
    exact (older place effect there).2

theorem Sound.start (sound : tile.Sound) (stopped : tile.running = false) :
    (TilePage.start tile).Sound := by
  refine ⟨fun _ => by simp [TilePage.start], ?_, ?_, ?_⟩
  · intro place effect there _ last
    simp only [TilePage.start, List.length_append, List.length_singleton] at last
    rcases getElem?_concat_cases there with old | ⟨-, rfl⟩
    · have bound := (List.getElem?_eq_some_iff.mp old).1
      omega
    · exact TerminalEffect.startEffect_phase
  · intro place effect there other
    rcases getElem?_concat_cases there with old | ⟨rfl, -⟩
    · exact sound.earlier place effect old fun both => by simp [stopped] at both
    · exact absurd ⟨rfl, by simp [TilePage.start]⟩ other
  · intro effect member
    rcases List.mem_append.mp member with old | new
    · exact sound.bounded effect old
    · rw [List.mem_singleton.mp new]
      exact ⟨Nat.le_refl 500, by decide⟩

/-- A callback of one run, with the lookup that it is given where it asks. -/
theorem Sound.react (sound : tile.Sound) {place : Nat} {effect : TerminalEffect}
    {event : TileEvent} {reaction : Reaction} (there : tile.effects[place]? = some effect)
    (reacted : effect.react event = some reaction) (lookup : Nat) :
    { tile with
      state := reaction.shows.getD tile.state
      effects := tile.effects.set place (if reaction.asks then
        { reaction.effect with awaiting := reaction.effect.awaiting ++ [lookup] }
        else reaction.effect) }.Sound := by
  have bounded := (sound.bounded effect (List.mem_of_getElem? there)).react reacted
  refine sound.setEffect there ?_ ?_ ?_
  · intro phase
    have lands := phase.react reacted
    unfold TerminalEffect.Lands at lands
    split
    · rename_i asks
      rw [if_pos asks] at lands
      exact lands lookup
    · rename_i silent
      rw [if_neg silent] at lands
      exact lands
  · intro ended
    obtain ⟨still, shows, asks, -⟩ := ended.react reacted
    rw [shows, asks]
    exact ⟨still, rfl⟩
  · split <;> exact bounded

end TerminalTile

/-! ### Lookups -/

namespace TilePage

variable {page next : TilePage}

/-- The map holds exactly the requests that are in flight. -/
def Mapped (page : TilePage) : Prop :=
  ∀ (key : String) (lookup : Nat), page.sessionsLookups key = some lookup ↔
    ∃ request, page.lookups[lookup]? = some request ∧ request.key = key ∧ request.answer = none

/-- A caller is given a request that is in flight, and no request goes out beside another one
for the same key. -/
theorem Mapped.lookupSessions (mapped : page.Mapped) (key : String) :
    (page.lookupSessions key).1.Mapped ∧
      page.lookups.length ≤ (page.lookupSessions key).1.lookups.length ∧
      (page.lookupSessions key).1.tiles = page.tiles ∧
      ∃ request, (page.lookupSessions key).1.lookups[(page.lookupSessions key).2]? =
        some request ∧ request.key = key ∧ request.answer = none := by
  unfold TilePage.lookupSessions
  split
  · rename_i lookup found
    exact ⟨mapped, Nat.le_refl _, rfl, (mapped key lookup).mp found⟩
  · rename_i missing
    have last : (page.lookups ++ [(⟨key, none⟩ : SessionsRequest)])[page.lookups.length]? =
        some ⟨key, none⟩ := by simp
    refine ⟨?_, by simp, rfl, ⟨_, last, rfl, rfl⟩⟩
    intro other lookup
    by_cases same : other = key
    · subst same
      simp only [Function.update_self, Option.some.injEq]
      constructor
      · rintro rfl
        exact ⟨_, last, rfl, rfl⟩
      · rintro ⟨request, there, keyed, open'⟩
        rcases getElem?_concat_cases there with old | ⟨new, -⟩
        · have held := (mapped other lookup).mpr ⟨request, old, keyed, open'⟩
          rw [missing] at held
          cases held
        · exact new.symm
    · simp only [Function.update_of_ne same]
      constructor
      · intro held
        obtain ⟨request, there, keyed, open'⟩ := (mapped other lookup).mp held
        exact ⟨request, getElem?_concat_left there, keyed, open'⟩
      · rintro ⟨request, there, keyed, open'⟩
        rcases getElem?_concat_cases there with old | ⟨-, rfl⟩
        · exact (mapped other lookup).mpr ⟨request, old, keyed, open'⟩
        · exact absurd keyed.symm same

/-- An answer takes its request out of the map. -/
theorem Mapped.answer (mapped : page.Mapped) {lookup : Nat} {request : SessionsRequest}
    (there : page.lookups[lookup]? = some request) (open' : request.answer = none)
    (answer : SessionsLookup) :
    { page with
      lookups := page.lookups.set lookup { request with answer := some answer }
      sessionsLookups := Function.update page.sessionsLookups request.key none }.Mapped := by
  have mine := (mapped request.key lookup).mpr ⟨request, there, rfl, open'⟩
  intro key number
  constructor
  · intro held
    by_cases same : key = request.key
    · subst same
      simp at held
    · simp only [Function.update_of_ne same] at held
      obtain ⟨other, found, keyed, unanswered⟩ := (mapped key number).mp held
      refine ⟨other, ?_, keyed, unanswered⟩
      rw [List.getElem?_set_ne]
      · exact found
      · rintro rfl
        cases there.symm.trans found
        exact same keyed.symm
  · rintro ⟨other, found, keyed, unanswered⟩
    rcases getElem?_set_cases found with ⟨-, rfl⟩ | ⟨different, old⟩
    · cases unanswered
    · have held := (mapped key number).mpr ⟨other, old, keyed, unanswered⟩
      change Function.update page.sessionsLookups request.key none key = some number
      rw [Function.update_of_ne]
      · exact held
      · rintro rfl
        exact different (Option.some.inj (held.symm.trans mine))

/-- A callback of a tile, taken apart. -/
theorem event_cases {index place : Nat} {event : TileEvent}
    (taken : page.event index place event = some next) :
    ∃ tile effect reaction, page.tiles[index]? = some tile ∧
      tile.effects[place]? = some effect ∧ effect.react event = some reaction ∧
      next = { (if reaction.asks then (page.lookupSessions tile.key).1 else page) with
        tiles := page.tiles.set index { tile with
          state := reaction.shows.getD tile.state
          effects := tile.effects.set place (if reaction.asks then { reaction.effect with
            awaiting := reaction.effect.awaiting ++ [(page.lookupSessions tile.key).2] }
            else reaction.effect) } } := by
  unfold TilePage.event at taken
  split at taken
  · cases taken
  · rename_i tile there
    split at taken
    · cases taken
    · rename_i effect at_place
      split at taken
      · obtain ⟨reaction, reacted, rfl⟩ := Option.map_eq_some_iff.mp taken
        refine ⟨tile, effect, reaction, there, at_place, reacted, ?_⟩
        cases asks : reaction.asks with
        | true =>
          have same : (page.lookupSessions tile.key).1.tiles = page.tiles := by
            unfold TilePage.lookupSessions
            split <;> rfl
          simp [setTile, same]
        | false => simp [setTile]
      · cases taken

/-- The tiles are sound, the map holds the requests in flight, and every lookup that a tile waits
for was made. -/
structure Sound (page : TilePage) : Prop where
  tiles : ∀ tile ∈ page.tiles, tile.Sound
  mapped : page.Mapped
  awaited : ∀ tile ∈ page.tiles, ∀ effect ∈ tile.effects, ∀ lookup ∈ effect.awaiting,
    lookup < page.lookups.length

theorem sound_blankTiles : blankTiles.Sound where
  tiles := by simp [blankTiles]
  mapped := by simp [Mapped, blankTiles]
  awaited := by simp [blankTiles]

/-- One tile of the page is replaced by one that waits for nothing new. -/
theorem Sound.setTile (sound : page.Sound) {index : Nat} {tile after : TerminalTile}
    (there : page.tiles[index]? = some tile) (still : after.Sound)
    (fewer : ∀ effect ∈ after.effects, ∀ lookup ∈ effect.awaiting,
      ∃ old ∈ tile.effects, lookup ∈ old.awaiting) : (page.setTile index after).Sound := by
  refine ⟨?_, sound.mapped, ?_⟩
  · intro found member
    rcases List.mem_or_eq_of_mem_set member with old | rfl
    · exact sound.tiles found old
    · exact still
  · intro found member effect present lookup waited
    rcases List.mem_or_eq_of_mem_set member with old | rfl
    · exact sound.awaited found old effect present lookup waited
    · obtain ⟨before, known, held⟩ := fewer effect present lookup waited
      exact sound.awaited tile (List.mem_of_getElem? there) before known lookup held

theorem cleanup_awaiting (effect : TerminalEffect) : effect.cleanup.awaiting = effect.awaiting := by
  unfold TerminalEffect.cleanup TerminalEffect.disownCurrent TerminalEffect.clearTimer
  split <;> split <;> rfl

/-- A cleanup waits for nothing new. -/
theorem awaiting_cleanup (tile : TerminalTile) :
    ∀ effect ∈ (cleanup tile).effects, ∀ lookup ∈ effect.awaiting,
      ∃ old ∈ tile.effects, lookup ∈ old.awaiting := by
  intro effect member lookup waited
  obtain ⟨place, there⟩ := List.getElem?_of_mem member
  simp only [cleanup, List.getElem?_modify] at there
  obtain ⟨old, before, rfl⟩ := Option.map_eq_some_iff.mp there
  refine ⟨old, List.mem_of_getElem? before, ?_⟩
  split at waited
  · rwa [cleanup_awaiting] at waited
  · exact waited

theorem awaiting_start (tile : TerminalTile) :
    ∀ effect ∈ (start tile).effects, ∀ lookup ∈ effect.awaiting,
      ∃ old ∈ tile.effects, lookup ∈ old.awaiting := by
  intro effect member lookup waited
  rcases List.mem_append.mp member with old | new
  · exact ⟨effect, old, waited⟩
  · rw [List.mem_singleton.mp new] at waited
    cases waited

theorem Sound.event (sound : page.Sound) {index place : Nat} {event : TileEvent}
    (taken : page.event index place event = some next) : next.Sound := by
  obtain ⟨tile, effect, reaction, there, at_place, reacted, rfl⟩ := event_cases taken
  have member := List.mem_of_getElem? there
  have present := List.mem_of_getElem? at_place
  have still := (sound.tiles tile member).react at_place reacted (page.lookupSessions tile.key).2
  obtain ⟨mapped, longer, -, request, given, -, -⟩ := sound.mapped.lookupSessions tile.key
  have grown : page.lookups.length ≤
      (if reaction.asks then (page.lookupSessions tile.key).1 else page).lookups.length := by
    split
    · exact longer
    · exact Nat.le_refl _
  refine ⟨?_, ?_, ?_⟩
  · intro found inside
    rcases List.mem_or_eq_of_mem_set inside with old | rfl
    · exact sound.tiles found old
    · exact still
  · have kept : (if reaction.asks then (page.lookupSessions tile.key).1 else page).Mapped := by
      split
      · exact mapped
      · exact sound.mapped
    exact kept
  · intro found inside run running lookup waited
    rcases List.mem_or_eq_of_mem_set inside with old | rfl
    · exact Nat.lt_of_lt_of_le (sound.awaited found old run running lookup waited) grown
    · rcases List.mem_or_eq_of_mem_set running with older | rfl
      · exact Nat.lt_of_lt_of_le (sound.awaited tile member run older lookup waited) grown
      · have before : lookup ∈ reaction.effect.awaiting → lookup < page.lookups.length :=
          fun held => sound.awaited tile member effect present lookup
            ((TerminalEffect.react_awaiting reacted).1 lookup held)
        change lookup < (if reaction.asks then (page.lookupSessions tile.key).1
          else page).lookups.length
        split at waited
        · rename_i asks
          rw [if_pos asks] at grown ⊢
          rcases List.mem_append.mp waited with held | new
          · exact Nat.lt_of_lt_of_le (before held) grown
          · rw [List.mem_singleton.mp new]
            exact (List.getElem?_eq_some_iff.mp given).1
        · exact Nat.lt_of_lt_of_le (before waited) grown

theorem Sound.step (sound : page.Sound) {action : TileAction}
    (taken : page.step action = some next) : next.Sound := by
  cases action with
  | mount key sessionId =>
    cases taken
    refine ⟨?_, sound.mapped, ?_⟩
    · intro tile member
      rcases List.mem_append.mp member with old | new
      · exact sound.tiles tile old
      · rw [List.mem_singleton.mp new]
        refine TerminalTile.Sound.start ⟨nofun, ?_, ?_, ?_⟩ rfl
        · simp
        · simp
        · simp
    · intro tile member effect present lookup waited
      rcases List.mem_append.mp member with old | new
      · exact sound.awaited tile old effect present lookup waited
      · rw [List.mem_singleton.mp new] at present
        obtain ⟨before, known, -⟩ := awaiting_start _ effect present lookup waited
        cases known
  | setServer index key =>
    simp only [TilePage.step] at taken
    split at taken
    · rename_i tile there
      cases taken
      have before := sound.tiles tile (List.mem_of_getElem? there)
      exact sound.setTile there ⟨before.started, before.current, before.earlier, before.bounded⟩
        fun effect member lookup waited => ⟨effect, member, waited⟩
    · cases taken
  | rerun index =>
    simp only [TilePage.step] at taken
    split at taken
    · rename_i tile there
      split at taken
      · cases taken
        refine sound.setTile there ((sound.tiles tile
          (List.mem_of_getElem? there)).cleanup.start rfl) ?_
        intro effect member lookup waited
        obtain ⟨old, known, held⟩ := awaiting_start _ effect member lookup waited
        exact awaiting_cleanup tile old known lookup held
      · cases taken
    · cases taken
  | unmount index =>
    simp only [TilePage.step] at taken
    split at taken
    · rename_i tile there
      split at taken
      · cases taken
        exact sound.setTile there (sound.tiles tile (List.mem_of_getElem? there)).cleanup
          (awaiting_cleanup tile)
      · cases taken
    · cases taken
  | event index place event => exact sound.event taken
  | answer lookup res =>
    simp only [TilePage.step] at taken
    split at taken
    · rename_i request there
      split at taken
      · rename_i unanswered
        cases taken
        refine ⟨sound.tiles, sound.mapped.answer there (Option.isNone_iff_eq_none.mp unanswered) _,
          ?_⟩
        intro tile member effect present number waited
        rw [List.length_set]
        exact sound.awaited tile member effect present number waited
      · cases taken
    · cases taken

theorem sound_run {actions : List TileAction}
    (run : Run TilePage.step anything blankTiles actions page) : page.Sound :=
  run.invariant Sound sound_blankTiles fun _ _ _ sound _ taken => sound.step taken

/-! ### Runs of the page -/

/-- A tile whose loop has stopped shows the same until its effect runs again. -/
theorem Sound.state_final (sound : page.Sound) {index : Nat} {tile after : TerminalTile}
    {action : TileAction} (there : page.tiles[index]? = some tile)
    (running : tile.running = true) (final : tile.state.final = true)
    (taken : page.step action = some next) (found : next.tiles[index]? = some after)
    (other : action ≠ .rerun index) : after.state = tile.state := by
  have unchanged : ∀ {number : Nat} {changed : TerminalTile},
      (page.tiles.set number changed)[index]? = some after →
      (number = index → changed.state = tile.state) → after.state = tile.state := by
    intro number changed at_index same
    rcases getElem?_set_cases at_index with ⟨rfl, rfl⟩ | ⟨-, old⟩
    · exact same rfl
    · cases there.symm.trans old
      rfl
  cases action with
  | mount key sessionId =>
    cases taken
    cases (getElem?_concat_left there).symm.trans found
    rfl
  | setServer number key =>
    simp only [TilePage.step] at taken
    split at taken
    · rename_i old before
      cases taken
      refine unchanged found ?_
      rintro rfl
      cases there.symm.trans before
      rfl
    · cases taken
  | rerun number =>
    simp only [TilePage.step] at taken
    split at taken
    · split at taken
      · cases taken
        exact unchanged found fun same => absurd (congrArg TileAction.rerun same) other
      · cases taken
    · cases taken
  | unmount number =>
    simp only [TilePage.step] at taken
    split at taken
    · rename_i old before
      split at taken
      · cases taken
        refine unchanged found ?_
        rintro rfl
        cases there.symm.trans before
        rfl
      · cases taken
    · cases taken
  | event number place event =>
    obtain ⟨old, effect, reaction, before, at_place, reacted, rfl⟩ := event_cases taken
    refine unchanged found ?_
    rintro rfl
    cases there.symm.trans before
    have sound' := sound.tiles tile (List.mem_of_getElem? there)
    have finished : effect.Ended := by
      by_cases last : place + 1 = tile.effects.length
      · have phase := sound'.current place effect at_place running last
        generalize shown : tile.state = state at phase
        cases phase with
        | linked => split at shown <;> simp [shown, ConnState.final] at final
        | asking => simp [shown, ConnState.final] at final
        | waiting => simp [shown, ConnState.final] at final
        | finished ended => exact ended
      · exact sound'.earlier place effect at_place fun both => last both.2
    rw [(finished.react reacted).2.1]
    rfl
  | answer lookup res =>
    simp only [TilePage.step] at taken
    split at taken
    · split at taken
      · cases taken
        cases there.symm.trans found
        rfl
      · cases taken
    · cases taken

/-- The current run of a mounted tile has one socket in use and waits for nothing else, or waits
for one lookup or for one timer and has none, or is over, as its tile shows; its other runs are
over, and the delays are kept within their bounds. What a stopped tile shows is final until its
effect runs again. -/
theorem tile_connection {actions : List TileAction}
    (run : Run TilePage.step anything blankTiles actions page) {index : Nat}
    {tile : TerminalTile} (there : page.tiles[index]? = some tile) :
    (tile.running = true → ∃ effect, tile.effects.getLast? = some effect ∧
        effect.Phase tile.state) ∧
      (∀ (place : Nat) (effect : TerminalEffect), tile.effects[place]? = some effect →
        ¬ (tile.running = true ∧ place + 1 = tile.effects.length) → effect.Ended) ∧
      (∀ effect ∈ tile.effects, 500 ≤ effect.backoff ∧ effect.backoff ≤ 10000) ∧
      ∀ action next after, page.step action = some next → next.tiles[index]? = some after →
        tile.running = true → tile.state.final = true → action ≠ .rerun index →
        after.state = tile.state := by
  have sound := sound_run run
  have here := sound.tiles tile (List.mem_of_getElem? there)
  refine ⟨?_, here.earlier, here.bounded, ?_⟩
  · intro running
    have last := List.getLast?_eq_getElem? (l := tile.effects)
    have nonempty := List.length_pos_iff.mpr (here.started running)
    have found := List.getElem?_eq_getElem (Nat.sub_lt nonempty Nat.one_pos)
    exact ⟨_, last.trans found, here.current _ _ found running (by omega)⟩
  · intro action next after taken found running final other
    exact sound.state_final there running final taken found other

/-- What `lookupSessions` gives a caller is not answered yet. -/
theorem Mapped.unanswered (mapped : page.Mapped) (key : String) {request : SessionsRequest}
    (there : page.lookups[(page.lookupSessions key).2]? = some request) :
    request.answer = none := by
  unfold TilePage.lookupSessions at there
  split at there
  · rename_i lookup found
    obtain ⟨other, same, -, open'⟩ := (mapped key lookup).mp found
    cases same.symm.trans there
    exact open'
  · exact absurd (List.getElem?_eq_some_iff.mp there).1 (Nat.lt_irrefl _)

end TilePage

/-- A tile whose socket opens and closes, twice, and is told that its session goes on. -/
def reconnectingTile : List TileAction :=
  [.mount "daemon" 7, .event 0 0 (.opens 0), .event 0 0 (.closes 0),
    .answer 0 (some (200, some [(7, "running")])), .event 0 0 (.classified 0 .retry),
    .event 0 0 (.timeout 1), .event 0 0 (.closes 1)]

theorem tile_connection_reconnectingTile :
    ∃ page tile effect, exec TilePage.step blankTiles reconnectingTile = some page ∧
      page.tiles[0]? = some tile ∧ tile.effects.getLast? = some effect ∧
      effect.Phase tile.state := by
  obtain ⟨page, done, told⟩ := exists_of_exec TilePage.step blankTiles reconnectingTile
    (fun page => (page.tiles[0]?).any TerminalTile.running) rfl
  obtain ⟨tile, there, running⟩ := (Option.any_eq_true _ _).mp told
  obtain ⟨effect, last, phase⟩ :=
    (TilePage.tile_connection (Run.of_exec_anything done) there).1 running
  exact ⟨page, tile, effect, done, there, last, phase⟩

end Multimux
