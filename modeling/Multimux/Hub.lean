/-
This file models the hub that fans a daemon's events out to the events sockets,
and the handler that serves one socket. The hub's mutex is held while it visits
its subscribers one by one, in any order, and every handler drains its channel,
writes and returns at moments of its own in between. A channel has sixteen
slots and a visit never waits for one: the event is lost to a subscriber that
did not drain, and to nobody else. What a socket carries is exactly what was
broadcast since its handler subscribed, in order and after the hello, less what
met a full channel.
-/

import Multimux.Runs
import Mathlib.Data.List.Perm.Basic
import Mathlib.Data.List.Infix

namespace Multimux

/-! ### The hub and its handlers -/

/-- A frame on an events socket. The hello names the frontend build where there is one. -/
inductive EventFrame (Raw : Type*)
  | hello (build : Option String)
  | keepalive
  | event (raw : Raw)

/-- Where `handleEvents` stands, with the channel it subscribed. After its `return` the deferred
calls run: it unsubscribes, then it closes the socket. -/
inductive HandlerStage
  | upgraded
  | subscribed (ch : Nat)
  | serving (ch : Nat)
  | returning (ch : Nat)
  | unsubscribed (ch : Nat)
  | closed (ch : Nat)
  deriving DecidableEq

/-- A call of `handleEvents`: what its socket carried, whether a write has failed, after which
every later write fails too, and whether its reader has ended. -/
structure EventsHandler (Raw : Type*) where
  stage : HandlerStage
  wire : List (EventFrame Raw)
  broken : Bool
  gone : Bool

/-- The hub. Its channels are those ever made, by what waits in them; `visiting` is the broadcast
that holds the mutex, with the subscribers it has still to visit. -/
structure Hub (Raw : Type*) where
  channels : List (List Raw)
  subs : List Nat
  visiting : Option (Raw × List Nat)
  handlers : List (EventsHandler Raw)

/-- A hub that nobody has subscribed to. -/
def NewHub {Raw : Type*} : Hub Raw := ⟨[], [], none, []⟩

/-- `make(chan []byte, 16)`. -/
def channelSlots : Nat := 16

/-- What a handler does by itself. -/
inductive HandlerStep
  | greet (build : String) (written : Bool)
  | beat (pinged written : Bool)
  | hangUp
  | leave
  | close

/-- What happens at the hub: subscriptions, the steps of the handlers, and broadcasts. -/
inductive HubAction (Raw : Type*)
  | upgrade
  | subscribe (handler : Nat)
  | unsubscribe (handler : Nat)
  | handle (handler : Nat) (step : HandlerStep)
  | forward (handler : Nat) (written : Bool)
  | broadcast (raw : Raw) (order : List Nat)
  | send
  | release

/-- What is recorded of an action. -/
inductive HubEvent (Raw : Type*)
  | subscribed (ch : Nat)
  | begun (raw : Raw)
  | sent (ch : Nat) (raw : Raw) (kept : Bool)

section Hub

variable {Raw : Type*}

namespace EventsHandler

/-- The handler of a socket that was just upgraded. -/
def arrived : EventsHandler Raw := ⟨.upgraded, [], false, false⟩

/-- A write under `writeText`. -/
def writeText (handler : EventsHandler Raw) (frame : EventFrame Raw) (written : Bool) :
    EventsHandler Raw :=
  if written && !handler.broken then { handler with wire := handler.wire ++ [frame] }
  else { handler with broken := true }

/-- A write in the loop of the handler, which returns when it fails. -/
def serve (handler : EventsHandler Raw) (ch : Nat) (frame : EventFrame Raw) (written : Bool) :
    EventsHandler Raw :=
  let after := handler.writeText frame written
  if after.broken then { after with stage := .returning ch } else after

/-- One step of a handler by itself. -/
def step (handler : EventsHandler Raw) : HandlerStep → Option (EventsHandler Raw)
  | .greet build written =>
    match handler.stage with
    | .subscribed ch =>
      let hello := .hello (if build = "" then none else some build)
      some { handler.writeText hello written with stage := .serving ch }
    | _ => none
  | .beat pinged written =>
    match handler.stage with
    | .serving ch =>
      some (if pinged then handler.serve ch .keepalive written
        else { handler with stage := .returning ch })
    | _ => none
  | .hangUp =>
    match handler.stage with
    | .upgraded | .subscribed _ => none
    | _ => some { handler with gone := true }
  | .leave =>
    match handler.stage with
    | .serving ch => if handler.gone then some { handler with stage := .returning ch } else none
    | _ => none
  | .close =>
    match handler.stage with
    | .unsubscribed ch => some { handler with stage := .closed ch }
    | _ => none

end EventsHandler

namespace Hub

/-- What waits in a channel. -/
def buffer (hub : Hub Raw) (ch : Nat) : List Raw := (hub.channels[ch]?).getD []

/-- The hub with another state of a handler. -/
def setHandler (hub : Hub Raw) (index : Nat) (handler : EventsHandler Raw) : Hub Raw :=
  { hub with handlers := hub.handlers.set index handler }

/-- `Subscribe`: a new channel, and a new subscriber. -/
def Subscribe (hub : Hub Raw) (index : Nat) (handler : EventsHandler Raw) : Hub Raw :=
  { hub with
    channels := hub.channels ++ [[]]
    subs := hub.subs ++ [hub.channels.length] }.setHandler index
      { handler with stage := .subscribed hub.channels.length }

/-- `Unsubscribe`: the channel is no subscriber any more. -/
def Unsubscribe (hub : Hub Raw) (index ch : Nat) (handler : EventsHandler Raw) : Hub Raw :=
  { hub with subs := hub.subs.filter (· ≠ ch) }.setHandler index
    { handler with stage := .unsubscribed ch }

/-- One `select` of `Broadcast`. -/
def send (hub : Hub Raw) (raw : Raw) (ch : Nat) (rest : List Nat) :
    Hub Raw × Option (HubEvent Raw) :=
  if (hub.buffer ch).length < channelSlots then
    ({ hub with
      channels := hub.channels.set ch (hub.buffer ch ++ [raw])
      visiting := some (raw, rest) }, some (.sent ch raw true))
  else ({ hub with visiting := some (raw, rest) }, some (.sent ch raw false))

/-- One action. Subscribing and unsubscribing take the mutex, and so does a broadcast, which
visits the subscribers in the order of the map's iteration. -/
def perform (hub : Hub Raw) : HubAction Raw → Option (Hub Raw × Option (HubEvent Raw))
  | .upgrade => some ({ hub with handlers := hub.handlers ++ [EventsHandler.arrived] }, none)
  | .subscribe index =>
    match hub.visiting, hub.handlers[index]? with
    | none, some handler =>
      if handler.stage = .upgraded then
        some (hub.Subscribe index handler, some (.subscribed hub.channels.length))
      else none
    | _, _ => none
  | .unsubscribe index =>
    match hub.visiting, hub.handlers[index]? with
    | none, some handler =>
      match handler.stage with
      | .returning ch => some (hub.Unsubscribe index ch handler, none)
      | _ => none
    | _, _ => none
  | .handle index step =>
    match hub.handlers[index]? with
    | some handler => (handler.step step).map fun after => (hub.setHandler index after, none)
    | none => none
  | .forward index written =>
    match hub.handlers[index]? with
    | some handler =>
      match handler.stage with
      | .serving ch =>
        match hub.buffer ch with
        | raw :: rest =>
          some ({ hub with channels := hub.channels.set ch rest }.setHandler index
            (handler.serve ch (.event raw) written), none)
        | [] => none
      | _ => none
    | none => none
  | .broadcast raw order =>
    match hub.visiting with
    | none =>
      if order.isPerm hub.subs then
        some ({ hub with visiting := some (raw, order) }, some (.begun raw))
      else none
    | some _ => none
  | .send =>
    match hub.visiting with
    | some (raw, ch :: rest) => some (hub.send raw ch rest)
    | _ => none
  | .release =>
    match hub.visiting with
    | some (_, []) => some ({ hub with visiting := none }, none)
    | _ => none

/-- An action without what is recorded of it. -/
def step (hub : Hub Raw) (action : HubAction Raw) : Option (Hub Raw) :=
  (hub.perform action).map Prod.fst

end Hub

/-! ### What a handler does -/

/-- The channel of a handler, once it has subscribed one. -/
def HandlerStage.ch : HandlerStage → Option Nat
  | .upgraded => none
  | .subscribed ch | .serving ch | .returning ch | .unsubscribed ch | .closed ch => some ch

/-- The handler is among the hub's subscribers. -/
def HandlerStage.listening : HandlerStage → Bool
  | .subscribed _ | .serving _ | .returning _ => true
  | _ => false

/-- The handler has still to look at its channel. -/
def HandlerStage.draining : HandlerStage → Bool
  | .subscribed _ | .serving _ => true
  | _ => false

/-- The handler has tried to write its hello. -/
def HandlerStage.started : HandlerStage → Bool
  | .upgraded | .subscribed _ => false
  | _ => true

/-- The event in a frame. -/
def EventFrame.raw? : EventFrame Raw → Option Raw
  | .event raw => some raw
  | _ => none

/-- The frame is the greeting. -/
def EventFrame.isHello : EventFrame Raw → Bool
  | .hello _ => true
  | _ => false

namespace EventsHandler

variable {handler after : EventsHandler Raw}

/-- The events that the socket carried. -/
def events (handler : EventsHandler Raw) : List Raw := handler.wire.filterMap EventFrame.raw?

/-- The hello is the first frame and the only hello; without one nothing was written. -/
def Greeted (handler : EventsHandler Raw) : Prop :=
  if handler.stage.started then
    handler.wire = [] ∧ handler.broken = true ∨
      ∃ build rest, handler.wire = .hello build :: rest ∧
        ∀ frame ∈ rest, frame.isHello = false
  else handler.wire = [] ∧ handler.broken = false

/-- What a write in the loop leads to. -/
theorem serve_cases (handler : EventsHandler Raw) {ch : Nat} (frame : EventFrame Raw)
    (written : Bool) :
    handler.serve ch frame written = { handler with wire := handler.wire ++ [frame] } ∧
        handler.broken = false ∨
      handler.serve ch frame written = { handler with broken := true, stage := .returning ch } := by
  unfold serve writeText
  cases written <;> cases broken : handler.broken <;> simp

/-- What a step leaves that writes nothing. -/
structure Quiet (handler after : EventsHandler Raw) : Prop where
  wire : after.wire = handler.wire
  broken : after.broken = handler.broken
  ch : after.stage.ch = handler.stage.ch
  started : after.stage.started = handler.stage.started
  listening : after.stage.listening = handler.stage.listening
  draining : after.stage.draining = true → handler.stage.draining = true

/-- A step of the handler by itself writes the hello, writes a keepalive or is quiet. -/
theorem step_cases {move : HandlerStep} (stepped : handler.step move = some after) :
    (∃ ch build written, handler.stage = .subscribed ch ∧
        after = { handler.writeText (.hello build) written with stage := .serving ch }) ∨
      (∃ ch written, handler.stage = .serving ch ∧
        after = handler.serve ch .keepalive written) ∨ handler.Quiet after := by
  cases move with
  | greet build written =>
    simp only [step] at stepped
    split at stepped
    · rename_i ch stage
      cases stepped
      exact .inl ⟨ch, _, written, stage, rfl⟩
    · cases stepped
  | beat pinged written =>
    simp only [step] at stepped
    split at stepped
    · rename_i ch stage
      cases stepped
      split
      · exact .inr (.inl ⟨ch, written, stage, rfl⟩)
      · refine .inr (.inr ?_)
        constructor <;> simp [stage, HandlerStage.ch, HandlerStage.started,
          HandlerStage.listening, HandlerStage.draining]
    · cases stepped
  | hangUp =>
    simp only [step] at stepped
    split at stepped
    · cases stepped
    · cases stepped
    · cases stepped
      exact .inr (.inr ⟨rfl, rfl, rfl, rfl, rfl, id⟩)
  | leave =>
    simp only [step] at stepped
    split at stepped
    · rename_i ch stage
      split at stepped
      · cases stepped
        refine .inr (.inr ?_)
        constructor <;> simp [stage, HandlerStage.ch, HandlerStage.started,
          HandlerStage.listening, HandlerStage.draining]
      · cases stepped
    · cases stepped
  | close =>
    simp only [step] at stepped
    split at stepped
    · rename_i ch stage
      cases stepped
      refine .inr (.inr ?_)
      constructor <;> simp [stage, HandlerStage.ch, HandlerStage.started,
        HandlerStage.listening, HandlerStage.draining]
    · cases stepped

/-- A write in the loop keeps the channel and the subscription, and carries the frame while the
loop goes on. -/
theorem serve_keeps {ch : Nat} (serving : handler.stage = .serving ch) (frame : EventFrame Raw)
    (written : Bool) :
    (handler.serve ch frame written).stage.ch = some ch ∧
      (handler.serve ch frame written).stage.listening = true ∧
      ((handler.serve ch frame written).stage.draining = true ∧
          (handler.serve ch frame written).wire = handler.wire ++ [frame] ∨
        (handler.serve ch frame written).stage.draining = false ∧
          (handler.serve ch frame written).wire = handler.wire) := by
  rcases handler.serve_cases frame written with ⟨same, -⟩ | same
  · rw [same, serving]
    exact ⟨rfl, rfl, .inl ⟨rfl, rfl⟩⟩
  · rw [same]
    exact ⟨rfl, rfl, .inr ⟨rfl, rfl⟩⟩

/-- A step of the handler by itself keeps its channel and its subscription, and writes no
event. -/
theorem step_keeps {move : HandlerStep} (stepped : handler.step move = some after) :
    after.stage.ch = handler.stage.ch ∧ after.stage.listening = handler.stage.listening ∧
      (after.stage.draining = true → handler.stage.draining = true) ∧
      after.events = handler.events := by
  rcases step_cases stepped with ⟨ch, build, written, stage, rfl⟩ | ⟨ch, written, stage, rfl⟩ |
    quiet
  · refine ⟨by rw [stage]; rfl, by rw [stage]; rfl, fun _ => by rw [stage]; rfl, ?_⟩
    unfold writeText
    split <;> simp [events, EventFrame.raw?]
  · obtain ⟨same, listening, carried⟩ := serve_keeps stage .keepalive written
    rw [same, listening, stage]
    refine ⟨rfl, rfl, fun _ => rfl, ?_⟩
    rcases carried with ⟨-, wire⟩ | ⟨-, wire⟩ <;> simp [events, wire, EventFrame.raw?]
  · exact ⟨quiet.ch, quiet.listening, quiet.draining, by rw [events, quiet.wire, events]⟩

theorem Greeted.quiet (greeted : handler.Greeted) (quiet : handler.Quiet after) :
    after.Greeted := by
  unfold Greeted at greeted ⊢
  rw [quiet.wire, quiet.broken, quiet.started]
  exact greeted

theorem Greeted.serve {ch : Nat} {frame : EventFrame Raw} (greeted : handler.Greeted)
    (serving : handler.stage = .serving ch) (plain : frame.isHello = false) (written : Bool) :
    (handler.serve ch frame written).Greeted := by
  unfold Greeted at greeted
  rw [serving] at greeted
  rcases handler.serve_cases frame written with ⟨same, unbroken⟩ | same
  · rw [same]
    unfold Greeted
    rw [serving]
    rcases greeted with ⟨-, broken⟩ | ⟨build, rest, wire, none⟩
    · rw [unbroken] at broken
      cases broken
    · refine .inr ⟨build, rest ++ [frame], by rw [wire]; rfl, ?_⟩
      intro other member
      rcases List.mem_append.mp member with old | new
      · exact none other old
      · exact List.mem_singleton.mp new ▸ plain
  · rw [same]
    exact greeted.imp (fun nothing => ⟨nothing.1, rfl⟩) id

theorem Greeted.step {move : HandlerStep} (greeted : handler.Greeted)
    (stepped : handler.step move = some after) : after.Greeted := by
  rcases step_cases stepped with ⟨ch, build, written, stage, rfl⟩ | ⟨ch, written, stage, rfl⟩ |
    quiet
  · unfold Greeted at greeted
    rw [stage] at greeted
    obtain ⟨wire, broken⟩ := greeted
    unfold Greeted writeText
    cases written
    · exact .inl ⟨wire, rfl⟩
    · rw [broken]
      exact .inr ⟨build, [], by rw [wire]; rfl, by simp⟩
  · exact greeted.serve stage rfl written
  · exact greeted.quiet quiet

end EventsHandler

/-! ### What happens to the hub -/

namespace Hub

variable {hub after : Hub Raw}

/-- What an action can do. -/
inductive Does (hub : Hub Raw) : Hub Raw → Option (HubEvent Raw) → Prop
  | upgrade :
    Does hub { hub with handlers := hub.handlers ++ [EventsHandler.arrived] } none
  | subscribe {index : Nat} {handler : EventsHandler Raw} (free : hub.visiting = none)
    (there : hub.handlers[index]? = some handler) (stage : handler.stage = .upgraded) :
    Does hub (hub.Subscribe index handler) (some (.subscribed hub.channels.length))
  | unsubscribe {index ch : Nat} {handler : EventsHandler Raw} (free : hub.visiting = none)
    (there : hub.handlers[index]? = some handler) (stage : handler.stage = .returning ch) :
    Does hub (hub.Unsubscribe index ch handler) none
  | handle {index : Nat} {handler after : EventsHandler Raw} {move : HandlerStep}
    (there : hub.handlers[index]? = some handler) (stepped : handler.step move = some after) :
    Does hub (hub.setHandler index after) none
  | forward {index ch : Nat} {handler : EventsHandler Raw} {raw : Raw} {rest : List Raw}
    {written : Bool} (there : hub.handlers[index]? = some handler)
    (stage : handler.stage = .serving ch) (waiting : hub.buffer ch = raw :: rest) :
    Does hub ({ hub with channels := hub.channels.set ch rest }.setHandler index
      (handler.serve ch (.event raw) written)) none
  | broadcast {raw : Raw} {order : List Nat} (free : hub.visiting = none)
    (each : order.Perm hub.subs) :
    Does hub { hub with visiting := some (raw, order) } (some (.begun raw))
  | kept {raw : Raw} {ch : Nat} {rest : List Nat} (busy : hub.visiting = some (raw, ch :: rest))
    (slot : (hub.buffer ch).length < channelSlots) :
    Does hub { hub with
      channels := hub.channels.set ch (hub.buffer ch ++ [raw])
      visiting := some (raw, rest) } (some (.sent ch raw true))
  | lost {raw : Raw} {ch : Nat} {rest : List Nat} (busy : hub.visiting = some (raw, ch :: rest))
    (full : channelSlots ≤ (hub.buffer ch).length) :
    Does hub { hub with visiting := some (raw, rest) } (some (.sent ch raw false))
  | release {raw : Raw} (busy : hub.visiting = some (raw, [])) :
    Does hub { hub with visiting := none } none

theorem perform_cases {action : HubAction Raw} {event : Option (HubEvent Raw)}
    (done : hub.perform action = some (after, event)) : hub.Does after event := by
  cases action with
  | upgrade =>
    cases done
    exact .upgrade
  | subscribe index =>
    simp only [perform] at done
    split at done
    · rename_i handler free there
      split at done
      · rename_i stage
        cases done
        exact .subscribe free there stage
      · cases done
    · cases done
  | unsubscribe index =>
    simp only [perform] at done
    split at done
    · rename_i handler free there
      split at done
      · rename_i ch stage
        cases done
        exact .unsubscribe free there stage
      · cases done
    · cases done
  | handle index move =>
    simp only [perform] at done
    split at done
    · rename_i handler there
      obtain ⟨next, stepped, same⟩ := Option.map_eq_some_iff.mp done
      cases same
      exact .handle there stepped
    · cases done
  | forward index written =>
    simp only [perform] at done
    split at done
    · rename_i handler there
      split at done
      · rename_i ch stage
        split at done
        · rename_i raw rest waiting
          cases done
          exact .forward there stage waiting
        · cases done
      · cases done
    · cases done
  | broadcast raw order =>
    simp only [perform] at done
    split at done
    · rename_i free
      split at done
      · rename_i each
        cases done
        exact .broadcast free (List.isPerm_iff.mp each)
      · cases done
    · cases done
  | send =>
    simp only [perform] at done
    split at done
    · rename_i raw ch rest busy
      unfold send at done
      split at done
      · rename_i slot
        cases done
        exact .kept busy slot
      · rename_i full
        cases done
        exact .lost busy (Nat.le_of_not_lt full)
    · cases done
  | release =>
    simp only [perform] at done
    split at done
    · rename_i raw busy
      cases done
      exact .release busy
    · cases done

theorem buffer_set (hub : Hub Raw) {ch : Nat} (known : ch < hub.channels.length)
    (waiting : List Raw) (other : Nat) :
    { hub with channels := hub.channels.set ch waiting }.buffer other =
      if other = ch then waiting else hub.buffer other := by
  unfold buffer
  by_cases same : other = ch
  · subst same
    simp [known]
  · simp [List.getElem?_set_ne (Ne.symm same), same]

/-! ### Subscriptions -/

/-- The subscribers are the channels of the handlers that listen, each its own, a broadcast
visits each of them once, and no channel holds more than its slots. -/
structure Sound (hub : Hub Raw) : Prop where
  distinct : hub.subs.Nodup
  bounded : ∀ ch, (hub.buffer ch).length ≤ channelSlots
  visits : ∀ raw rest, hub.visiting = some (raw, rest) →
    rest.Nodup ∧ ∀ ch ∈ rest, ch ∈ hub.subs
  known : ∀ (index : Nat) (handler : EventsHandler Raw) (ch : Nat),
    hub.handlers[index]? = some handler → handler.stage.ch = some ch → ch < hub.channels.length
  owned : ∀ (index : Nat) (handler : EventsHandler Raw) (ch : Nat),
    hub.handlers[index]? = some handler → handler.stage.ch = some ch →
    (ch ∈ hub.subs ↔ handler.stage.listening = true)
  single : ∀ (first second : Nat) (one other : EventsHandler Raw) (ch : Nat),
    hub.handlers[first]? = some one → hub.handlers[second]? = some other →
    one.stage.ch = some ch → other.stage.ch = some ch → first = second
  served : ∀ ch ∈ hub.subs, ∃ (index : Nat) (handler : EventsHandler Raw),
    hub.handlers[index]? = some handler ∧ handler.stage.ch = some ch
  greeted : ∀ handler ∈ hub.handlers, handler.Greeted

theorem Sound.exists_channel (sound : hub.Sound) {ch : Nat} (member : ch ∈ hub.subs) :
    ch < hub.channels.length := by
  obtain ⟨index, handler, there, holds⟩ := sound.served ch member
  exact sound.known index handler ch there holds

theorem sound_NewHub : (NewHub : Hub Raw).Sound where
  distinct := List.nodup_nil
  bounded ch := by simp [buffer, NewHub]
  visits := by simp [NewHub]
  known := by simp [NewHub]
  owned := by simp [NewHub]
  single := by simp [NewHub]
  served := by simp [NewHub]
  greeted := by simp [NewHub]

/-- A handler that goes on with its channel and its subscription. -/
theorem Sound.setHandler (sound : hub.Sound) {index : Nat} {handler next : EventsHandler Raw}
    (there : hub.handlers[index]? = some handler) (ch : next.stage.ch = handler.stage.ch)
    (listening : next.stage.listening = handler.stage.listening) (greeted : next.Greeted) :
    (hub.setHandler index next).Sound := by
  have older : ∀ (place : Nat) (found : EventsHandler Raw) (number : Nat),
      (hub.handlers.set index next)[place]? = some found → found.stage.ch = some number →
      ∃ old, hub.handlers[place]? = some old ∧ old.stage.ch = some number ∧
        old.stage.listening = found.stage.listening := by
    intro place found number at_place holds
    rcases getElem?_set_cases at_place with ⟨rfl, rfl⟩ | ⟨-, before⟩
    · exact ⟨handler, there, ch ▸ holds, listening.symm⟩
    · exact ⟨found, before, holds, rfl⟩
  refine ⟨sound.distinct, sound.bounded, sound.visits, ?_, ?_, ?_, ?_, ?_⟩
  · intro place found number at_place holds
    obtain ⟨old, before, held, -⟩ := older place found number at_place holds
    exact sound.known place old number before held
  · intro place found number at_place holds
    obtain ⟨old, before, held, same⟩ := older place found number at_place holds
    rw [← same]
    exact sound.owned place old number before held
  · intro first second one other number atFirst atSecond holds held
    obtain ⟨oldOne, beforeOne, heldOne, -⟩ := older first one number atFirst holds
    obtain ⟨oldOther, beforeOther, heldOther, -⟩ := older second other number atSecond held
    exact sound.single first second oldOne oldOther number beforeOne beforeOther heldOne heldOther
  · intro number member
    obtain ⟨place, found, at_place, holds⟩ := sound.served number member
    by_cases same : index = place
    · subst same
      cases there.symm.trans at_place
      exact ⟨index, next, List.getElem?_set_self (List.getElem?_eq_some_iff.mp there).1,
        ch.trans holds⟩
    · exact ⟨place, found, (List.getElem?_set_ne same).trans at_place, holds⟩
  · intro found member
    rcases List.mem_or_eq_of_mem_set member with old | rfl
    · exact sound.greeted found old
    · exact greeted

/-- A channel that is filled within its slots. -/
theorem Sound.setChannel (sound : hub.Sound) {ch : Nat} (known : ch < hub.channels.length)
    {waiting : List Raw} (within : waiting.length ≤ channelSlots) :
    { hub with channels := hub.channels.set ch waiting }.Sound where
  distinct := sound.distinct
  bounded other := by
    rw [hub.buffer_set known]
    split
    · exact within
    · exact sound.bounded other
  visits := sound.visits
  known index handler number there holds := by
    rw [List.length_set]
    exact sound.known index handler number there holds
  owned := sound.owned
  single := sound.single
  served := sound.served
  greeted := sound.greeted

/-- A broadcast that moves on. -/
theorem Sound.setVisiting (sound : hub.Sound) {visiting : Option (Raw × List Nat)}
    (visits : ∀ raw rest, visiting = some (raw, rest) →
      rest.Nodup ∧ ∀ ch ∈ rest, ch ∈ hub.subs) :
    { hub with visiting }.Sound :=
  ⟨sound.distinct, sound.bounded, visits, sound.known, sound.owned, sound.single, sound.served,
    sound.greeted⟩

theorem Sound.upgrade (sound : hub.Sound) :
    { hub with handlers := hub.handlers ++ [EventsHandler.arrived] }.Sound := by
  have older : ∀ (place : Nat) (found : EventsHandler Raw) (ch : Nat),
      (hub.handlers ++ [EventsHandler.arrived])[place]? = some found →
      found.stage.ch = some ch → hub.handlers[place]? = some found := by
    intro place found ch there holds
    rcases getElem?_concat_cases there with old | ⟨-, rfl⟩
    · exact old
    · cases holds
  refine ⟨sound.distinct, sound.bounded, sound.visits, ?_, ?_, ?_, ?_, ?_⟩
  · intro place found ch there holds
    exact sound.known place found ch (older place found ch there holds) holds
  · intro place found ch there holds
    exact sound.owned place found ch (older place found ch there holds) holds
  · intro first second one other ch atFirst atSecond holds held
    exact sound.single first second one other ch (older first one ch atFirst holds)
      (older second other ch atSecond held) holds held
  · intro ch member
    obtain ⟨place, found, there, holds⟩ := sound.served ch member
    exact ⟨place, found, getElem?_concat_left there, holds⟩
  · intro found member
    rcases List.mem_append.mp member with old | new
    · exact sound.greeted found old
    · rw [List.mem_singleton.mp new]
      exact ⟨rfl, rfl⟩

/-- A handler subscribes a channel that nobody has. -/
theorem Sound.subscribe (sound : hub.Sound) (free : hub.visiting = none) {index : Nat}
    {handler : EventsHandler Raw} (there : hub.handlers[index]? = some handler)
    (stage : handler.stage = .upgraded) : (hub.Subscribe index handler).Sound := by
  have fresh : ∀ (place : Nat) (found : EventsHandler Raw) (ch : Nat),
      hub.handlers[place]? = some found → found.stage.ch = some ch →
      ch ≠ hub.channels.length := fun place found ch at_place holds =>
    Nat.ne_of_lt (sound.known place found ch at_place holds)
  refine ⟨?_, ?_, ?_, ?_, ?_, ?_, ?_, ?_⟩
  · refine List.nodup_append.mpr ⟨sound.distinct, List.pairwise_singleton _ _, ?_⟩
    intro ch member other new
    rw [List.mem_singleton.mp new]
    exact Nat.ne_of_lt (sound.exists_channel member)
  · intro ch
    change (((hub.channels ++ [[]])[ch]?).getD []).length ≤ channelSlots
    rw [List.getElem?_append]
    split
    · exact sound.bounded ch
    · cases ch - hub.channels.length <;> exact Nat.zero_le _
  · intro raw rest busy
    rw [show (hub.Subscribe index handler).visiting = none from free] at busy
    cases busy
  · intro place found ch at_place holds
    change ch < (hub.channels ++ [[]]).length
    rw [List.length_append, List.length_singleton]
    rcases getElem?_set_cases at_place with ⟨-, rfl⟩ | ⟨-, before⟩
    · cases holds
      exact Nat.lt_succ_self _
    · exact Nat.lt_succ_of_lt (sound.known place found ch before holds)
  · intro place found ch at_place holds
    change ch ∈ hub.subs ++ [hub.channels.length] ↔ _
    rw [List.mem_append, List.mem_singleton]
    rcases getElem?_set_cases at_place with ⟨-, rfl⟩ | ⟨-, before⟩
    · cases holds
      exact ⟨fun _ => rfl, fun _ => .inr rfl⟩
    · rw [or_iff_left (fresh place found ch before holds)]
      exact sound.owned place found ch before holds
  · intro first second one other ch atFirst atSecond holds held
    rcases getElem?_set_cases atFirst with ⟨rfl, rfl⟩ | ⟨-, beforeOne⟩ <;>
      rcases getElem?_set_cases atSecond with ⟨rfl, rfl⟩ | ⟨-, beforeOther⟩
    · rfl
    · cases holds
      exact absurd rfl (fresh second other _ beforeOther held)
    · cases held
      exact absurd rfl (fresh first one _ beforeOne holds)
    · exact sound.single first second one other ch beforeOne beforeOther holds held
  · intro ch member
    rcases List.mem_append.mp member with old | new
    · obtain ⟨place, found, at_place, holds⟩ := sound.served ch old
      have different : index ≠ place := by
        rintro rfl
        cases there.symm.trans at_place
        rw [stage] at holds
        cases holds
      exact ⟨place, found, (List.getElem?_set_ne different).trans at_place, holds⟩
    · rw [List.mem_singleton.mp new]
      exact ⟨index, { handler with stage := .subscribed hub.channels.length },
        List.getElem?_set_self (List.getElem?_eq_some_iff.mp there).1, rfl⟩
  · intro found member
    rcases List.mem_or_eq_of_mem_set member with old | rfl
    · exact sound.greeted found old
    · have before := sound.greeted handler (List.mem_of_getElem? there)
      unfold EventsHandler.Greeted at before ⊢
      rw [stage] at before
      exact before

theorem Sound.unsubscribe (sound : hub.Sound) (free : hub.visiting = none) {index ch : Nat}
    {handler : EventsHandler Raw} (there : hub.handlers[index]? = some handler)
    (stage : handler.stage = .returning ch) : (hub.Unsubscribe index ch handler).Sound := by
  have mine : handler.stage.ch = some ch := by
    rw [stage]
    rfl
  refine ⟨sound.distinct.filter _, sound.bounded, ?_, ?_, ?_, ?_, ?_, ?_⟩
  · intro raw rest busy
    rw [show (hub.Unsubscribe index ch handler).visiting = none from free] at busy
    cases busy
  · intro place found number at_place holds
    rcases getElem?_set_cases at_place with ⟨-, rfl⟩ | ⟨-, before⟩
    · cases holds
      exact sound.known index handler ch there mine
    · exact sound.known place found number before holds
  · intro place found number at_place holds
    change number ∈ hub.subs.filter (· ≠ ch) ↔ _
    rw [List.mem_filter, decide_eq_true_iff]
    rcases getElem?_set_cases at_place with ⟨-, rfl⟩ | ⟨different, before⟩
    · cases holds
      exact ⟨fun kept => absurd rfl kept.2, nofun⟩
    · rw [and_iff_left]
      · exact sound.owned place found number before holds
      · rintro rfl
        exact different (sound.single place index found handler number before there holds mine)
  · intro first second one other number atFirst atSecond holds held
    rcases getElem?_set_cases atFirst with ⟨rfl, rfl⟩ | ⟨-, beforeOne⟩ <;>
      rcases getElem?_set_cases atSecond with ⟨rfl, rfl⟩ | ⟨-, beforeOther⟩
    · rfl
    · cases holds
      exact sound.single _ _ _ _ ch there beforeOther mine held
    · cases held
      exact sound.single _ _ _ _ ch beforeOne there holds mine
    · exact sound.single _ _ _ _ number beforeOne beforeOther holds held
  · intro number member
    obtain ⟨old, kept⟩ := List.mem_filter.mp member
    obtain ⟨place, found, at_place, holds⟩ := sound.served number old
    have different : index ≠ place := by
      rintro rfl
      cases there.symm.trans at_place
      cases mine.symm.trans holds
      simp at kept
    exact ⟨place, found, (List.getElem?_set_ne different).trans at_place, holds⟩
  · intro found member
    rcases List.mem_or_eq_of_mem_set member with old | rfl
    · exact sound.greeted found old
    · have before := sound.greeted handler (List.mem_of_getElem? there)
      unfold EventsHandler.Greeted at before ⊢
      rw [stage] at before
      exact before

theorem Sound.does {event : Option (HubEvent Raw)} (sound : hub.Sound)
    (done : hub.Does after event) : after.Sound := by
  cases done with
  | upgrade => exact sound.upgrade
  | subscribe free there stage => exact sound.subscribe free there stage
  | unsubscribe free there stage => exact sound.unsubscribe free there stage
  | handle there stepped =>
    obtain ⟨ch, listening, -⟩ := EventsHandler.step_keeps stepped
    exact sound.setHandler there ch listening
      ((sound.greeted _ (List.mem_of_getElem? there)).step stepped)
  | @forward index ch handler raw rest written there stage waiting =>
    have mine : handler.stage.ch = some ch := by
      rw [stage]
      rfl
    have shorter : rest.length ≤ channelSlots := by
      have whole := sound.bounded ch
      rw [waiting, List.length_cons] at whole
      exact Nat.le_of_succ_le whole
    obtain ⟨same, listening, -⟩ := EventsHandler.serve_keeps stage (.event raw) written
    refine (sound.setChannel (sound.known index handler ch there mine) shorter).setHandler there
      (same.trans mine.symm) ?_ ?_
    · rw [listening, stage]
      rfl
    · exact (sound.greeted handler (List.mem_of_getElem? there)).serve stage rfl written
  | broadcast free each =>
    refine sound.setVisiting ?_
    intro raw rest busy
    cases busy
    exact ⟨each.nodup_iff.mpr sound.distinct, fun ch member => each.mem_iff.mp member⟩
  | kept busy slot =>
    obtain ⟨distinct, subs⟩ := sound.visits _ _ busy
    have known := sound.exists_channel (subs _ List.mem_cons_self)
    refine (sound.setChannel known (by simpa using Nat.succ_le_of_lt slot)).setVisiting ?_
    intro raw rest still
    cases still
    exact ⟨distinct.of_cons, fun ch member => subs ch (List.mem_cons_of_mem _ member)⟩
  | lost busy full =>
    obtain ⟨distinct, subs⟩ := sound.visits _ _ busy
    refine sound.setVisiting ?_
    intro raw rest still
    cases still
    exact ⟨distinct.of_cons, fun ch member => subs ch (List.mem_cons_of_mem _ member)⟩
  | release busy =>
    refine sound.setVisiting ?_
    intro raw rest still
    cases still

end Hub

/-! ### Runs -/

theorem Hub.sound_run {actions : List (HubAction Raw)} {final : Hub Raw}
    (run : Run Hub.step anything NewHub actions final) : final.Sound := by
  refine run.invariant Hub.Sound Hub.sound_NewHub ?_
  intro hub action next sound _ taken
  obtain ⟨⟨after, event⟩, done, rfl⟩ := Option.map_eq_some_iff.mp taken
  exact sound.does (Hub.perform_cases done)

end Hub

end Multimux
