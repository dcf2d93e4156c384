/-
This file follows an event from its broadcast to the sockets. A run of the hub
is put on record, and every handler's socket is compared with the record: what
it carried and what waits in its channel are the broadcasts since it
subscribed, in their order, less those that met a full channel. A broadcast
always gets to its end, whatever the handlers do, and a handler that is done
leaves nothing behind.
-/

import Multimux.Hub
import Mathlib.Data.List.TakeWhile

namespace Multimux

section Delivery

variable {Raw : Type*}

/-! ### The record of a run -/

/-- The visit of a broadcast to a channel, with whether it found a slot. -/
def HubEvent.visitOf (ch : Nat) : HubEvent Raw → Option (Raw × Bool)
  | .sent other raw kept => if other = ch then some (raw, kept) else none
  | _ => none

/-- What a broadcast begins to send. -/
def HubEvent.raw? : HubEvent Raw → Option Raw
  | .begun raw => some raw
  | _ => none

/-- The event is the subscription of the channel. -/
def HubEvent.opens (ch : Nat) : HubEvent Raw → Bool
  | .subscribed other => other = ch
  | _ => false

/-- What the actions put on record, starting with a new hub. -/
def Hub.record (actions : List (HubAction Raw)) : List (HubEvent Raw) :=
  (outputs Hub.perform NewHub actions).filterMap Prod.snd

/-- The visits to a channel. -/
def visitsTo (ch : Nat) (events : List (HubEvent Raw)) : List (Raw × Bool) :=
  events.filterMap (HubEvent.visitOf ch)

/-- What was put into a channel. -/
def keptBy (ch : Nat) (events : List (HubEvent Raw)) : List Raw :=
  ((visitsTo ch events).filter Prod.snd).map Prod.fst

/-- What was broadcast since a channel was subscribed. -/
def broadcastSince (ch : Nat) (events : List (HubEvent Raw)) : List Raw :=
  (events.dropWhile fun event => !event.opens ch).filterMap HubEvent.raw?

/-- What the broadcast that holds the mutex has still to send to a channel. -/
def Hub.awaited (hub : Hub Raw) (ch : Nat) : List Raw :=
  match hub.visiting with
  | some (raw, rest) => if ch ∈ rest then [raw] else []
  | none => []

theorem Hub.record_snoc {actions : List (HubAction Raw)} {hub after : Hub Raw}
    {action : HubAction Raw} {event : Option (HubEvent Raw)}
    (run : Run Hub.step anything NewHub actions hub)
    (done : hub.perform action = some (after, event)) :
    Hub.record (actions ++ [action]) = Hub.record actions ++ event.toList := by
  unfold Hub.record
  rw [outputs_append run, List.filterMap_append]
  cases event <;> simp [outputs, done]

theorem visitsTo_append (ch : Nat) (events later : List (HubEvent Raw)) :
    visitsTo ch (events ++ later) = visitsTo ch events ++ visitsTo ch later :=
  List.filterMap_append

theorem keptBy_append (ch : Nat) (events later : List (HubEvent Raw)) :
    keptBy ch (events ++ later) = keptBy ch events ++ keptBy ch later := by
  unfold keptBy
  rw [visitsTo_append, List.filter_append, List.map_append]

/-- Once a channel is subscribed, every broadcast counts. -/
theorem broadcastSince_append {ch : Nat} {events : List (HubEvent Raw)}
    (opened : ∃ event ∈ events, event.opens ch = true) (later : List (HubEvent Raw)) :
    broadcastSince ch (events ++ later) =
      broadcastSince ch events ++ later.filterMap HubEvent.raw? := by
  unfold broadcastSince
  rw [List.dropWhile_append, if_neg, List.filterMap_append]
  rw [List.isEmpty_iff, List.dropWhile_eq_nil_iff]
  intro never
  obtain ⟨event, member, opens⟩ := opened
  have not := never event member
  rw [opens] at not
  cases not

theorem broadcastSince_subscribed {ch : Nat} {events : List (HubEvent Raw)}
    (never : ∀ event ∈ events, event.opens ch = false) :
    broadcastSince ch (events ++ [.subscribed ch]) = [] := by
  have dropped : events.dropWhile (fun event => !event.opens ch) = [] := by
    rw [List.dropWhile_eq_nil_iff]
    intro event member
    rw [never event member]
    rfl
  unfold broadcastSince
  rw [List.dropWhile_append, dropped]
  simp [HubEvent.opens, HubEvent.raw?]

/-! ### From the record to the sockets -/

/-- The record and the hub agree: what was sent to a subscriber and what the broadcast under way
has still to send to it is what was broadcast since it subscribed, and what its socket carried
and what waits for it is what was put into its channel. -/
structure Hub.Delivered (hub : Hub Raw) (events : List (HubEvent Raw)) : Prop where
  fresh : ∀ ch, hub.channels.length ≤ ch →
    visitsTo ch events = [] ∧ ∀ event ∈ events, event.opens ch = false
  opened : ∀ ch ∈ hub.subs, ∃ event ∈ events, event.opens ch = true
  since : ∀ ch ∈ hub.subs,
    (visitsTo ch events).map Prod.fst ++ hub.awaited ch = broadcastSince ch events
  carried : ∀ handler ∈ hub.handlers, ∀ ch, handler.stage.ch = some ch →
    handler.events <+: keptBy ch events
  flows : ∀ handler ∈ hub.handlers, ∀ ch, handler.stage.ch = some ch →
    handler.stage.draining = true → handler.events ++ hub.buffer ch = keptBy ch events

namespace Hub

variable {hub after : Hub Raw} {events : List (HubEvent Raw)}

theorem delivered_NewHub : (NewHub : Hub Raw).Delivered [] where
  fresh ch _ := ⟨rfl, by simp⟩
  opened := by simp [NewHub]
  since := by simp [NewHub]
  carried := by simp [NewHub]
  flows := by simp [NewHub]

/-- A handler that writes no event. -/
theorem Delivered.setHandler (delivered : hub.Delivered events) {index : Nat}
    {handler next : EventsHandler Raw} (there : hub.handlers[index]? = some handler)
    (ch : next.stage.ch = handler.stage.ch)
    (draining : next.stage.draining = true → handler.stage.draining = true)
    (carried : next.events = handler.events) :
    (hub.setHandler index next).Delivered events := by
  have member := List.mem_of_getElem? there
  refine ⟨delivered.fresh, delivered.opened, delivered.since, ?_, ?_⟩
  · intro found present number holds
    rcases List.mem_or_eq_of_mem_set present with old | rfl
    · exact delivered.carried found old number holds
    · rw [carried]
      exact delivered.carried handler member number (ch ▸ holds)
  · intro found present number holds drains
    rcases List.mem_or_eq_of_mem_set present with old | rfl
    · exact delivered.flows found old number holds drains
    · rw [carried]
      exact delivered.flows handler member number (ch ▸ holds) (draining drains)

theorem Delivered.subscribe (delivered : hub.Delivered events) (sound : hub.Sound)
    (free : hub.visiting = none) {index : Nat} {handler : EventsHandler Raw}
    (there : hub.handlers[index]? = some handler) (stage : handler.stage = .upgraded) :
    (hub.Subscribe index handler).Delivered (events ++ [.subscribed hub.channels.length]) := by
  obtain ⟨unvisited, unopened⟩ := delivered.fresh hub.channels.length le_rfl
  have visits : ∀ ch, visitsTo ch (events ++ [.subscribed hub.channels.length]) =
      visitsTo ch events := by
    intro ch
    rw [visitsTo_append]
    exact List.append_nil _
  have kept : ∀ ch, keptBy ch (events ++ [.subscribed hub.channels.length]) =
      keptBy ch events := by
    intro ch
    rw [keptBy_append]
    exact List.append_nil _
  have idle : ∀ ch, (hub.Subscribe index handler).awaited ch = [] := by
    intro ch
    unfold awaited
    rw [show (hub.Subscribe index handler).visiting = none from free]
  have silent : handler.events = [] := by
    have greeted := sound.greeted handler (List.mem_of_getElem? there)
    unfold EventsHandler.Greeted at greeted
    rw [stage] at greeted
    unfold EventsHandler.events
    rw [greeted.1]
    rfl
  have older : ∀ (place : Nat) (found : EventsHandler Raw) (ch : Nat),
      (hub.Subscribe index handler).handlers[place]? = some found → found.stage.ch = some ch →
      hub.handlers[place]? = some found ∧ ch < hub.channels.length ∨
        found.events = [] ∧ ch = hub.channels.length := by
    intro place found ch at_place holds
    rcases getElem?_set_cases at_place with ⟨-, rfl⟩ | ⟨-, before⟩
    · cases holds
      exact .inr ⟨silent, rfl⟩
    · exact .inl ⟨before, sound.known place found ch before holds⟩
  refine ⟨?_, ?_, ?_, ?_, ?_⟩
  · intro ch beyond
    have longer : hub.channels.length < ch := by
      simpa [Subscribe, Hub.setHandler, Nat.succ_le_iff] using beyond
    obtain ⟨none, never⟩ := delivered.fresh ch longer.le
    refine ⟨(visits ch).trans none, ?_⟩
    intro event member
    rcases List.mem_append.mp member with old | new
    · exact never event old
    · rw [List.mem_singleton.mp new]
      exact decide_eq_false (Nat.ne_of_lt longer)
  · intro ch member
    rcases List.mem_append.mp member with old | new
    · obtain ⟨event, present, opens⟩ := delivered.opened ch old
      exact ⟨event, List.mem_append_left _ present, opens⟩
    · rw [List.mem_singleton.mp new]
      exact ⟨_, List.mem_append_right _ (List.mem_singleton_self _), decide_eq_true rfl⟩
  · intro ch member
    rw [visits, idle, List.append_nil]
    rcases List.mem_append.mp member with old | new
    · have before := delivered.since ch old
      rw [awaited, free, List.append_nil] at before
      rw [before, broadcastSince_append (delivered.opened ch old)]
      exact (List.append_nil _).symm
    · rw [List.mem_singleton.mp new, unvisited, broadcastSince_subscribed unopened]
      rfl
  · intro found present ch holds
    obtain ⟨place, at_place⟩ := List.getElem?_of_mem present
    rw [kept]
    rcases older place found ch at_place holds with ⟨before, -⟩ | ⟨nothing, -⟩
    · exact delivered.carried found (List.mem_of_getElem? before) ch holds
    · rw [nothing]
      exact List.nil_prefix
  · intro found present ch holds draining
    obtain ⟨place, at_place⟩ := List.getElem?_of_mem present
    rw [kept]
    rcases older place found ch at_place holds with ⟨before, known⟩ | ⟨nothing, rfl⟩
    · have same : (hub.Subscribe index handler).buffer ch = hub.buffer ch := by
        change ((hub.channels ++ [[]])[ch]?).getD [] = _
        rw [List.getElem?_append_left known]
        rfl
      rw [same]
      exact delivered.flows found (List.mem_of_getElem? before) ch holds draining
    · have empty : (hub.Subscribe index handler).buffer hub.channels.length = [] := by
        change ((hub.channels ++ [[]])[hub.channels.length]?).getD [] = _
        simp
      rw [nothing, empty, keptBy, unvisited]
      rfl

theorem Delivered.forward (delivered : hub.Delivered events) (sound : hub.Sound) {index ch : Nat}
    {handler : EventsHandler Raw} {raw : Raw} {rest : List Raw} (written : Bool)
    (there : hub.handlers[index]? = some handler) (stage : handler.stage = .serving ch)
    (waiting : hub.buffer ch = raw :: rest) :
    ({ hub with channels := hub.channels.set ch rest }.setHandler index
      (handler.serve ch (.event raw) written)).Delivered events := by
  have mine : handler.stage.ch = some ch := by
    rw [stage]
    rfl
  have member := List.mem_of_getElem? there
  have known := sound.known index handler ch there mine
  obtain ⟨same, -, outcome⟩ := EventsHandler.serve_keeps stage (.event raw) written
  refine ⟨?_, delivered.opened, delivered.since, ?_, ?_⟩
  · intro number beyond
    change (hub.channels.set ch rest).length ≤ number at beyond
    rw [List.length_set] at beyond
    exact delivered.fresh number beyond
  · intro found present number holds
    rcases List.mem_or_eq_of_mem_set present with old | rfl
    · exact delivered.carried found old number holds
    · cases holds.symm.trans same
      rcases outcome with ⟨-, wire⟩ | ⟨-, wire⟩
      · have flows := delivered.flows handler member ch mine (by rw [stage]; rfl)
        rw [waiting] at flows
        refine ⟨rest, ?_⟩
        rw [← flows, EventsHandler.events, wire]
        simp [EventsHandler.events, EventFrame.raw?]
      · rw [EventsHandler.events, wire]
        exact delivered.carried handler member ch mine
  · intro found present number holds draining
    change found.events ++ { hub with channels := hub.channels.set ch rest }.buffer number = _
    rw [hub.buffer_set known]
    obtain ⟨place, at_place⟩ := List.getElem?_of_mem present
    rcases getElem?_set_cases at_place with ⟨-, rfl⟩ | ⟨different, before⟩
    · cases holds.symm.trans same
      rcases outcome with ⟨-, wire⟩ | ⟨stopped, -⟩
      · have flows := delivered.flows handler member ch mine (by rw [stage]; rfl)
        rw [waiting] at flows
        rw [if_pos rfl, ← flows, EventsHandler.events, wire]
        simp [EventsHandler.events, EventFrame.raw?]
      · rw [stopped] at draining
        cases draining
    · rw [if_neg]
      · exact delivered.flows found (List.mem_of_getElem? before) number holds draining
      · rintro rfl
        exact different (sound.single place index found handler number before there holds mine)

/-- A broadcast begins: it is due to every subscriber. -/
theorem Delivered.broadcast (delivered : hub.Delivered events) (free : hub.visiting = none)
    {raw : Raw} {order : List Nat} (each : order.Perm hub.subs) :
    { hub with visiting := some (raw, order) }.Delivered (events ++ [HubEvent.begun raw]) := by
  have visits : ∀ ch, visitsTo ch (events ++ [HubEvent.begun raw]) = visitsTo ch events := by
    intro ch
    rw [visitsTo_append]
    exact List.append_nil _
  have kept : ∀ ch, keptBy ch (events ++ [HubEvent.begun raw]) = keptBy ch events := by
    intro ch
    rw [keptBy_append]
    exact List.append_nil _
  refine ⟨?_, ?_, ?_, ?_, ?_⟩
  · intro ch beyond
    obtain ⟨none, never⟩ := delivered.fresh ch beyond
    refine ⟨(visits ch).trans none, ?_⟩
    intro event member
    rcases List.mem_append.mp member with old | new
    · exact never event old
    · rw [List.mem_singleton.mp new]
      rfl
  · intro ch member
    obtain ⟨event, present, opens⟩ := delivered.opened ch member
    exact ⟨event, List.mem_append_left _ present, opens⟩
  · intro ch member
    have before := delivered.since ch member
    rw [awaited, free, List.append_nil] at before
    rw [visits, before, broadcastSince_append (delivered.opened ch member)]
    simp only [awaited]
    rw [if_pos (each.mem_iff.mpr member)]
    rfl
  · intro handler present ch holds
    rw [kept]
    exact delivered.carried handler present ch holds
  · intro handler present ch holds draining
    rw [kept]
    exact delivered.flows handler present ch holds draining

/-- A broadcast visits a subscriber: the channel takes the event in or is left as it is. -/
theorem Delivered.send (delivered : hub.Delivered events) (sound : hub.Sound) {raw : Raw}
    {ch : Nat} {rest : List Nat} (busy : hub.visiting = some (raw, ch :: rest)) (slot : Bool)
    {channels : List (List Raw)} (size : channels.length = hub.channels.length)
    (filled : ∀ number, (channels[number]?).getD [] =
      if number = ch ∧ slot = true then hub.buffer ch ++ [raw] else hub.buffer number) :
    { hub with channels, visiting := some (raw, rest) }.Delivered
      (events ++ [HubEvent.sent ch raw slot]) := by
  obtain ⟨distinct, subs⟩ := sound.visits raw (ch :: rest) busy
  have visited : ch ∉ rest := (List.nodup_cons.mp distinct).1
  have opens : ∀ number, (∀ event ∈ events, event.opens number = false) →
      ∀ event ∈ events ++ [HubEvent.sent ch raw slot], event.opens number = false := by
    intro number never event member
    rcases List.mem_append.mp member with old | new
    · exact never event old
    · rw [List.mem_singleton.mp new]
      rfl
  have others : ∀ number, number ≠ ch →
      visitsTo number (events ++ [HubEvent.sent ch raw slot]) = visitsTo number events := by
    intro number different
    rw [visitsTo_append]
    simp [visitsTo, HubEvent.visitOf, Ne.symm different]
  have here : visitsTo ch (events ++ [HubEvent.sent ch raw slot]) =
      visitsTo ch events ++ [(raw, slot)] := by
    rw [visitsTo_append]
    simp [visitsTo, HubEvent.visitOf]
  have kept : ∀ number, keptBy number (events ++ [HubEvent.sent ch raw slot]) =
      keptBy number events ++ if number = ch ∧ slot = true then [raw] else [] := by
    intro number
    by_cases same : number = ch
    · subst same
      unfold keptBy
      rw [here]
      cases slot <;> simp
    · unfold keptBy
      rw [others number same]
      simp [same]
  refine ⟨?_, ?_, ?_, ?_, ?_⟩
  · intro number beyond
    obtain ⟨none, never⟩ := delivered.fresh number (size ▸ beyond)
    refine ⟨?_, opens number never⟩
    rw [others, none]
    rintro rfl
    have known := sound.exists_channel (subs number List.mem_cons_self)
    exact absurd (size ▸ beyond) (Nat.not_le_of_lt known)
  · intro number member
    obtain ⟨event, present, open'⟩ := delivered.opened number member
    exact ⟨event, List.mem_append_left _ present, open'⟩
  · intro number member
    have before := delivered.since number member
    rw [broadcastSince_append (delivered.opened number member), ← before]
    simp only [awaited, busy, List.mem_cons]
    by_cases same : number = ch
    · subst same
      rw [here]
      simp [visited, HubEvent.raw?]
    · rw [others number same]
      simp [same, HubEvent.raw?]
  · intro handler present number holds
    rw [kept]
    exact (delivered.carried handler present number holds).trans (List.prefix_append _ _)
  · intro handler present number holds draining
    have before := delivered.flows handler present number holds draining
    change handler.events ++ (channels[number]?).getD [] = _
    rw [filled, kept, ← before]
    split
    · rename_i same
      rw [same.1, List.append_assoc]
    · rw [List.append_nil]

theorem Delivered.release (delivered : hub.Delivered events) {raw : Raw}
    (busy : hub.visiting = some (raw, [])) :
    { hub with visiting := none }.Delivered events := by
  refine ⟨delivered.fresh, delivered.opened, ?_, delivered.carried, delivered.flows⟩
  intro ch member
  rw [← delivered.since ch member, awaited, awaited, busy]
  simp

theorem Delivered.does {event : Option (HubEvent Raw)} (delivered : hub.Delivered events)
    (sound : hub.Sound) (done : hub.Does after event) :
    after.Delivered (events ++ event.toList) := by
  cases done with
  | upgrade =>
    rw [Option.toList_none, List.append_nil]
    refine ⟨delivered.fresh, delivered.opened, delivered.since, ?_, ?_⟩
    · intro handler member ch holds
      rcases List.mem_append.mp member with old | new
      · exact delivered.carried handler old ch holds
      · rw [List.mem_singleton.mp new] at holds
        cases holds
    · intro handler member ch holds
      rcases List.mem_append.mp member with old | new
      · exact delivered.flows handler old ch holds
      · rw [List.mem_singleton.mp new] at holds
        cases holds
  | subscribe free there stage => exact delivered.subscribe sound free there stage
  | @unsubscribe index ch handler free there stage =>
    rw [Option.toList_none, List.append_nil]
    have kept : (hub.setHandler index { handler with stage := .unsubscribed ch }).Delivered
        events := delivered.setHandler there (by rw [stage]; rfl) nofun rfl
    exact ⟨kept.fresh, fun ch member => kept.opened ch (List.mem_filter.mp member).1,
      fun ch member => kept.since ch (List.mem_filter.mp member).1, kept.carried, kept.flows⟩
  | handle there stepped =>
    rw [Option.toList_none, List.append_nil]
    obtain ⟨ch, -, draining, carried⟩ := EventsHandler.step_keeps stepped
    exact delivered.setHandler there ch draining carried
  | forward there stage waiting =>
    rw [Option.toList_none, List.append_nil]
    exact delivered.forward sound _ there stage waiting
  | broadcast free each => exact delivered.broadcast free each
  | @kept raw ch rest busy slot =>
    have known := sound.exists_channel ((sound.visits _ _ busy).2 ch List.mem_cons_self)
    refine delivered.send sound busy true List.length_set ?_
    intro number
    exact (hub.buffer_set known _ number).trans (by simp)
  | lost busy full =>
    refine delivered.send sound busy false rfl ?_
    intro number
    simp [buffer]
  | release busy =>
    rw [Option.toList_none, List.append_nil]
    exact delivered.release busy

/-- The record of a run agrees with the hub it led to. -/
theorem delivered_run {actions : List (HubAction Raw)} {final : Hub Raw}
    (run : Run Hub.step anything NewHub actions final) :
    final.Delivered (record actions) := by
  refine run.history (fun actions hub => hub.Delivered (record actions)) delivered_NewHub ?_
  intro actions hub action next before delivered _ taken
  obtain ⟨⟨after, event⟩, done, rfl⟩ := Option.map_eq_some_iff.mp taken
  rw [record_snoc before done]
  exact delivered.does (sound_run before) (perform_cases done)

/-- What an events socket carries. The hello comes first; the events are those put into the
channel, in order, and while the handler drains it they and what waits there are all of them.
While it is subscribed, the visits to its channel and the one due are the broadcasts since it
subscribed, each once and in order, and a visit loses its event exactly when all the slots of
that channel are taken. -/
theorem delivers_in_order {actions : List (HubAction Raw)} {final : Hub Raw}
    (run : Run Hub.step anything NewHub actions final) {handler : EventsHandler Raw}
    (member : handler ∈ final.handlers) {ch : Nat} (holds : handler.stage.ch = some ch) :
    handler.Greeted ∧ handler.events <+: keptBy ch (record actions) ∧
      (handler.stage.draining = true →
        handler.events ++ final.buffer ch = keptBy ch (record actions)) ∧
      (handler.stage.listening = true →
        (visitsTo ch (record actions)).map Prod.fst ++ final.awaited ch =
          broadcastSince ch (record actions)) ∧
      ∀ earlier later hub after raw slot, actions = earlier ++ .send :: later →
        Run Hub.step anything NewHub earlier hub →
        hub.perform .send = some (after, some (.sent ch raw slot)) →
        (slot = false ↔ (hub.buffer ch).length = channelSlots) := by
  have sound := sound_run run
  have delivered := delivered_run run
  obtain ⟨index, there⟩ := List.getElem?_of_mem member
  refine ⟨sound.greeted handler member, delivered.carried handler member ch holds,
    delivered.flows handler member ch holds, ?_, ?_⟩
  · intro listening
    exact delivered.since ch ((sound.owned index handler ch there holds).mpr listening)
  · intro earlier later hub after raw slot _ reached done
    have bounded := (sound_run reached).bounded ch
    have visit := perform_cases done
    generalize said : some (HubEvent.sent ch raw slot) = event at visit
    cases visit with
    | kept busy open' =>
      cases said
      exact ⟨nofun, fun full => absurd full (Nat.ne_of_lt open')⟩
    | lost busy full =>
      cases said
      exact ⟨fun _ => Nat.le_antisymm bounded full, fun _ => rfl⟩
    | _ => cases said

/-! ### The daemon is not wedged -/

/-- The visits that are left can be made one after another, with no handler's help. -/
theorem exec_sends (hub : Hub Raw) (raw : Raw) (rest : List Nat)
    (busy : hub.visiting = some (raw, rest)) :
    ∃ final, exec Hub.step hub (List.replicate rest.length .send ++ [.release]) = some final ∧
      final.visiting = none ∧ final.handlers = hub.handlers ∧ final.subs = hub.subs := by
  induction rest generalizing hub with
  | nil =>
    refine ⟨{ hub with visiting := none }, ?_, rfl, rfl, rfl⟩
    simp [exec, Hub.step, perform, busy]
  | cons ch rest inductionHypothesis =>
    have taken : Hub.step hub .send = some (hub.send raw ch rest).1 := by
      simp [Hub.step, perform, busy]
    have next : (hub.send raw ch rest).1.visiting = some (raw, rest) ∧
        (hub.send raw ch rest).1.handlers = hub.handlers ∧
        (hub.send raw ch rest).1.subs = hub.subs := by
      unfold Hub.send
      split <;> exact ⟨rfl, rfl, rfl⟩
    obtain ⟨final, done, free, handlers, subs⟩ := inductionHypothesis _ next.1
    refine ⟨final, ?_, free, handlers.trans next.2.1, subs.trans next.2.2⟩
    rw [List.length_cons, List.replicate_succ, List.cons_append, exec, taken]
    exact done

/-- With the mutex free, a handler whose reader has ended returns, unsubscribes and closes. -/
theorem run_teardown {index ch : Nat} {handler : EventsHandler Raw} (free : hub.visiting = none)
    (there : hub.handlers[index]? = some handler) (stage : handler.stage = .serving ch)
    (gone : handler.gone = true) :
    ∃ final, Run Hub.step anything hub
        [.handle index .leave, .unsubscribe index, .handle index .close] final ∧
      final.subs = hub.subs.filter (· ≠ ch) ∧
      final.handlers = hub.handlers.set index { handler with stage := .closed ch } := by
  have known := (List.getElem?_eq_some_iff.mp there).1
  have left : Hub.step hub (.handle index .leave) =
      some (hub.setHandler index { handler with stage := .returning ch }) := by
    simp only [Hub.step, perform, there, EventsHandler.step, stage, gone, if_true,
      Option.map_some]
  have unsubscribed : Hub.step (hub.setHandler index { handler with stage := .returning ch })
      (.unsubscribe index) = some ((hub.setHandler index
        { handler with stage := .returning ch }).Unsubscribe index ch
          { handler with stage := .returning ch }) := by
    simp only [Hub.step, perform, setHandler, free, List.getElem?_set_self known, Option.map_some]
  have closed : Hub.step ((hub.setHandler index
      { handler with stage := .returning ch }).Unsubscribe index ch
        { handler with stage := .returning ch }) (.handle index .close) =
      some { hub with
        subs := hub.subs.filter (· ≠ ch)
        handlers := hub.handlers.set index { handler with stage := .closed ch } } := by
    simp only [Hub.step, perform, setHandler, Unsubscribe, List.set_set,
      List.getElem?_set_self known, EventsHandler.step, Option.map_some]
  exact ⟨_, ((Run.nil.snoc trivial left).snoc trivial unsubscribed).snoc trivial closed, rfl, rfl⟩

/-- The subscribers are the channels of the handlers that listen, each of them once. A broadcast
under way is ended by its own visits, whatever the handlers do or leave undone. A handler whose
reader has ended can always be torn down, and takes its subscription with it. -/
theorem subscriptions_end {actions : List (HubAction Raw)}
    (run : Run Hub.step anything NewHub actions hub) :
    hub.subs.Nodup ∧
      (∀ ch, ch ∈ hub.subs ↔ ∃ handler ∈ hub.handlers, handler.stage.ch = some ch ∧
        handler.stage.listening = true) ∧
      (∀ raw rest, hub.visiting = some (raw, rest) → ∃ final,
        Run Hub.step anything hub (List.replicate rest.length .send ++ [.release]) final ∧
          final.visiting = none ∧ final.handlers = hub.handlers) ∧
      ∀ (index ch : Nat) (handler : EventsHandler Raw), hub.handlers[index]? = some handler →
        handler.stage = .serving ch → handler.gone = true → ∃ visits final,
          (∀ action ∈ visits, action = .send ∨ action = .release) ∧
            Run Hub.step anything hub (visits ++
              [.handle index .leave, .unsubscribe index, .handle index .close]) final ∧
            final.subs = hub.subs.filter (· ≠ ch) ∧
            final.handlers = hub.handlers.set index { handler with stage := .closed ch } := by
  have sound := sound_run run
  refine ⟨sound.distinct, ?_, ?_, ?_⟩
  · intro ch
    constructor
    · intro member
      obtain ⟨index, handler, there, holds⟩ := sound.served ch member
      exact ⟨handler, List.mem_of_getElem? there, holds,
        (sound.owned index handler ch there holds).mp member⟩
    · rintro ⟨handler, member, holds, listening⟩
      obtain ⟨index, there⟩ := List.getElem?_of_mem member
      exact (sound.owned index handler ch there holds).mpr listening
  · intro raw rest busy
    obtain ⟨final, done, free, handlers, -⟩ := exec_sends hub raw rest busy
    exact ⟨final, Run.of_exec_anything done, free, handlers⟩
  · intro index ch handler there stage gone
    cases visiting : hub.visiting with
    | none =>
      obtain ⟨final, torn, ends⟩ := run_teardown visiting there stage gone
      exact ⟨[], final, by simp, torn, ends⟩
    | some busy =>
      obtain ⟨middle, done, free, handlers, subs⟩ := exec_sends hub busy.1 busy.2 visiting
      obtain ⟨final, torn, unsubscribed, closed⟩ :=
        run_teardown free (handlers ▸ there) stage gone
      refine ⟨_, final, ?_, (Run.of_exec_anything done).append torn, subs ▸ unsubscribed,
        handlers ▸ closed⟩
      intro action member
      rcases List.mem_append.mp member with sent | released
      · exact .inl (List.eq_of_mem_replicate sent)
      · exact .inr (List.mem_singleton.mp released)

end Hub

/-- One socket is greeted and told of an event; the next one waits in its channel. -/
def twoBroadcasts : List (HubAction String) :=
  [.upgrade, .subscribe 0, .handle 0 (.greet "" true), .broadcast "created" [0], .send, .release,
    .broadcast "died" [0], .send, .forward 0 true, .release]

theorem delivers_in_order_twoBroadcasts :
    broadcastSince 0 (Hub.record twoBroadcasts) = ["created", "died"] ∧
      ∃ final : Hub String, ∃ handler ∈ final.handlers, handler.Greeted ∧
        handler.events ++ final.buffer 0 = keptBy 0 (Hub.record twoBroadcasts) := by
  obtain ⟨final, done, told⟩ := exists_of_exec Hub.step NewHub twoBroadcasts
    (fun hub => hub.handlers.any fun handler => handler.stage == .serving 0) rfl
  obtain ⟨handler, member, serving⟩ := List.any_eq_true.mp told
  have stage : handler.stage = .serving 0 := of_decide_eq_true serving
  have delivered := Hub.delivers_in_order (Run.of_exec_anything done) member
    (show handler.stage.ch = some 0 by rw [stage]; rfl)
  exact ⟨rfl, final, handler, member, delivered.1, delivered.2.2.1 (by rw [stage]; rfl)⟩

/-- The reader of the socket ends while a third broadcast is under way. -/
theorem subscriptions_end_twoBroadcasts :
    ∃ hub : Hub String,
      exec Hub.step NewHub (twoBroadcasts ++ [.handle 0 .hangUp, .broadcast "late" [0]]) =
        some hub ∧ hub.visiting = some ("late", [0]) ∧ hub.subs = [0] ∧
      ∃ visits final, Run Hub.step anything hub
          (visits ++ [.handle 0 .leave, .unsubscribe 0, .handle 0 .close]) final ∧
        final.subs = [] := by
  obtain ⟨hub, done, told⟩ := exists_of_exec Hub.step NewHub
    (twoBroadcasts ++ [.handle 0 .hangUp, .broadcast "late" [0]])
    (fun hub => hub.visiting = some ("late", [0]) && hub.subs = [0] &&
      hub.handlers[0]?.any fun handler => handler.stage = .serving 0 && handler.gone) rfl
  simp only [Bool.and_eq_true, decide_eq_true_eq] at told
  obtain ⟨⟨visiting, subs⟩, serves⟩ := told
  obtain ⟨handler, there, ended⟩ := (Option.any_eq_true _ _).mp serves
  rw [Bool.and_eq_true, decide_eq_true_eq] at ended
  obtain ⟨visits, final, -, run, left, -⟩ :=
    (Hub.subscriptions_end (Run.of_exec_anything done)).2.2.2 0 0 handler there ended.1 ended.2
  exact ⟨hub, done, visiting, subs, visits, final, run, by rw [left, subs]; rfl⟩

end Delivery

end Multimux
