/-
This file asks whether the tabs of one daemon come to show the same layout. The
newest commit reaches every other tab as an event, and the fetch that the event
sets off brings its document, unless one of two things happens: the event is
read while a write of the tab is committed but has not returned, so that the
fetch is thrown away and none follows, or the answers of two fetches return in
the wrong order. In every run without these, a quiescent tab shows what the
daemon stores.
-/

import Multimux.Grid

namespace Multimux

/-! ### Quiescence and the runs in question -/

/-- No request of the tab is in flight, no write is held back and no event waits. -/
structure Tab.Quiescent (tab : Tab) : Prop where
  put : tab.writeInFlight = none
  pending : tab.pendingWrite = none
  gets : tab.gets = []
  terminations : tab.terminations = []
  connected : tab.connected = true
  events : tab.events = []

/-- The layout shown is the normalized document; without one it is the empty layout. -/
def Shows : Option Layout → Layout → Prop
  | some document, layout => layout = document.normalized
  | none, layout => layout = emptyLayout

/-- No request fails: a write that returns was committed, and no fetch fails. -/
def NothingFails (grid : Grid) : GridAction → Prop
  | .inTab index .putSettled =>
    ∀ tab ∈ grid.tabs[index]?, ∀ put ∈ tab.writeInFlight, put.committed ≠ none
  | .inTab _ (.getFailed _) => False
  | _ => True

/-- An event is not read while the tab has a write that is committed before the event's commit
and has not returned, and an answer is not adopted after one of a later commit. -/
def RefreshesInOrder (grid : Grid) : GridAction → Prop
  | .inTab index .readEvent =>
    ∀ tab ∈ grid.tabs[index]?, ∀ event ∈ tab.events.head?, ∀ put ∈ tab.writeInFlight,
      ∀ own ∈ put.committed, event.version ≤ own
  | .inTab index (.getSettled place) =>
    ∀ tab ∈ grid.tabs[index]?, ∀ get ∈ tab.gets[place]?, ∀ answer ∈ get.answer,
      tab.discards get = false → ∀ shown ∈ tab.shownVersion, shown ≤ answer.version
  | _ => True

instance Tab.Quiescent.decidable (tab : Tab) : Decidable tab.Quiescent :=
  decidable_of_iff (tab.writeInFlight.isNone ∧ tab.pendingWrite.isNone ∧ tab.gets.isEmpty ∧
      tab.terminations.isEmpty ∧ tab.connected ∧ tab.events.isEmpty)
    ⟨fun ⟨put, pending, gets, terminations, connected, events⟩ =>
      ⟨Option.isNone_iff_eq_none.mp put, Option.isNone_iff_eq_none.mp pending,
        List.isEmpty_iff.mp gets, List.isEmpty_iff.mp terminations, connected,
        List.isEmpty_iff.mp events⟩,
    fun still => by
      simp [still.put, still.pending, still.gets, still.terminations, still.connected,
        still.events]⟩

instance Shows.decidable : ∀ (stored : Option Layout) (layout : Layout),
    Decidable (Shows stored layout)
  | some document, layout => inferInstanceAs (Decidable (layout = document.normalized))
  | none, layout => inferInstanceAs (Decidable (layout = emptyLayout))

instance NothingFails.decidable (grid : Grid) : DecidablePred (NothingFails grid) := by
  intro action
  unfold NothingFails
  split <;> infer_instance

instance RefreshesInOrder.decidable (grid : Grid) : DecidablePred (RefreshesInOrder grid) := by
  intro action
  unfold RefreshesInOrder
  split <;> infer_instance

/-! ### The invariant -/

/-- Why a tab will come to show the newest document, if it does not yet: it has a write to be
committed, the newest event waits for it, its socket has not connected, or a fetch is out that
will be adopted and is answered with the newest document. -/
inductive CatchesUp (stored : Option Layout) (version : Nat) (tab : Tab) : Prop
  | writes (put : LayoutPut) (inFlight : tab.writeInFlight = some put)
      (uncommitted : put.committed = none)
  | holdsBack (layout : Layout) (pending : tab.pendingWrite = some layout)
  | shows (newest : tab.shownVersion = some version) (shown : Shows stored tab.layout)
  | notified (event : LayoutEvent) (waiting : event ∈ tab.events)
      (newest : event.version = version)
  | offline (connected : tab.connected = false)
  | fetches (get : LayoutGet) (out : get ∈ tab.gets) (adopted : tab.discards get = false)
      (newest : ∀ answer ∈ get.answer, answer.version = version)

/-- What holds of every tab in a run: its layout is canonical, answers of the newest commit have
its document, its writes are its newest layout, and it catches up. -/
structure InSync (stored : Option Layout) (version : Nat) (tab : Tab) : Prop where
  canonical : tab.layout.Canonical
  answers : ∀ get ∈ tab.gets, ∀ answer ∈ get.answer, answer.version ≤ version ∧
    (answer.version = version → answer.document = stored) ∧
    (stored = none → answer.document = none)
  pending : ∀ layout ∈ tab.pendingWrite, layout = tab.layout
  flight : ∀ put ∈ tab.writeInFlight, put.layout.Canonical ∧
    (tab.pendingWrite = none → put.layout = tab.layout)
  committed : ∀ put ∈ tab.writeInFlight, ∀ own ∈ put.committed, own ≤ version ∧
    stored ≠ none ∧ tab.shownVersion = some own ∧ (own = version → stored = some put.layout)
  blank : stored = none → tab.writing = false → tab.layout = emptyLayout
  catchesUp : CatchesUp stored version tab

theorem LayoutEdit.canonical_update {layout next : Layout} {edit : LayoutEdit}
    (canonical : layout.Canonical) (updated : edit.update layout = some next) :
    next.Canonical := by
  cases edit with
  | attachSession tile =>
    simp only [LayoutEdit.update] at updated
    split at updated <;> cases updated
    exact canonical_normalize ..
  | placeSession tile =>
    cases updated
    exact canonical_normalize ..
  | removeTile index =>
    simp only [LayoutEdit.update] at updated
    split at updated <;> cases updated
    exact canonical_normalize ..
  | swapTiles source target =>
    simp only [LayoutEdit.update] at updated
    split at updated <;> cases updated
    exact canonical_normalize ..
  | setCols cols =>
    cases updated
    exact canonical_normalize ..
  | adoptSizes rowSizes colSizes =>
    cases updated
    exact canonical_normalize ..
  | removeTilesWhere keys =>
    cases updated
    exact canonical_removeTilesWhere canonical _

theorem Tab.writing_eq_false {tab : Tab} :
    tab.writing = false ↔ tab.writeInFlight = none ∧ tab.pendingWrite = none := by
  simp [Tab.writing]

theorem Tab.discards_eq_false {tab : Tab} {get : LayoutGet} : tab.discards get = false ↔
    get.writingAtIssue = false ∧ tab.writing = false ∧
      get.editSerial = tab.layoutEditSerial := by
  simp [Tab.discards, and_assoc]

variable {stored : Option Layout} {version : Nat} {tab : Tab}

/-- A step that leaves the writes, what is shown and the connection has to answer for the events
and the fetches alone. -/
theorem CatchesUp.elsewhere {next : Tab} (catches : CatchesUp stored version tab)
    (flight : next.writeInFlight = tab.writeInFlight)
    (pending : next.pendingWrite = tab.pendingWrite) (layout : next.layout = tab.layout)
    (shown : next.shownVersion = tab.shownVersion) (connected : next.connected = tab.connected)
    (notified : ∀ event ∈ tab.events, event.version = version → CatchesUp stored version next)
    (fetches : ∀ get ∈ tab.gets, tab.discards get = false →
      (∀ answer ∈ get.answer, answer.version = version) → CatchesUp stored version next) :
    CatchesUp stored version next := by
  cases catches with
  | writes put inFlight uncommitted => exact .writes put (flight.trans inFlight) uncommitted
  | holdsBack held found => exact .holdsBack held (pending.trans found)
  | shows newest found => exact .shows (shown.trans newest) (by rwa [layout])
  | notified event waiting newest => exact notified event waiting newest
  | offline away => exact .offline (connected.trans away)
  | fetches get out adopted newest => exact fetches get out adopted newest

/-- An edit is written, now or when the write in flight returns. -/
theorem InSync.persist (sync : InSync stored version tab) (removed : List String)
    (terminations : List Termination) {next : Layout} (canonical : next.Canonical) :
    InSync stored version ({ tab with terminations, removed }.persist next) := by
  rcases Tab.persist_cases { tab with terminations, removed } next with
    ⟨-, persisted⟩ | ⟨busy, persisted⟩
  · rw [persisted]
    refine ⟨canonical, sync.answers, by simp, ?_, ?_, ?_, .writes _ rfl rfl⟩
    · rintro put written
      cases written
      exact ⟨canonical, fun _ => rfl⟩
    · rintro put written own committed
      cases written
      cases committed
    · rintro - idle
      cases idle
  · rw [persisted]
    refine ⟨canonical, sync.answers, ?_, ?_, sync.committed, ?_, .holdsBack next rfl⟩
    · rintro layout held
      cases held
      rfl
    · exact fun put written => ⟨(sync.flight put written).1, nofun⟩
    · intro _ idle
      exact absurd (Tab.writing_eq_false.mp idle).2 nofun

/-- A fetch goes out. -/
theorem InSync.refresh (sync : InSync stored version tab) (settleInitial : Bool) :
    InSync stored version (tab.refreshLayout settleInitial) := by
  refine ⟨sync.canonical, ?_, sync.pending, sync.flight, sync.committed, sync.blank, ?_⟩
  · intro get member answer answered
    rcases List.mem_append.mp member with old | new
    · exact sync.answers get old answer answered
    · cases List.mem_singleton.mp new
      cases answered
  · exact sync.catchesUp.elsewhere rfl rfl rfl rfl rfl
      (fun event waiting newest => .notified event waiting newest)
      fun get out adopted newest => .fetches get (List.mem_append_left _ out) adopted newest

/-- The fetch that reading the newest event sets off brings the tab up to date, unless a write
of the tab does. -/
theorem InSync.readEvent (sync : InSync stored version tab) {event : LayoutEvent}
    {events : List LayoutEvent} (waiting : tab.events = event :: events)
    (inOrder : ∀ put ∈ tab.writeInFlight, ∀ own ∈ put.committed, event.version ≤ own) :
    InSync stored version ({ tab with events }.refreshLayout false) := by
  have refreshed := sync.refresh false
  refine ⟨refreshed.canonical, refreshed.answers, refreshed.pending, refreshed.flight,
    refreshed.committed, refreshed.blank, ?_⟩
  refine refreshed.catchesUp.elsewhere rfl rfl rfl rfl rfl ?_
    fun get out adopted newest => .fetches get out adopted newest
  intro newestEvent member newest
  have member : newestEvent ∈ event :: events := waiting ▸ member
  rcases List.mem_cons.mp member with rfl | later
  · obtain pending | ⟨layout, pending⟩ := tab.pendingWrite.eq_none_or_eq_some
    · obtain inFlight | ⟨put, inFlight⟩ := tab.writeInFlight.eq_none_or_eq_some
      · have idle := Tab.writing_eq_false.mpr ⟨inFlight, pending⟩
        refine .fetches _ (List.mem_append_right _ (List.mem_singleton.mpr rfl)) ?_ nofun
        exact Tab.discards_eq_false.mpr ⟨idle, idle, rfl⟩
      · obtain committed | ⟨own, committed⟩ := put.committed.eq_none_or_eq_some
        · exact .writes put inFlight committed
        · -- the tab's own write is the newest commit
          obtain ⟨old, -, shown, same⟩ := sync.committed put inFlight own committed
          have later := inOrder put inFlight own committed
          obtain rfl : own = version := by omega
          refine .shows shown ?_
          obtain ⟨canonical, layout⟩ := sync.flight put inFlight
          rw [same rfl]
          exact (layout pending).symm.trans canonical.symm
    · exact .holdsBack layout pending
  · exact .notified newestEvent later newest

/-- A write that returns was committed; the edit held back during it goes out. -/
theorem InSync.putSettled (sync : InSync stored version tab) {put : LayoutPut}
    (inFlight : tab.writeInFlight = some put) (succeeded : put.committed ≠ none) :
    InSync stored version { tab with writeInFlight := none }.flushLayout := by
  unfold Tab.flushLayout
  dsimp only
  cases pending : tab.pendingWrite with
  | some layout =>
    have newest := sync.pending layout pending
    refine ⟨sync.canonical, sync.answers, by simp, ?_, ?_, nofun, .writes _ rfl rfl⟩
    · rintro _ ⟨⟩
      exact ⟨newest ▸ sync.canonical, fun _ => newest⟩
    · rintro _ ⟨⟩ own committed
      cases committed
  | none =>
    refine ⟨sync.canonical, sync.answers, by simp, by simp, by simp, ?_, ?_⟩
    · intro empty
      obtain ⟨own, committed⟩ := Option.ne_none_iff_exists'.mp succeeded
      exact absurd empty (sync.committed put inFlight own committed).2.1
    · cases sync.catchesUp with
      | writes other found uncommitted =>
        cases inFlight.symm.trans found
        exact absurd uncommitted succeeded
      | holdsBack layout held =>
        rw [pending] at held
        cases held
      | shows newest shown => exact .shows newest shown
      | notified event waiting newest => exact .notified event waiting newest
      | offline connected => exact .offline connected
      | fetches get out adopted newest =>
        have idle := (Tab.discards_eq_false.mp adopted).2.1
        rw [(Tab.writing_eq_false.mp idle).1] at inFlight
        cases inFlight

/-- The daemon answers a fetch with what it stores now. -/
theorem InSync.answerGet (sync : InSync stored version tab) {index : Nat} {get : LayoutGet}
    (present : tab.gets[index]? = some get) :
    InSync stored version { tab with
      gets := tab.gets.set index { get with answer := some { document := stored, version } } } := by
  refine ⟨sync.canonical, ?_, sync.pending, sync.flight, sync.committed, sync.blank, ?_⟩
  · intro other member answer answered
    rcases List.mem_or_eq_of_mem_set member with old | rfl
    · exact sync.answers other old answer answered
    · cases answered
      exact ⟨le_rfl, fun _ => rfl, id⟩
  · refine sync.catchesUp.elsewhere rfl rfl rfl rfl rfl
      (fun event waiting newest => .notified event waiting newest) ?_
    intro other out adopted newest
    obtain ⟨place, found⟩ := List.getElem?_of_mem out
    by_cases same : index = place
    · subst same
      cases present.symm.trans found
      obtain ⟨bound, -⟩ := List.getElem?_eq_some_iff.mp present
      refine .fetches _ (List.mem_of_getElem? (List.getElem?_set_self bound)) adopted ?_
      rintro answer ⟨⟩
      rfl
    · exact .fetches other (List.mem_of_getElem? ((List.getElem?_set_ne same).trans found))
        adopted newest

/-- An answer returns. One that is adopted is no older than what the tab showed, and one of the
newest commit brings the tab up to date. -/
theorem InSync.getSettled (sync : InSync stored version tab) {index : Nat} {get : LayoutGet}
    {answer : LayoutAnswer} (present : tab.gets[index]? = some get)
    (answered : get.answer = some answer)
    (inOrder : tab.discards get = false → ∀ shown ∈ tab.shownVersion, shown ≤ answer.version) :
    InSync stored version
      (({ tab with gets := tab.gets.eraseIdx index }.adoptAnswer get answer).settle get) := by
  have current := sync.answers get (List.mem_of_getElem? present) answer answered
  have answers : ∀ other ∈ tab.gets.eraseIdx index, ∀ answer ∈ other.answer,
      answer.version ≤ version ∧ (answer.version = version → answer.document = stored) ∧
        (stored = none → answer.document = none) :=
    fun other member => sync.answers other (List.mem_of_mem_eraseIdx member)
  have others : ∀ other ∈ tab.gets, other = get ∨ other ∈ tab.gets.eraseIdx index := by
    intro other member
    obtain ⟨place, found⟩ := List.getElem?_of_mem member
    by_cases same : place = index
    · subst same
      exact .inl (Option.some.inj (found.symm.trans present))
    · exact .inr (List.mem_eraseIdx_iff_getElem?.mpr ⟨place, same, found⟩)
  cases discards : { tab with gets := tab.gets.eraseIdx index }.discards get with
  | true =>
    rw [Tab.adoptAnswer_discarded answer discards]
    refine ⟨sync.canonical, answers, sync.pending, sync.flight, sync.committed, sync.blank, ?_⟩
    refine sync.catchesUp.elsewhere rfl rfl rfl rfl rfl
      (fun event waiting newest => .notified event waiting newest) ?_
    intro other out adopted newest
    rcases others other out with rfl | remaining
    · cases discards.symm.trans adopted
    · exact .fetches other remaining adopted newest
  | false =>
    obtain ⟨-, idle, -⟩ := Tab.discards_eq_false.mp discards
    obtain ⟨noFlight, noPending⟩ := Tab.writing_eq_false.mp idle
    have blank : stored = none →
        (answer.document.map Layout.normalized).getD tab.layout = emptyLayout := by
      intro empty
      rw [current.2.2 empty]
      exact sync.blank empty idle
    have canonical : ((answer.document.map Layout.normalized).getD tab.layout).Canonical := by
      cases answer.document with
      | none => exact sync.canonical
      | some document => exact canonical_normalized document
    have shows : answer.version = version →
        Shows stored ((answer.document.map Layout.normalized).getD tab.layout) := by
      intro same
      rw [current.2.1 same] at blank ⊢
      cases stored with
      | none => exact blank rfl
      | some document => rfl
    rw [Tab.adoptAnswer_kept answer discards]
    refine ⟨canonical, answers, by simp [Tab.settle, noPending], by simp [Tab.settle, noFlight],
      by simp [Tab.settle, noFlight], fun empty _ => blank empty, ?_⟩
    cases sync.catchesUp with
    | writes put inFlight uncommitted =>
      rw [noFlight] at inFlight
      cases inFlight
    | holdsBack layout pending =>
      rw [noPending] at pending
      cases pending
    | shows newest shown =>
      have later := inOrder discards version newest
      have same : answer.version = version := Nat.le_antisymm current.1 later
      exact .shows (congrArg some same) (shows same)
    | notified event waiting newest => exact .notified event waiting newest
    | offline connected => exact .offline connected
    | fetches other out adopts newest =>
      rcases others other out with rfl | remaining
      · have same := newest answer answered
        exact .shows (congrArg some same) (shows same)
      · exact .fetches other remaining adopts newest

/-- A commit of another tab: the socket gets the event, if it has connected. -/
theorem InSync.notified (sync : InSync stored version tab) (document : Layout) :
    InSync (some document) (version + 1) (tab.notify (version + 1)) := by
  have answers : ∀ get ∈ tab.gets, ∀ answer ∈ get.answer, answer.version ≤ version + 1 ∧
      (answer.version = version + 1 → answer.document = some document) ∧
      (some document = none → answer.document = none) := by
    intro get member answer answered
    have older := (sync.answers get member answer answered).1
    exact ⟨by omega, by omega, nofun⟩
  have committed : ∀ put ∈ tab.writeInFlight, ∀ own ∈ put.committed, own ≤ version + 1 ∧
      some document ≠ none ∧ tab.shownVersion = some own ∧
      (own = version + 1 → some document = some put.layout) := by
    intro put written own done
    obtain ⟨older, -, shown, -⟩ := sync.committed put written own done
    exact ⟨by omega, nofun, shown, by omega⟩
  unfold Tab.notify
  split
  · exact ⟨sync.canonical, answers, sync.pending, sync.flight, committed, nofun,
      .notified _ (List.mem_append_right _ (List.mem_singleton.mpr rfl)) rfl⟩
  · rename_i offline
    exact ⟨sync.canonical, answers, sync.pending, sync.flight, committed, nofun,
      .offline (Bool.eq_false_iff.mpr offline)⟩

/-- A commit of the tab's own write: unless an edit is held back, the tab shows it. -/
theorem InSync.commits (sync : InSync stored version tab) {put : LayoutPut}
    (inFlight : tab.writeInFlight = some put) :
    InSync (some put.layout) (version + 1) (Tab.notify (version + 1) { tab with
      writeInFlight := some { put with committed := some (version + 1) }
      shownVersion := some (version + 1) }) := by
  obtain ⟨canonical, layout⟩ := sync.flight put inFlight
  have answers : ∀ get ∈ tab.gets, ∀ answer ∈ get.answer, answer.version ≤ version + 1 ∧
      (answer.version = version + 1 → answer.document = some put.layout) ∧
      (some put.layout = none → answer.document = none) := by
    intro get member answer answered
    have older := (sync.answers get member answer answered).1
    exact ⟨by omega, by omega, nofun⟩
  have catchesUp : tab.pendingWrite ≠ none ∨ Shows (some put.layout) tab.layout := by
    obtain pending | ⟨held, pending⟩ := tab.pendingWrite.eq_none_or_eq_some
    · exact .inr ((layout pending).symm.trans canonical.symm)
    · exact .inl (by rw [pending]; nofun)
  unfold Tab.notify
  split
  all_goals
    refine ⟨sync.canonical, answers, sync.pending, ?_, ?_, nofun, ?_⟩
    · rintro _ ⟨⟩
      exact ⟨canonical, layout⟩
    · rintro _ ⟨⟩ own ⟨⟩
      exact ⟨le_rfl, nofun, rfl, fun _ => rfl⟩
    · rcases catchesUp with held | shows
      · obtain ⟨newer, pending⟩ := Option.ne_none_iff_exists'.mp held
        exact .holdsBack newer pending
      · exact .shows rfl shows

theorem inSync_newTab (stored : Option Layout) (version : Nat) :
    InSync stored version newTab := by
  refine ⟨canonical_emptyLayout, ?_, by simp [newTab, Tab.refreshLayout],
    by simp [newTab, Tab.refreshLayout], by simp [newTab, Tab.refreshLayout], fun _ _ => rfl,
    .offline rfl⟩
  intro get member answer answered
  cases List.mem_singleton.mp member
  cases answered

/-! ### Steps and runs -/

/-- Every action in a tab that succeeds and refreshes in order keeps the tab in sync. -/
theorem InSync.step (sync : InSync stored version tab) {grid : Grid} {index : Nat}
    {action : TabAction} {after : Tab} (present : grid.tabs[index]? = some tab)
    (succeeds : NothingFails grid (.inTab index action))
    (inOrder : RefreshesInOrder grid (.inTab index action))
    (taken : tab.step stored version action = some after) : InSync stored version after := by
  cases action with
  | connect =>
    simp only [Tab.step] at taken
    split at taken <;> cases taken
    exact ⟨sync.canonical, sync.answers, sync.pending, sync.flight, sync.committed, sync.blank,
      .notified _ (List.mem_append_right _ (List.mem_singleton.mpr rfl)) rfl⟩
  | edit edit =>
    obtain ⟨next, updated, rfl⟩ := Option.map_eq_some_iff.mp taken
    exact sync.persist _ tab.terminations (edit.canonical_update sync.canonical updated)
  | terminateSession tileIndex =>
    simp only [Tab.step] at taken
    split at taken <;> cases taken
    obtain ⟨canonical, answers, pending, flight, committed, blank, catchesUp⟩ := sync
    refine ⟨canonical, answers, pending, flight, committed, blank, ?_⟩
    exact catchesUp.elsewhere rfl rfl rfl rfl rfl
      (fun event waiting newest => .notified event waiting newest)
      fun get out adopted newest => .fetches get out adopted newest
  | deleteSettled place =>
    obtain ⟨termination, -, rfl⟩ := Option.map_eq_some_iff.mp taken
    exact sync.persist _ (tab.terminations.eraseIdx place) (canonical_normalize ..)
  | putSettled =>
    obtain ⟨put, inFlight, rfl⟩ := Option.map_eq_some_iff.mp taken
    exact sync.putSettled inFlight (succeeds tab present put inFlight)
  | readEvent =>
    simp only [Tab.step] at taken
    split at taken
    · cases taken
    · rename_i event events waiting
      cases taken
      exact sync.readEvent waiting (inOrder tab present event (by rw [waiting]; rfl))
  | resync =>
    cases taken
    exact sync.refresh false
  | answerGet place =>
    simp only [Tab.step] at taken
    split at taken
    · cases taken
    · rename_i get found
      split at taken <;> cases taken
      exact sync.answerGet found
  | getSettled place =>
    simp only [Tab.step] at taken
    split at taken
    · cases taken
    · rename_i get found
      obtain ⟨answer, answered, rfl⟩ := Option.map_eq_some_iff.mp taken
      exact sync.getSettled found answered (inOrder tab present get found answer answered)
  | getFailed place => cases succeeds

/-- In every run in which nothing fails and refreshes come in order, every tab is in sync. -/
theorem inSync_run {stored : Option Layout} {actions : List GridAction} {grid : Grid}
    (run : Run Grid.step
      (fun grid action => NothingFails grid action ∧ RefreshesInOrder grid action)
      (storedLayout stored) actions grid) :
    ∀ tab ∈ grid.tabs, InSync grid.stored grid.version tab := by
  refine run.invariant (fun grid => ∀ tab ∈ grid.tabs, InSync grid.stored grid.version tab)
    (fun _ member => absurd member List.not_mem_nil) ?_
  intro grid action next sync permitted taken
  cases action with
  | openTab =>
    cases taken
    intro tab member
    rcases List.mem_append.mp member with old | new
    · exact sync tab old
    · cases List.mem_singleton.mp new
      exact inSync_newTab grid.stored grid.version
  | inTab index action =>
    obtain ⟨tab, after, present, stepped, rfl⟩ := Grid.step_inTab taken
    intro other member
    rcases List.mem_or_eq_of_mem_set member with old | rfl
    · exact sync other old
    · exact (sync tab (List.mem_of_getElem? present)).step present permitted.1 permitted.2 stepped
  | commitPut index =>
    obtain ⟨tab, put, present, inFlight, -, rfl⟩ := Grid.step_commitPut taken
    intro other member
    obtain ⟨silent, listed, rfl⟩ := List.mem_map.mp member
    rcases List.mem_or_eq_of_mem_set listed with old | rfl
    · exact (sync silent old).notified put.layout
    · exact (sync tab (List.mem_of_getElem? present)).commits inFlight

/-- In every run of any number of tabs in which nothing fails and refreshes come in order, when
the system is quiescent every tab shows the layout the daemon stores. -/
theorem tabs_converge (stored : Option Layout) (actions : List GridAction) (grid : Grid)
    (run : Run Grid.step
      (fun grid action => NothingFails grid action ∧ RefreshesInOrder grid action)
      (storedLayout stored) actions grid)
    (quiescent : ∀ tab ∈ grid.tabs, tab.Quiescent) (tab : Tab) (open' : tab ∈ grid.tabs) :
    Shows grid.stored tab.layout := by
  have still := quiescent tab open'
  cases (inSync_run run tab open').catchesUp with
  | writes put inFlight uncommitted =>
    rw [still.put] at inFlight
    cases inFlight
  | holdsBack layout pending =>
    rw [still.pending] at pending
    cases pending
  | shows newest shown => exact shown
  | notified event waiting newest =>
    rw [still.events] at waiting
    cases waiting
  | offline connected =>
    rw [still.connected] at connected
    cases connected
  | fetches get out adopted newest =>
    rw [still.gets] at out
    cases out

/-- The daemon answers the oldest fetch of a tab, and the answer returns. -/
def fetched (index : Nat) : List GridAction :=
  [.inTab index (.answerGet 0), .inTab index (.getSettled 0)]

/-- A tab opens, connects, and has settled its first fetches. -/
def joined (index : Nat) : List GridAction :=
  [.openTab, .inTab index .connect] ++ fetched index ++ [.inTab index .readEvent] ++ fetched index

/-- Of two tabs that attach a session each, the second waits for the event of the first. -/
def editsInTurn : List GridAction :=
  joined 0 ++ joined 1 ++
    [.inTab 0 (.edit (.attachSession (localTile 1))), .commitPut 0, .inTab 0 .putSettled,
      .inTab 0 .readEvent] ++ fetched 0 ++ [.inTab 1 .readEvent] ++ fetched 1 ++
    [.inTab 1 (.edit (.attachSession (localTile 2))), .commitPut 1, .inTab 1 .putSettled,
      .inTab 0 .readEvent] ++ fetched 0 ++ [.inTab 1 .readEvent] ++ fetched 1

theorem edits_in_turn_converge :
    ∃ grid, exec Grid.step (storedLayout none) editsInTurn = some grid ∧
      ∀ tab ∈ grid.tabs, Shows grid.stored tab.layout := by
  obtain ⟨grid, reached, quiescent⟩ := exists_of_exec Grid.step (storedLayout none) editsInTurn
    (fun grid => ∀ tab ∈ grid.tabs, tab.Quiescent) (by decide)
  exact ⟨grid, reached, fun tab open' => tabs_converge none editsInTurn grid
    (Run.of_exec reached (by decide)) (of_decide_eq_true quiescent) tab open'⟩

/-- Two tabs attach a session each at once: both writes commit before either returns, so each
tab throws away what the events bring, and the first keeps showing its own layout. -/
def editsAtOnce : List GridAction :=
  joined 0 ++ joined 1 ++
    [.inTab 0 (.edit (.attachSession (localTile 1))),
      .inTab 1 (.edit (.attachSession (localTile 2))), .commitPut 0, .commitPut 1,
      .inTab 0 .readEvent, .inTab 0 .readEvent] ++ fetched 0 ++ fetched 0 ++
    [.inTab 1 .readEvent, .inTab 1 .readEvent] ++ fetched 1 ++ fetched 1 ++
    [.inTab 0 .putSettled, .inTab 1 .putSettled]

theorem edits_at_once_diverge :
    ¬ ∀ (stored : Option Layout) (actions : List GridAction) (grid : Grid),
        Run Grid.step NothingFails (storedLayout stored) actions grid →
        (∀ tab ∈ grid.tabs, tab.Quiescent) →
        ∀ tab ∈ grid.tabs, tab.layoutSettled = true → Shows grid.stored tab.layout := by
  intro always
  obtain ⟨grid, reached, test⟩ := exists_of_exec Grid.step (storedLayout none) editsAtOnce
    (fun grid => (∀ tab ∈ grid.tabs, tab.Quiescent) ∧
      ∃ tab ∈ grid.tabs, tab.layoutSettled = true ∧ ¬ Shows grid.stored tab.layout)
    (by decide)
  obtain ⟨quiescent, tab, open', settled, differs⟩ := of_decide_eq_true test
  exact differs (always none editsAtOnce grid (Run.of_exec reached (by decide)) quiescent
    tab open' settled)

end Multimux
