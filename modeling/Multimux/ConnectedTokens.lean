/-
This file proves where the tokens go that the daemons mint for each other's
pages. What one step does to the storage, the windows and the messages on
their way is put into one invariant: a daemon's message is for the page that its
user approved, so the token is read there and stored under the server that sent
it. From any state the steps of a connection, if nothing comes between them, do
bring the token.
-/

import Multimux.Connect

namespace Multimux

section Connecting

variable (newUrl : Bytes → Option Url) (isDaemon : Bytes → Bool)

/-! ### The request is read as it was written -/

theorem hexValue_upperHex {value : UInt8} (small : value.toNat < 16) :
    hexValue (upperHex value) = some value ∧ isUriPlain (upperHex value) = true := by
  have all : (List.range 16).all (fun count =>
      hexValue (upperHex (UInt8.ofNat count)) = some (UInt8.ofNat count) &&
        isUriPlain (upperHex (UInt8.ofNat count))) = true := by decide
  have here := List.all_eq_true.1 all value.toNat (List.mem_range.2 small)
  simpa only [UInt8.ofNat_toNat, Bool.and_eq_true, decide_eq_true_eq] using here

theorem nibbles_toNat (byte : UInt8) :
    (byte / 16).toNat = byte.toNat / 16 ∧ (byte % 16).toNat = byte.toNat % 16 :=
  ⟨UInt8.toNat_div byte 16, UInt8.toNat_mod byte 16⟩

theorem nibbles_small (byte : UInt8) : (byte / 16).toNat < 16 ∧ (byte % 16).toNat < 16 := by
  obtain ⟨high, low⟩ := nibbles_toNat byte
  have bound := byte.toNat_lt
  rw [high, low]
  omega

theorem percentDecode_cons {byte : UInt8} (plain : byte ≠ percentByte) (rest : Bytes) :
    percentDecode (byte :: rest) = byte :: percentDecode rest := by
  match rest with
  | [] => rfl
  | [_] => rfl
  | high :: low :: rest =>
    rw [percentDecode]
    split
    · rw [if_neg plain]
    · rfl

theorem percentDecode_escape (byte : UInt8) (rest : Bytes) :
    percentDecode (percentByte :: upperHex (byte / 16) :: upperHex (byte % 16) :: rest) =
      byte :: percentDecode rest := by
  obtain ⟨high, low⟩ := nibbles_small byte
  rw [percentDecode, (hexValue_upperHex high).1, (hexValue_upperHex low).1]
  have whole : byte / 16 * 16 + byte % 16 = byte := by
    obtain ⟨first, second⟩ := nibbles_toNat byte
    have bound := byte.toNat_lt
    rw [← UInt8.toNat_inj, UInt8.toNat_add, UInt8.toNat_mul, first, second]
    show (byte.toNat / 16 * 16 % 256 + byte.toNat % 16) % 256 = byte.toNat
    omega
  show (if percentByte = percentByte then (byte / 16 * 16 + byte % 16) :: percentDecode rest
    else _) = _
  rw [if_pos rfl, whole]

theorem percentDecode_encodeURIComponent (text : Bytes) :
    percentDecode (encodeURIComponent text) = text := by
  induction text with
  | nil => rfl
  | cons byte text inductionHypothesis =>
    rw [encodeURIComponent, List.flatMap_cons]
    by_cases plain : isUriPlain byte
    · have other : byte ≠ percentByte := by
        rintro rfl
        exact absurd plain (by decide)
      rw [if_pos plain, List.singleton_append, percentDecode_cons other]
      exact congrArg _ inductionHypothesis
    · rw [if_neg plain]
      exact (percentDecode_escape byte _).trans (congrArg _ inductionHypothesis)

theorem mem_encodeURIComponent {text : Bytes} {byte : UInt8}
    (member : byte ∈ encodeURIComponent text) : isUriPlain byte = true ∨ byte = percentByte := by
  obtain ⟨source, -, spelled⟩ := List.mem_flatMap.1 member
  obtain ⟨high, low⟩ := nibbles_small source
  split at spelled
  · rename_i plain
    exact .inl (List.mem_singleton.1 spelled ▸ plain)
  · simp only [List.mem_cons, List.not_mem_nil, or_false] at spelled
    rcases spelled with rfl | rfl | rfl
    · exact .inr rfl
    · exact .inl (hexValue_upperHex high).2
    · exact .inl (hexValue_upperHex low).2

theorem notMem_encodeURIComponent {byte : UInt8} (special : isUriPlain byte = false)
    (other : byte ≠ percentByte) (text : Bytes) : byte ∉ encodeURIComponent text := by
  intro member
  rcases mem_encodeURIComponent member with plain | same
  · exact absurd (special.symm.trans plain) (by decide)
  · exact other same

theorem formDecode_encodeURIComponent (text : Bytes) :
    formDecode (encodeURIComponent text) = text := by
  have plusless : (0x2B : UInt8) ∉ encodeURIComponent text :=
    notMem_encodeURIComponent (by decide) (by decide) text
  have same : ((encodeURIComponent text).map fun byte => if byte = 0x2B then 0x20 else byte) =
      encodeURIComponent text := by
    refine (List.map_congr_left fun byte member => if_neg ?_).trans (List.map_id _)
    rintro rfl
    exact plusless member
  rw [formDecode, same, percentDecode_encodeURIComponent]

/-- The query that the popup's address carries. -/
def connectQuery (own : Bytes) : Bytes := bytes "opener" ++ equalsByte :: encodeURIComponent own

theorem notMem_connectQuery {byte : UInt8} (named : byte ∉ bytes "opener=")
    (special : isUriPlain byte = false) (other : byte ≠ percentByte) (own : Bytes) :
    byte ∉ connectQuery own := by
  have spelled : bytes "opener=" = bytes "opener" ++ [equalsByte] := by decide
  rw [spelled] at named
  rw [connectQuery, ← List.singleton_append, ← List.append_assoc]
  exact fun member => (List.mem_append.1 member).elim named
    (notMem_encodeURIComponent special other own)

theorem hashOf_connectUrl {server own : Bytes} (hashless : hashByte ∉ server) :
    hashOf (connectUrl server own) = bytes "#/connect" ++ questionByte :: connectQuery own := by
  have front : bytes "/#/connect?opener=" = [0x2F] ++ (bytes "#/connect" ++
      questionByte :: (bytes "opener" ++ [equalsByte])) := by decide
  have whole : connectUrl server own =
      (server ++ [0x2F]) ++ (bytes "#/connect" ++ questionByte :: connectQuery own) := by
    rw [connectUrl, front, connectQuery]
    simp only [List.append_assoc, List.cons_append, List.nil_append]
  have before : ∀ byte ∈ server ++ [0x2F], decide (byte ≠ hashByte) = true := by
    intro byte member
    refine decide_eq_true ?_
    rintro rfl
    rcases List.mem_append.1 member with there | last
    · exact hashless there
    · exact absurd last (by decide)
  rw [hashOf, whole, List.dropWhile_append_of_pos before]
  have spelled : bytes "#/connect" = hashByte :: bytes "/connect" := by decide
  rw [spelled, List.cons_append, List.dropWhile_cons_of_neg (by simp)]

theorem searchParam_connectQuery (own : Bytes) :
    searchParam (questionByte :: connectQuery own) (bytes "opener") = some own := by
  have joined : ampersandByte ∉ connectQuery own :=
    notMem_connectQuery (by decide) (by decide) (by decide) own
  have found : cut (connectQuery own) equalsByte =
      some (bytes "opener", encodeURIComponent own) := cut_append (by decide)
  have name : formDecode (bytes "opener") = bytes "opener" := by decide
  have present : connectQuery own ≠ [] :=
    List.append_ne_nil_of_right_ne_nil _ (List.cons_ne_nil _ _)
  rw [searchParam, trimPrefixByte_cons, List.splitOn_eq_singleton joined, List.findSome?_cons]
  simp only [found, Option.getD_some, name, present, ne_eq, not_false_eq_true, and_self, if_true,
    formDecode_encodeURIComponent]

/-- The consent page asks for the origin of the page that opened it. -/
theorem openerOrigin_connectUrl {server own : Bytes} {url : Url} (hashless : hashByte ∉ server)
    (present : own ≠ []) (read : newUrl own = some url) (grantable : url.grantable)
    (same : url.origin = own) :
    openerOrigin newUrl (hashOf (connectUrl server own)) = some own := by
  have single : questionByte ∉ connectQuery own :=
    notMem_connectQuery (by decide) (by decide) (by decide) own
  have pieces : (bytes "#/connect" ++ questionByte :: connectQuery own).splitOn questionByte =
      [bytes "#/connect", connectQuery own] := by
    rw [List.splitOn_append_cons_self, List.splitOn_eq_singleton single,
      List.splitOn_eq_singleton (by decide)]
    rfl
  rw [hashOf_connectUrl hashless, openerOrigin, if_pos (by
    rw [List.isPrefixOf_iff_prefix]
    exact List.prefix_append _ _), pieces]
  show parseOpenerOrigin newUrl (questionByte :: connectQuery own) = some own
  rw [parseOpenerOrigin, searchParam_connectQuery]
  simp only [if_neg present, read, grantable, if_true, same]

/-! ### Whose token is where -/

/-- An origin that a consent page may show. -/
def Grantable (origin : Bytes) : Prop :=
  ∃ address url, newUrl address = some url ∧ url.grantable ∧ url.origin = origin

variable {newUrl isDaemon}

theorem openerOrigin_grantable {hash origin : Bytes}
    (asked : openerOrigin newUrl hash = some origin) : Grantable newUrl origin := by
  unfold openerOrigin parseOpenerOrigin at asked
  split at asked
  · split at asked
    · exact nomatch asked
    · rename_i raw _
      split at asked
      · exact nomatch asked
      · split at asked
        · exact nomatch asked
        · rename_i url read
          split at asked
          · rename_i grantable
            exact ⟨raw, url, read, grantable, Option.some.inj asked⟩
          · exact nomatch asked
  · exact nomatch asked

variable (newUrl isDaemon)

/-- The page's listeners are about entries of its own storage, and it asks only for origins
that may be shown. -/
structure BrowserWindow.Sound (everStored : Bytes → List StoredServer) (shown : BrowserWindow) :
    Prop where
  listening : ∀ listener ∈ shown.listeners, ∃ entry ∈ everStored shown.origin,
    entry.id = listener.server ∧ entry.origin = listener.origin
  asking : ∀ origin ∈ shown.minting, Grantable newUrl origin

/-- What a daemon's page has sent, what came of it, and what is stored. -/
structure Browser.Sound (initially : Bytes → List StoredServer) (browser : Browser) : Prop where
  entries : ∀ owner, ∀ entry ∈ browser.everStored owner, ∀ other ∈ browser.everStored owner,
    entry.id = other.id → entry.origin = other.origin
  kept : ∀ owner, ∀ server ∈ browser.stored owner, ∃ entry ∈ browser.everStored owner,
    entry.id = server.id ∧ entry.origin = server.origin
  windows : ∀ shown ∈ browser.windows, shown.Sound newUrl browser.everStored
  granted : ∀ approval ∈ browser.approvals, Grantable newUrl approval.shown
  sent : ∀ message ∈ browser.messages, isDaemon message.sender → ∃ origin token,
    message.targetOrigin = some origin ∧ message.data = .token token ∧
      ⟨message.sender, origin, token⟩ ∈ browser.approvals
  heard : ∀ message ∈ browser.received, isDaemon message.sender → ∃ token,
    message.data = .token token ∧ ⟨message.sender, message.receiver, token⟩ ∈ browser.approvals
  tokens : ∀ owner, ∀ server ∈ browser.stored owner, isDaemon server.origin →
    ∀ token, server.token = some token →
      (∃ before ∈ initially owner, before.id = server.id ∧ before.token = some token) ∨
        ⟨server.origin, owner, token⟩ ∈ browser.approvals

namespace Browser

variable {newUrl isDaemon} {initially : Bytes → List StoredServer} {browser : Browser}

theorem alive_eq_some {window : Nat} {shown : BrowserWindow}
    (there : browser.alive window = some shown) :
    browser.windows[window]? = some shown ∧ shown.closed = false := by
  obtain ⟨found, awake⟩ := Option.filter_eq_some_iff.1 there
  exact ⟨found, by simpa using awake⟩

theorem page_eq_some {window : Nat} {shown : BrowserWindow}
    (there : browser.page isDaemon window = some shown) :
    browser.alive window = some shown ∧ isDaemon shown.origin = true :=
  Option.filter_eq_some_iff.1 there

theorem alive_of_getElem? {window : Nat} {shown : BrowserWindow}
    (found : browser.windows[window]? = some shown) (awake : shown.closed = false) :
    browser.alive window = some shown :=
  Option.filter_eq_some_iff.2 ⟨found, by rw [awake]; rfl⟩

theorem page_of_getElem? {window : Nat} {shown : BrowserWindow}
    (found : browser.windows[window]? = some shown) (awake : shown.closed = false)
    (daemon : isDaemon shown.origin) : browser.page isDaemon window = some shown :=
  Option.filter_eq_some_iff.2 ⟨alive_of_getElem? found awake, daemon⟩

/-- Other windows that are as sound leave the rest as it is. -/
theorem Sound.show (sound : browser.Sound newUrl isDaemon initially) {windows : List BrowserWindow}
    (each : ∀ shown ∈ windows, shown.Sound newUrl browser.everStored) :
    ({ browser with windows } : Browser).Sound newUrl isDaemon initially where
  entries := sound.entries
  kept := sound.kept
  windows := each
  granted := sound.granted
  sent := sound.sent
  heard := sound.heard
  tokens := sound.tokens

theorem Sound.put (sound : browser.Sound newUrl isDaemon initially) {shown : BrowserWindow}
    (fits : shown.Sound newUrl browser.everStored) (window : Nat) :
    (browser.put window shown).Sound newUrl isDaemon initially :=
  sound.show fun other member =>
    (List.mem_or_eq_of_mem_set member).elim (sound.windows other) (fun same => same ▸ fits)

theorem Sound.closeWindow (sound : browser.Sound newUrl isDaemon initially) (window : Nat) :
    (browser.closeWindow window).Sound newUrl isDaemon initially := by
  refine sound.show fun other member => ?_
  obtain ⟨index, found⟩ := List.mem_iff_getElem?.1 member
  rw [List.getElem?_modify] at found
  obtain ⟨shown, there, rfl⟩ := Option.map_eq_some_iff.1 found
  have before := sound.windows shown (List.mem_of_getElem? there)
  split
  · exact ⟨before.listening, before.asking⟩
  · exact before

theorem Sound.closeWindows {Item : Type} (target : Item → Nat) (items : List Item)
    (sound : browser.Sound newUrl isDaemon initially) :
    (items.foldl (fun browser item => browser.closeWindow (target item)) browser).Sound newUrl
      isDaemon initially := by
  induction items generalizing browser with
  | nil => exact sound
  | cons item items inductionHypothesis => exact inductionHypothesis (sound.closeWindow _)

/-- Storing for a page keeps what is kept when every entry has one as before, and a token only
as approved. -/
theorem Sound.store (sound : browser.Sound newUrl isDaemon initially) {owner : Bytes}
    {servers : List StoredServer}
    (origins : ∀ server ∈ servers, ∃ entry ∈ browser.everStored owner,
      entry.id = server.id ∧ entry.origin = server.origin)
    (approved : ∀ server ∈ servers, isDaemon server.origin → ∀ token, server.token = some token →
      (∃ before ∈ initially owner, before.id = server.id ∧ before.token = some token) ∨
        ⟨server.origin, owner, token⟩ ∈ browser.approvals) :
    (browser.store owner servers).Sound newUrl isDaemon initially where
  entries := sound.entries
  kept other server member := by
    simp only [Browser.store, Function.update_apply] at member
    split at member
    · rename_i same
      exact same ▸ origins server member
    · exact sound.kept other server member
  windows := sound.windows
  granted := sound.granted
  sent := sound.sent
  heard := sound.heard
  tokens other server member := by
    simp only [Browser.store, Function.update_apply] at member
    split at member
    · rename_i same
      exact same ▸ approved server member
    · exact sound.tokens other server member

theorem hears_eq_some {listener : TokenListener} {message : Posted} {token : Bytes} :
    listener.hears message = some token ↔
      message.data = .token token ∧ message.sender = listener.origin := by
  unfold TokenListener.hears
  cases message.data with
  | token value => by_cases same : message.sender = listener.origin <;> simp [same]
  | unrelated => simp

theorem mem_storeTokens {message : Posted} {listeners : List TokenListener}
    {servers : List StoredServer} {server : StoredServer}
    (member : server ∈ storeTokens message listeners servers) :
    ∃ before ∈ servers, before.id = server.id ∧ before.origin = server.origin ∧
      (before.token = server.token ∨ ∃ listener ∈ listeners, listener.server = server.id ∧
        ∃ token, listener.hears message = some token ∧ server.token = some token) := by
  induction listeners generalizing servers with
  | nil => exact ⟨server, member, rfl, rfl, .inl rfl⟩
  | cons listener listeners inductionHypothesis =>
    obtain ⟨middle, there, id, origin, source⟩ := inductionHypothesis member
    have later : (before : StoredServer) → before.token = middle.token →
        (before.token = server.token ∨ ∃ other ∈ listener :: listeners, other.server = server.id ∧
          ∃ token, other.hears message = some token ∧ server.token = some token) :=
      fun before same => source.imp (same.trans ·)
        fun ⟨other, among, rest⟩ => ⟨other, List.mem_cons_of_mem _ among, rest⟩
    cases hearing : listener.hears message with
    | none =>
      simp only [hearing, Option.elim_none] at there
      exact ⟨middle, there, id, origin, later middle rfl⟩
    | some token =>
      simp only [hearing, Option.elim_some] at there
      obtain ⟨before, original, rfl⟩ := List.mem_map.1 there
      by_cases named : before.id = listener.server
      · rw [if_pos named] at id origin source
        refine ⟨before, original, id, origin, .inr ?_⟩
        rcases source with written | ⟨other, among, rest⟩
        · exact ⟨listener, List.mem_cons_self, named.symm.trans id, token, hearing, written.symm⟩
        · exact ⟨other, List.mem_cons_of_mem _ among, rest⟩
      · rw [if_neg named] at id origin source later
        exact ⟨before, original, id, origin, later before rfl⟩

/-- A token that a page stores on a message was granted to it by the server's own daemon. -/
theorem Sound.stored_granted (sound : browser.Sound newUrl isDaemon initially)
    {shown : BrowserWindow} {message : Posted} {listeners : List TokenListener}
    (own : ∀ listener ∈ listeners, ∃ entry ∈ browser.everStored shown.origin,
      entry.id = listener.server ∧ entry.origin = listener.origin)
    (granted : isDaemon message.sender → ∃ token, message.data = .token token ∧
      ⟨message.sender, shown.origin, token⟩ ∈ browser.approvals)
    {server : StoredServer}
    (member : server ∈ storeTokens message listeners (browser.stored shown.origin))
    (daemon : isDaemon server.origin) {token : Bytes} (written : server.token = some token) :
    (∃ before ∈ initially shown.origin, before.id = server.id ∧ before.token = some token) ∨
      ⟨server.origin, shown.origin, token⟩ ∈ browser.approvals := by
  obtain ⟨before, original, id, origin, source⟩ := mem_storeTokens member
  rcases source with same | ⟨listener, among, named, value, hearing, put⟩
  · have earlier := sound.tokens _ before original (origin ▸ daemon) token (same.trans written)
    rwa [id, origin] at earlier
  · obtain ⟨entry, entered, about, located⟩ := own listener among
    obtain ⟨stored, kept, same, placed⟩ := sound.kept _ before original
    have author : server.origin = message.sender := by
      rw [(hears_eq_some.1 hearing).2, ← located, ← origin, ← placed]
      exact sound.entries _ stored kept entry entered
        (same.trans (id.trans (named.symm.trans about.symm)))
    obtain ⟨sent, carried, approval⟩ := granted (author ▸ daemon)
    rw [(hears_eq_some.1 hearing).1] at carried
    cases carried
    rw [put] at written
    cases written
    exact .inr (author ▸ approval)

/-- A message that reaches a page is one the sender had it there, and the tokens that the page
stores are those its senders were granted for it. -/
theorem Sound.receive (sound : browser.Sound newUrl isDaemon initially) {window : Nat}
    {shown : BrowserWindow} {message : Posted} (there : browser.alive window = some shown)
    (granted : isDaemon message.sender → ∃ token, message.data = .token token ∧
      ⟨message.sender, shown.origin, token⟩ ∈ browser.approvals) :
    (browser.receive window shown message).Sound newUrl isDaemon initially := by
  have own := sound.windows shown (List.mem_of_getElem? (alive_eq_some there).1)
  unfold Browser.receive
  refine Sound.closeWindows TokenListener.popup _ ?_
  have stored : (browser.store shown.origin (storeTokens message
      (shown.listeners.filter fun listener => (listener.hears message).isSome)
      (browser.stored shown.origin))).Sound newUrl isDaemon initially := by
    refine sound.store (fun server member => ?_) fun server member daemon token written => ?_
    · obtain ⟨before, original, id, origin, -⟩ := mem_storeTokens member
      obtain ⟨entry, entered, named, located⟩ := sound.kept _ before original
      exact ⟨entry, entered, named.trans id, located.trans origin⟩
    · exact sound.stored_granted (fun listener among => own.listening listener
        (List.mem_filter.1 among).1) granted member daemon written
  have shrunk : BrowserWindow.Sound newUrl browser.everStored { shown with
      listeners := shown.listeners.filter fun listener => (listener.hears message).isNone } :=
    ⟨fun listener among => own.listening listener (List.mem_filter.1 among).1, own.asking⟩
  have told := stored.put shrunk window
  exact {
    entries := told.entries
    kept := told.kept
    windows := told.windows
    granted := told.granted
    sent := told.sent
    heard := fun received among daemon => by
      rcases List.mem_append.1 among with before | now
      · exact told.heard received before daemon
      · cases List.mem_singleton.1 now
        exact granted daemon
    tokens := told.tokens }

theorem Sound.mail (sound : browser.Sound newUrl isDaemon initially) {messages : List Posted}
    (sent : ∀ message ∈ messages, isDaemon message.sender → ∃ origin token,
      message.targetOrigin = some origin ∧ message.data = .token token ∧
        ⟨message.sender, origin, token⟩ ∈ browser.approvals) :
    ({ browser with messages } : Browser).Sound newUrl isDaemon initially where
  entries := sound.entries
  kept := sound.kept
  windows := sound.windows
  granted := sound.granted
  sent := sent
  heard := sound.heard
  tokens := sound.tokens

theorem mem_update_concat {table : Bytes → List StoredServer} {owner other : Bytes}
    {server candidate : StoredServer} :
    candidate ∈ Function.update table owner (table owner ++ [server]) other ↔
      candidate ∈ table other ∨ other = owner ∧ candidate = server := by
  rw [Function.update_apply]
  by_cases same : other = owner <;> simp [same]

theorem Sound.addServer (sound : browser.Sound newUrl isDaemon initially) {owner : Bytes}
    {server : StoredServer} (fresh : ¬ (browser.everStored owner).any (·.id = server.id))
    (tokenless : server.token = none) :
    ({ browser.store owner (browser.stored owner ++ [server]) with
      everStored := Function.update browser.everStored owner
        (browser.everStored owner ++ [server]) } : Browser).Sound newUrl isDaemon initially := by
  have new : ∀ entry ∈ browser.everStored owner, entry.id ≠ server.id := by
    simpa only [List.any_eq_true, decide_eq_true_eq, not_exists, not_and] using fresh
  refine ⟨fun other entry member another among same => ?_, fun other candidate member => ?_,
    fun shown member => ?_, sound.granted, sound.sent, sound.heard,
    fun other candidate member daemon token written => ?_⟩
  · rcases mem_update_concat.1 member with old | ⟨here, rfl⟩ <;>
      rcases mem_update_concat.1 among with older | ⟨there, rfl⟩
    · exact sound.entries other entry old another older same
    · exact absurd same (new entry (there ▸ old))
    · exact absurd same.symm (new another (here ▸ older))
    · rfl
  · rcases mem_update_concat.1 member with before | ⟨rfl, rfl⟩
    · obtain ⟨entry, entered, rest⟩ := sound.kept other candidate before
      exact ⟨entry, mem_update_concat.2 (.inl entered), rest⟩
    · exact ⟨candidate, mem_update_concat.2 (.inr ⟨rfl, rfl⟩), rfl, rfl⟩
  · have own := sound.windows shown member
    exact ⟨fun listener among => (own.listening listener among).imp fun entry about =>
      ⟨mem_update_concat.2 (.inl about.1), about.2⟩, own.asking⟩
  · rcases mem_update_concat.1 member with before | ⟨rfl, rfl⟩
    · exact sound.tokens other candidate before daemon token written
    · exact nomatch tokenless.symm.trans written

/-- One more approval takes nothing from what was approved. -/
theorem Sound.approved (sound : browser.Sound newUrl isDaemon initially) {approval : Approval}
    (grantable : Grantable newUrl approval.shown) :
    ({ browser with approvals := browser.approvals ++ [approval] } : Browser).Sound newUrl isDaemon
      initially where
  entries := sound.entries
  kept := sound.kept
  windows := sound.windows
  granted other member := by
    rcases List.mem_append.1 member with before | now
    · exact sound.granted other before
    · cases List.mem_singleton.1 now
      exact grantable
  sent message member daemon := by
    obtain ⟨origin, token, target, carried, before⟩ := sound.sent message member daemon
    exact ⟨origin, token, target, carried, List.mem_append_left _ before⟩
  heard message member daemon := by
    obtain ⟨token, carried, before⟩ := sound.heard message member daemon
    exact ⟨token, carried, List.mem_append_left _ before⟩
  tokens owner server member daemon token written :=
    (sound.tokens owner server member daemon token written).imp_right (List.mem_append_left _)

/-- A minted token is sent to the origin that was approved, and to no other. -/
theorem Sound.minted (sound : browser.Sound newUrl isDaemon initially)
    {shown answered : BrowserWindow}
    {origin token : Bytes} (grantable : Grantable newUrl origin)
    (fits : answered.Sound newUrl browser.everStored) (window : Nat) (openers : List Nat) :
    ({ browser.put window answered with
      approvals := browser.approvals ++ [⟨shown.origin, origin, token⟩]
      messages := browser.messages ++ openers.map fun opener =>
        ⟨opener, some origin, shown.origin, .token token⟩ } : Browser).Sound newUrl isDaemon
      initially := by
  have grown : ({ browser.put window answered with
      approvals := browser.approvals ++ [⟨shown.origin, origin, token⟩] } : Browser).Sound newUrl
        isDaemon initially :=
    (sound.put fits window).approved grantable
  refine grown.mail fun message member daemon => ?_
  rcases List.mem_append.1 member with before | now
  · exact grown.sent message before daemon
  · obtain ⟨opener, -, rfl⟩ := List.mem_map.1 now
    exact ⟨origin, token, rfl, rfl, List.mem_append_right _ List.mem_cons_self⟩

theorem Sound.step (sound : browser.Sound newUrl isDaemon initially) {action : BrowserAction}
    {next : Browser} (taken : browser.step newUrl isDaemon action = some next) :
    next.Sound newUrl isDaemon initially := by
  cases action with
  | openWindow opener origin hash =>
    cases taken
    refine sound.show fun shown member => ?_
    rcases List.mem_append.1 member with before | new
    · exact sound.windows shown before
    · cases List.mem_singleton.1 new
      exact ⟨fun _ none => (List.not_mem_nil none).elim, fun _ none => (List.not_mem_nil none).elim⟩
  | navigate window origin hash =>
    obtain ⟨shown, there, rfl⟩ := by simpa [Browser.step, Option.bind_eq_some_iff] using taken
    exact sound.put ⟨fun _ none => (List.not_mem_nil none).elim,
      fun _ none => (List.not_mem_nil none).elim⟩ window
  | rehash window hash =>
    obtain ⟨shown, there, rfl⟩ := by simpa [Browser.step, Option.bind_eq_some_iff] using taken
    have own := sound.windows shown (List.mem_of_getElem? (alive_eq_some there).1)
    have fits : BrowserWindow.Sound newUrl browser.everStored { shown with hash } :=
      ⟨own.listening, own.asking⟩
    exact sound.put fits window
  | close window =>
    cases taken
    exact sound.closeWindow window
  | addServer window origin name id =>
    obtain ⟨shown, there, fresh, rfl⟩ := by
      simpa only [Browser.step, Option.bind_eq_bind, Option.bind_eq_some_iff,
        Option.ite_none_left_eq_some, Option.some.injEq] using taken
    exact sound.addServer fresh rfl
  | removeServer window id =>
    obtain ⟨shown, there, rfl⟩ := by simpa [Browser.step, Option.bind_eq_some_iff] using taken
    exact sound.store (fun server member => sound.kept _ server (List.mem_filter.1 member).1)
      (fun server member => sound.tokens _ server (List.mem_filter.1 member).1)
  | connect window entry blocked =>
    obtain ⟨shown, there, server, entered, url, read, result⟩ := by
      simpa only [Browser.step, Option.bind_eq_bind, Option.bind_eq_some_iff] using taken
    split at result
    · cases result
      exact sound
    · cases result
      have own := sound.windows shown
        (List.mem_of_getElem? (alive_eq_some (page_eq_some there).1).1)
      have fits : BrowserWindow.Sound newUrl browser.everStored { shown with
          listeners :=
            shown.listeners ++ [⟨server.id, server.origin, browser.windows.length⟩] } := by
        refine ⟨fun listener among => ?_, own.asking⟩
        rcases List.mem_append.1 among with before | now
        · exact own.listening listener before
        · cases List.mem_singleton.1 now
          exact ⟨server, List.mem_of_getElem? entered, rfl, rfl⟩
      refine sound.show fun other member => ?_
      rcases List.mem_append.1 member with before | popup
      · exact (sound.put fits window).windows other before
      · cases List.mem_singleton.1 popup
        exact ⟨fun _ none => (List.not_mem_nil none).elim,
          fun _ none => (List.not_mem_nil none).elim⟩
  | poll window index =>
    obtain ⟨shown, there, waiting, found, result⟩ := by
      simpa only [Browser.step, Option.bind_eq_bind, Option.bind_eq_some_iff] using taken
    split at result
    · cases result
      exact sound
    · cases result
      have own := sound.windows shown
        (List.mem_of_getElem? (alive_eq_some (page_eq_some there).1).1)
      have fits : BrowserWindow.Sound newUrl browser.everStored
          { shown with listeners := shown.listeners.eraseIdx index } :=
        ⟨fun listener among => own.listening listener (List.mem_of_mem_eraseIdx among), own.asking⟩
      exact sound.put fits window
  | approve window =>
    obtain ⟨shown, there, origin, asked, rfl⟩ := by
      simpa [Browser.step, Option.bind_eq_some_iff] using taken
    have own := sound.windows shown (List.mem_of_getElem? (alive_eq_some (page_eq_some there).1).1)
    have fits : BrowserWindow.Sound newUrl browser.everStored
        { shown with minting := shown.minting ++ [origin] } := by
      refine ⟨own.listening, fun other among => ?_⟩
      rcases List.mem_append.1 among with before | now
      · exact own.asking other before
      · cases List.mem_singleton.1 now
        exact openerOrigin_grantable asked
    exact sound.put fits window
  | minted window approval token =>
    obtain ⟨shown, there, origin, asked, rfl⟩ := by
      simpa only [Browser.step, Option.bind_eq_bind, Option.bind_eq_some_iff,
        Option.some.injEq] using taken
    have own := sound.windows shown (List.mem_of_getElem? (alive_eq_some (page_eq_some there).1).1)
    have fits : BrowserWindow.Sound newUrl browser.everStored { shown with
        minting := shown.minting.eraseIdx approval, closed := shown.opener.isSome } :=
      ⟨own.listening, fun other among => own.asking other (List.mem_of_mem_eraseIdx among)⟩
    exact sound.minted (own.asking origin (List.mem_of_getElem? asked)) fits window _
  | mintFails window approval =>
    obtain ⟨shown, there, origin, asked, rfl⟩ := by
      simpa [Browser.step, Option.bind_eq_some_iff] using taken
    have own := sound.windows shown (List.mem_of_getElem? (alive_eq_some (page_eq_some there).1).1)
    have fits : BrowserWindow.Sound newUrl browser.everStored
        { shown with minting := shown.minting.eraseIdx approval } :=
      ⟨own.listening, fun other among => own.asking other (List.mem_of_mem_eraseIdx among)⟩
    exact sound.put fits window
  | post window target targetOrigin data =>
    obtain ⟨shown, there, strange, rfl⟩ := by
      simpa only [Browser.step, Option.bind_eq_bind, Option.bind_eq_some_iff,
        Option.ite_none_left_eq_some, Option.some.injEq] using taken
    refine sound.mail fun message member daemon => ?_
    rcases List.mem_append.1 member with before | now
    · exact sound.sent message before daemon
    · cases List.mem_singleton.1 now
      exact absurd daemon strange
  | deliver index =>
    obtain ⟨message, posted, result⟩ := by
      simpa only [Browser.step, Option.bind_eq_bind, Option.bind_eq_some_iff] using taken
    have taken' : ({ browser with messages := browser.messages.eraseIdx index } : Browser).Sound
        newUrl isDaemon initially :=
      sound.mail fun other member => sound.sent other (List.mem_of_mem_eraseIdx member)
    split at result
    · cases result
      exact taken'
    · rename_i shown there
      split at result
      · rename_i addressed
        cases result
        refine taken'.receive there fun daemon => ?_
        obtain ⟨origin, token, target, carried, approval⟩ :=
          sound.sent message (List.mem_of_getElem? posted) daemon
        rw [target, Option.all_some, decide_eq_true_eq] at addressed
        exact ⟨token, carried, addressed ▸ approval⟩
      · cases result
        exact taken'

theorem sound_start {stored : Bytes → List StoredServer}
    (ids : ∀ owner, ∀ entry ∈ stored owner, ∀ other ∈ stored owner,
      entry.id = other.id → entry.origin = other.origin) :
    (Browser.start stored).Sound newUrl isDaemon stored where
  entries := ids
  kept _ server member := ⟨server, member, rfl, rfl⟩
  windows _ member := (List.not_mem_nil member).elim
  granted _ member := (List.not_mem_nil member).elim
  sent _ member := (List.not_mem_nil member).elim
  heard _ member := (List.not_mem_nil member).elim
  tokens _ server member _ _ written := .inl ⟨server, member, rfl, written⟩

/-! ### A connection that nothing disturbs -/

/-- The entry that one listener is for gets the token, and no other entry changes. -/
theorem setServerToken_map (servers : List StoredServer) (id token : Bytes)
    (change : StoredServer → StoredServer) (kept : ∀ server, (change server).id = server.id) :
    setServerToken (servers.map change) id token = servers.map fun server =>
      if server.id = id then { change server with token := some token } else change server := by
  rw [setServerToken, List.map_map]
  refine List.map_congr_left fun server _ => ?_
  simp only [Function.comp_apply, kept]

/-- Listeners that hear a token store it for the entries that they are for. -/
theorem storeTokens_eq {message : Posted} {token : Bytes} (carried : message.data = .token token)
    (listeners : List TokenListener) (servers : List StoredServer) :
    storeTokens message listeners servers = servers.map fun server =>
      if listeners.any fun listener =>
          (listener.hears message).isSome && listener.server = server.id then
        { server with token := some token }
      else server := by
  induction listeners using List.reverseRecOn with
  | nil => exact (List.map_id servers).symm
  | append_singleton listeners listener inductionHypothesis =>
    have split : storeTokens message (listeners ++ [listener]) servers =
        (listener.hears message).elim (storeTokens message listeners servers)
          (setServerToken (storeTokens message listeners servers) listener.server) := by
      simp only [storeTokens, List.foldl_append, List.foldl_cons, List.foldl_nil]
    rw [split, inductionHypothesis]
    cases hearing : listener.hears message with
    | none => simp [hearing]
    | some value =>
      obtain rfl : value = token :=
        MessageData.token.inj ((hears_eq_some.1 hearing).1.symm.trans carried)
      rw [Option.elim_some, setServerToken_map servers _ _ _ fun server => by split <;> rfl]
      refine List.map_congr_left fun server _ => ?_
      rw [List.any_append, List.any_cons, List.any_nil, hearing]
      by_cases own : server.id = listener.server
      · have told : ((listeners.any fun other =>
            (other.hears message).isSome && other.server = server.id) ||
              ((some value).isSome && listener.server = server.id || false)) = true := by simp [own]
        rw [if_pos own, if_pos told]
        split <;> rfl
      · simp [own, Ne.symm own]

theorem alive_closeWindow_of_none {browser : Browser} {window : Nat} (other : Nat)
    (gone : browser.alive window = none) : (browser.closeWindow other).alive window = none := by
  simp only [alive, closeWindow, List.getElem?_modify] at gone ⊢
  cases found : browser.windows[window]? with
  | none => rfl
  | some shown =>
    rw [found] at gone
    by_cases same : other = window
    · simp [same]
    · simpa [same] using gone

theorem alive_closeWindows_of_none (items : List TokenListener) {browser : Browser} {window : Nat}
    (gone : browser.alive window = none) :
    (items.foldl (fun browser item => browser.closeWindow item.popup) browser).alive window =
      none := by
  induction items generalizing browser with
  | nil => exact gone
  | cons item items inductionHypothesis =>
    exact inductionHypothesis (alive_closeWindow_of_none item.popup gone)

theorem closeWindows_rest (items : List TokenListener) (browser : Browser) :
    (items.foldl (fun browser item => browser.closeWindow item.popup) browser).stored =
        browser.stored ∧
      (items.foldl (fun browser item => browser.closeWindow item.popup) browser).approvals =
        browser.approvals := by
  induction items generalizing browser with
  | nil => exact ⟨rfl, rfl⟩
  | cons item items inductionHypothesis =>
    exact inductionHypothesis (browser.closeWindow item.popup)

/-- A page stores a token that reaches it for the entries that it waited for at the sender. -/
theorem stored_receive {browser : Browser} {window : Nat} {shown : BrowserWindow}
    {message : Posted} {token : Bytes} (carried : message.data = .token token) :
    (browser.receive window shown message).stored =
      Function.update browser.stored shown.origin ((browser.stored shown.origin).map fun stored =>
        if shown.awaits message.sender stored.id then { stored with token := some token }
        else stored) := by
  have heard : ∀ listener : TokenListener, (listener.hears message).isSome =
      decide (listener.origin = message.sender) := by
    intro listener
    by_cases own : message.sender = listener.origin
    · simp [TokenListener.hears, carried, own]
    · simp [TokenListener.hears, carried, own, Ne.symm own]
  rw [receive, (closeWindows_rest _ _).1, storeTokens_eq carried]
  refine congrArg (Function.update browser.stored shown.origin) (List.map_congr_left ?_)
  intro stored _
  simp [heard, List.any_filter, BrowserWindow.awaits]

end Browser

/-- Whatever windows, pages and messages there are: what a page reads of a daemon's messages is
a token that the daemon's user approved for that page's origin; a token that comes to be stored
for a daemon is one that this daemon minted for the origin that stores it; and none was ever
approved but for an origin that a consent page may show. -/
theorem tokens_reach_approved (newUrl : Bytes → Option Url) (isDaemon : Bytes → Bool)
    {stored : Bytes → List StoredServer}
    (ids : ∀ owner, ∀ entry ∈ stored owner, ∀ other ∈ stored owner,
      entry.id = other.id → entry.origin = other.origin)
    {actions : List BrowserAction} {final : Browser}
    (run : Run (Browser.step newUrl isDaemon) anything (Browser.start stored) actions final) :
    (∀ message ∈ final.received, isDaemon message.sender → ∃ token,
        message.data = .token token ∧
          ⟨message.sender, message.receiver, token⟩ ∈ final.approvals) ∧
      (∀ owner, ∀ server ∈ final.stored owner, isDaemon server.origin →
        ∀ token, server.token = some token →
          (∃ before ∈ stored owner, before.id = server.id ∧ before.token = some token) ∨
            ⟨server.origin, owner, token⟩ ∈ final.approvals) ∧
      ∀ approval ∈ final.approvals, Grantable newUrl approval.shown := by
  have sound : final.Sound newUrl isDaemon stored :=
    run.invariant (Browser.Sound newUrl isDaemon stored) (Browser.sound_start ids)
      fun _ _ _ sound _ taken => sound.step taken
  exact ⟨sound.heard, sound.tokens, sound.granted⟩

/-- From whatever state, connecting to a daemon, approving and minting bring the token to the
page: of what the page's origin has stored, the entries of that server get it, and so do those
that the page still waited for at the same daemon; nothing else that is stored changes, one
approval is recorded and the popup is gone. -/
theorem connect_completes {browser : Browser} {window entry : Nat} {shown : BrowserWindow}
    {server : StoredServer} {address own : Url}
    (there : browser.page isDaemon window = some shown)
    (entered : (browser.everStored shown.origin)[entry]? = some server)
    (daemon : isDaemon server.origin) (hashless : hashByte ∉ server.origin)
    (opened : newUrl (connectUrl server.origin shown.origin) = some address)
    (located : address.origin = server.origin) (present : shown.origin ≠ [])
    (read : newUrl shown.origin = some own) (grantable : own.grantable)
    (same : own.origin = shown.origin) (token : Bytes) :
    let popup := browser.windows.length
    ∃ final, Run (Browser.step newUrl isDaemon) anything browser
        [.connect window entry false, .approve popup, .minted popup 0 token,
          .deliver browser.messages.length] final ∧
      final.approvals = browser.approvals ++ [⟨server.origin, shown.origin, token⟩] ∧
      final.alive popup = none ∧
      final.stored shown.origin = (browser.stored shown.origin).map (fun stored =>
        if stored.id = server.id ∨ shown.awaits server.origin stored.id then
          { stored with token := some token }
        else stored) ∧
      ∀ owner, owner ≠ shown.origin → final.stored owner = browser.stored owner := by
  intro popup
  have found := (Browser.alive_eq_some (Browser.page_eq_some there).1).1
  have awake := (Browser.alive_eq_some (Browser.page_eq_some there).1).2
  have bound : window < browser.windows.length := (List.getElem?_eq_some_iff.1 found).1
  have apart : popup ≠ window := Nat.ne_of_gt bound
  let listening : BrowserWindow := { shown with
    listeners := shown.listeners ++ [⟨server.id, server.origin, popup⟩] }
  let consent (closed : Bool) (minting : List Bytes) : BrowserWindow :=
    ⟨server.origin, hashOf (connectUrl server.origin shown.origin), some window, closed, [],
      minting⟩
  let windows (consent : BrowserWindow) := browser.windows.set window listening ++ [consent]
  have length : (browser.windows.set window listening).length = popup := List.length_set
  have last (consent : BrowserWindow) : (windows consent)[popup]? = some consent := by
    rw [← length]
    exact List.getElem?_concat_length
  have changed (consent other : BrowserWindow) :
      (windows consent).set popup other = windows other := by
    show (browser.windows.set window listening ++ [consent]).set popup other = _
    rw [← length, List.set_append_right _ _ (Nat.le_refl _), Nat.sub_self]
    rfl
  have opener (consent : BrowserWindow) : (windows consent)[window]? = some listening := by
    show (browser.windows.set window listening ++ [consent])[window]? = _
    rw [List.getElem?_append_left (by rw [List.length_set]; exact bound),
      List.getElem?_set_self bound]
  -- the popup opens and asks for the page's own origin
  have connecting : browser.step newUrl isDaemon (.connect window entry false) =
      some { browser with windows := windows (consent false []) } := by
    simp only [Browser.step, Option.bind_eq_bind, there, entered, opened, Option.bind_some,
      Bool.false_eq_true, if_false, located]
    rfl
  have approving : Browser.step newUrl isDaemon
      { browser with windows := windows (consent false []) } (.approve popup) =
        some { browser with windows := windows (consent false [shown.origin]) } := by
    have asks := openerOrigin_connectUrl newUrl hashless present read grantable same
    have page : Browser.page isDaemon { browser with windows := windows (consent false []) } popup =
        some (consent false []) :=
      Browser.page_of_getElem? (last _) rfl daemon
    simp only [Browser.step, Option.bind_eq_bind, page, Option.bind_some, asks, consent,
      Browser.put, changed, List.nil_append]
  -- the token is minted for it, and the popup closes itself
  let mail : Posted := ⟨window, some shown.origin, server.origin, .token token⟩
  let granted : Browser := { browser with
    windows := windows (consent true [])
    approvals := browser.approvals ++ [⟨server.origin, shown.origin, token⟩]
    messages := browser.messages ++ [mail] }
  have minting : Browser.step newUrl isDaemon
      { browser with windows := windows (consent false [shown.origin]) } (.minted popup 0 token) =
        some granted := by
    have page : Browser.page isDaemon
        { browser with windows := windows (consent false [shown.origin]) } popup =
          some (consent false [shown.origin]) :=
      Browser.page_of_getElem? (last _) rfl daemon
    simp only [Browser.step, Option.bind_eq_bind, page, Option.bind_some]
    simp only [consent, Browser.put, changed, List.getElem?_cons_zero, Option.bind_some]
    rfl
  -- the page takes the message
  let delivered : Browser :=
    { granted with messages := granted.messages.eraseIdx browser.messages.length }
  have arriving : granted.step newUrl isDaemon (.deliver browser.messages.length) =
      some (delivered.receive window listening mail) := by
    have posted : granted.messages[browser.messages.length]? = some mail :=
      List.getElem?_concat_length
    have open' : granted.alive mail.target = some listening :=
      Browser.alive_of_getElem? (opener _) awake
    simp only [Browser.step, Option.bind_eq_bind, posted, Option.bind_some, open']
    exact if_pos (decide_eq_true rfl)
  refine ⟨delivered.receive window listening mail, ?_, ?_, ?_, ?_, ?_⟩
  · exact (((Run.nil.snoc trivial connecting).snoc trivial approving).snoc trivial minting).snoc
      trivial arriving
  · exact (Browser.closeWindows_rest _ _).2
  · refine Browser.alive_closeWindows_of_none _ ?_
    show (((windows (consent true [])).set window _)[popup]?).filter _ = none
    rw [List.getElem?_set_ne apart.symm, last]
    rfl
  · have awaited : ∀ id, listening.awaits server.origin id = true ↔
        id = server.id ∨ shown.awaits server.origin id = true := by
      intro id
      by_cases own : id = server.id
      · simp [BrowserWindow.awaits, listening, own]
      · simp [BrowserWindow.awaits, listening, own, Ne.symm own]
    rw [Browser.stored_receive rfl]
    refine (Function.update_self ..).trans (List.map_congr_left fun stored _ => ?_)
    rw [if_congr (awaited stored.id) rfl rfl]
  · intro owner other
    rw [Browser.stored_receive rfl]
    exact Function.update_of_ne other _ _

end Connecting

/-! ### Two daemons -/

/-- An address of an https origin, read as far as it is needed here. -/
def readHttps (address : Bytes) : Option Url :=
  (cutPrefix address (bytes "https://")).map fun rest =>
    let host := rest.takeWhile (· ≠ 0x2F)
    ⟨bytes "https:", host.takeWhile (· ≠ 0x3A), bytes "https://" ++ host⟩

/-- The daemon that the page came from. -/
def besideDaemon : Bytes := bytes "https://a:1"

/-- Another daemon. -/
def remoteDaemon : Bytes := bytes "https://b:2"

/-- The two of them are the daemons there are. -/
def areDaemons (origin : Bytes) : Bool := origin = besideDaemon || origin = remoteDaemon

/-- The page of the first lists the second, without a token. -/
def oneRemote (owner : Bytes) : List StoredServer :=
  if owner = besideDaemon then [⟨bytes "1", remoteDaemon, bytes "b", none⟩] else []

/-- A page connects while a stranger posts a token of its own. -/
def connectBesideStranger : List BrowserAction :=
  [.openWindow none besideDaemon (bytes "#/settings"), .connect 0 0 false,
    .openWindow none (bytes "https://c:3") [], .post 2 0 none (.token [9]), .approve 1,
    .minted 1 0 [7], .deliver 0, .deliver 0]

theorem tokens_reach_approved_oneRemote : ∃ final : Browser,
    (final.stored besideDaemon).map StoredServer.token = [some [7]] ∧
      (∀ message ∈ final.received, areDaemons message.sender → ∃ token,
        message.data = .token token ∧
          ⟨message.sender, message.receiver, token⟩ ∈ final.approvals) ∧
      ∀ approval ∈ final.approvals, Grantable readHttps approval.shown := by
  obtain ⟨final, done, told⟩ := exists_of_exec (Browser.step readHttps areDaemons)
    (Browser.start oneRemote) connectBesideStranger
    (fun browser => (browser.stored besideDaemon).map StoredServer.token = [some [7]]) rfl
  have distinct : ∀ owner, ∀ entry ∈ oneRemote owner, ∀ other ∈ oneRemote owner,
      entry.id = other.id → entry.origin = other.origin := by
    intro owner entry member other among _
    unfold oneRemote at member among
    split at member
    · rw [if_pos ‹_›] at among
      rw [List.mem_singleton.1 member, List.mem_singleton.1 among]
    · exact (List.not_mem_nil member).elim
  have reached := tokens_reach_approved readHttps areDaemons distinct (Run.of_exec_anything done)
  exact ⟨final, of_decide_eq_true told, reached.1, reached.2.2⟩

/-- A page of the one daemon, with the other one stored, in a window of its own. -/
def settingsOpen : Browser :=
  { Browser.start oneRemote with
    windows := [⟨besideDaemon, bytes "#/settings", none, false, [], []⟩] }

theorem connect_completes_oneRemote :
    ∃ final : Browser, Run (Browser.step readHttps areDaemons) anything settingsOpen
        [.connect 0 0 false, .approve 1, .minted 1 0 [7], .deliver 0] final ∧
      final.approvals = [⟨remoteDaemon, besideDaemon, [7]⟩] ∧ final.alive 1 = none ∧
      final.stored besideDaemon = [⟨bytes "1", remoteDaemon, bytes "b", some [7]⟩] := by
  have there : settingsOpen.page areDaemons 0 =
      some ⟨besideDaemon, bytes "#/settings", none, false, [], []⟩ := rfl
  have entered : (settingsOpen.everStored besideDaemon)[0]? =
      some ⟨bytes "1", remoteDaemon, bytes "b", none⟩ := rfl
  obtain ⟨final, run, approved, gone, stored, -⟩ := connect_completes readHttps areDaemons there
    entered rfl (by decide) rfl rfl (by decide) rfl rfl rfl [7]
  exact ⟨final, run, approved, gone, stored⟩

end Multimux
