/-
This file models how one daemon's pages get a token for another daemon: the
list of servers in a page's storage, the popup that asks for consent, and the
message that brings the token back. Around these pages stands any number of
other windows, which open, navigate, close and post what they like. A token
is only ever read where its user allowed it, and what is stored for a server is
that server's own token, granted to the page that stores it.
-/

import Multimux.Bytes
import Multimux.Runs

namespace Multimux

/-! ### The request in the popup's address -/

/-- The percent sign. -/
def percentByte : UInt8 := 0x25

/-- The number sign. -/
def hashByte : UInt8 := 0x23

/-- The question mark. -/
def questionByte : UInt8 := 0x3F

/-- The ampersand. -/
def ampersandByte : UInt8 := 0x26

/-- The equals sign. -/
def equalsByte : UInt8 := 0x3D

/-- The bytes that `encodeURIComponent` leaves as they are. -/
def isUriPlain (byte : UInt8) : Bool :=
  0x30 ≤ byte && byte ≤ 0x39 || 0x41 ≤ byte && byte ≤ 0x5A || 0x61 ≤ byte && byte ≤ 0x7A ||
    (bytes "-_.!~*'()").contains byte

/-- A digit of base sixteen as `encodeURIComponent` writes it. -/
def upperHex (value : UInt8) : UInt8 := if value < 10 then 0x30 + value else 0x37 + value

/-- `encodeURIComponent`, on the bytes of the text. -/
def encodeURIComponent (text : Bytes) : Bytes :=
  text.flatMap fun byte =>
    if isUriPlain byte then [byte] else [percentByte, upperHex (byte / 16), upperHex (byte % 16)]

/-- The value of a digit of base sixteen, in either case. -/
def hexValue (byte : UInt8) : Option UInt8 :=
  if 0x30 ≤ byte ∧ byte ≤ 0x39 then some (byte - 0x30)
  else if 0x41 ≤ byte ∧ byte ≤ 0x46 then some (byte - 0x37)
  else if 0x61 ≤ byte ∧ byte ≤ 0x66 then some (byte - 0x57)
  else none

/-- The percent decoder of a query: a percent sign that no two digits follow stays. -/
def percentDecode : Bytes → Bytes
  | byte :: high :: low :: rest =>
    match hexValue high, hexValue low with
    | some first, some second =>
      if byte = percentByte then (first * 16 + second) :: percentDecode rest
      else byte :: percentDecode (high :: low :: rest)
    | _, _ => byte :: percentDecode (high :: low :: rest)
  | short => short

/-- A plus sign stands for a blank. -/
def formDecode (text : Bytes) : Bytes :=
  percentDecode (text.map fun byte => if byte = 0x2B then 0x20 else byte)

/-- `get` of `URLSearchParams`. -/
def searchParam (search name : Bytes) : Option Bytes :=
  ((trimPrefixByte search questionByte).splitOn ampersandByte).findSome? fun pair =>
    let (key, value) := (cut pair equalsByte).getD (pair, [])
    if pair ≠ [] ∧ formDecode key = name then some (formDecode value) else none

/-- What is read of an address. -/
structure Url where
  protocol : Bytes
  hostname : Bytes
  origin : Bytes

section Connecting

variable (newUrl : Bytes → Option Url) (isDaemon : Bytes → Bool)

/-- A page of this origin may be handed a token: it came over TLS, or from this machine. -/
def Url.grantable (url : Url) : Bool :=
  url.protocol = bytes "https:" ||
    (url.protocol = bytes "http:" &&
      (url.hostname = bytes "localhost" || url.hostname = bytes "127.0.0.1"))

/-- The origin that the `opener` parameter names, if a page there may be handed a token. -/
def parseOpenerOrigin (search : Bytes) : Option Bytes :=
  match searchParam search (bytes "opener") with
  | none => none
  | some raw =>
    if raw = [] then none
    else match newUrl raw with
      | none => none
      | some url => if url.grantable then some url.origin else none

/-- The page of a daemon that mints a token for the page that opens it. -/
def connectUrl (server own : Bytes) : Bytes :=
  server ++ bytes "/#/connect?opener=" ++ encodeURIComponent own

/-- `location.hash` of an address. -/
def hashOf (address : Bytes) : Bytes := address.dropWhile (· ≠ hashByte)

/-- The origin that the page at this hash asks consent for. -/
def openerOrigin (hash : Bytes) : Option Bytes :=
  if (bytes "#/connect").isPrefixOf hash then
    parseOpenerOrigin newUrl (questionByte :: ((hash.splitOn questionByte)[1]?.getD []))
  else none

/-! ### Windows and what they hold -/

/-- An entry of the list of servers that a page stores for its origin. -/
structure StoredServer where
  id : Bytes
  origin : Bytes
  name : Bytes
  token : Option Bytes

/-- The listener of one `connectServer` call. -/
structure TokenListener where
  server : Bytes
  origin : Bytes
  popup : Nat

/-- A window. Its listeners and the approvals that wait for their token are those of the page
that it shows; only a daemon's pages have any. -/
structure BrowserWindow where
  origin : Bytes
  hash : Bytes
  opener : Option Nat
  closed : Bool
  listeners : List TokenListener
  minting : List Bytes

/-- What a message between windows says. -/
inductive MessageData
  | token (value : Bytes)
  | unrelated

/-- A message on its way; without a target origin it is for whatever the window shows. -/
structure Posted where
  target : Nat
  targetOrigin : Option Bytes
  sender : Bytes
  data : MessageData

/-- A message event that a page got. -/
structure ReceivedMessage where
  receiver : Bytes
  sender : Bytes
  data : MessageData

/-- A token that a daemon minted for the origin that its user saw and approved. -/
structure Approval where
  daemon : Bytes
  shown : Bytes
  token : Bytes

/-- The storage of each origin, with every entry there ever was in it, and the windows. -/
structure Browser where
  stored : Bytes → List StoredServer
  everStored : Bytes → List StoredServer
  windows : List BrowserWindow
  messages : List Posted
  approvals : List Approval
  received : List ReceivedMessage

/-- What the user and the pages do. -/
inductive BrowserAction
  | openWindow (opener : Option Nat) (origin hash : Bytes)
  | navigate (window : Nat) (origin hash : Bytes)
  | rehash (window : Nat) (hash : Bytes)
  | close (window : Nat)
  | addServer (window : Nat) (origin name id : Bytes)
  | removeServer (window : Nat) (id : Bytes)
  | connect (window entry : Nat) (blocked : Bool)
  | poll (window listener : Nat)
  | approve (window : Nat)
  | minted (window approval : Nat) (token : Bytes)
  | mintFails (window approval : Nat)
  | post (window target : Nat) (targetOrigin : Option Bytes) (data : MessageData)
  | deliver (message : Nat)

/-! ### The pages' own steps -/

/-- `setServerToken`: the token of the entries with the id. -/
def setServerToken (servers : List StoredServer) (id token : Bytes) : List StoredServer :=
  servers.map fun server => if server.id = id then { server with token := some token } else server

/-- The message is one that the listener takes, with this token. -/
def TokenListener.hears (listener : TokenListener) (message : Posted) : Option Bytes :=
  match message.data with
  | .token value => if message.sender = listener.origin then some value else none
  | .unrelated => none

/-- The page waits for a token from the origin for the entry. -/
def BrowserWindow.awaits (shown : BrowserWindow) (origin id : Bytes) : Bool :=
  shown.listeners.any fun listener => listener.origin = origin && listener.server = id

/-- The listeners take the message, in order. -/
def storeTokens (message : Posted) (listeners : List TokenListener) (servers : List StoredServer) :
    List StoredServer :=
  listeners.foldl (fun servers listener =>
    (listener.hears message).elim servers (setServerToken servers listener.server)) servers

namespace Browser

/-- The window, when a page in it can still act. -/
def alive (browser : Browser) (window : Nat) : Option BrowserWindow :=
  browser.windows[window]?.filter (!·.closed)

/-- The window, when it shows a page of a daemon. -/
def page (browser : Browser) (window : Nat) : Option BrowserWindow :=
  (browser.alive window).filter (isDaemon ·.origin)

/-- The browser with another content of a window. -/
def put (browser : Browser) (window : Nat) (shown : BrowserWindow) : Browser :=
  { browser with windows := browser.windows.set window shown }

/-- A window is closed; what it held is kept. -/
def closeWindow (browser : Browser) (window : Nat) : Browser :=
  { browser with
    windows := browser.windows.modify window fun shown => { shown with closed := true } }

/-- The list of an origin is written. -/
def store (browser : Browser) (owner : Bytes) (servers : List StoredServer) : Browser :=
  { browser with stored := Function.update browser.stored owner servers }

/-- What a page does with a message that reached it. -/
def receive (browser : Browser) (window : Nat) (shown : BrowserWindow) (message : Posted) :
    Browser :=
  let heard := shown.listeners.filter fun listener => (listener.hears message).isSome
  let left := shown.listeners.filter fun listener => (listener.hears message).isNone
  let servers := storeTokens message heard (browser.stored shown.origin)
  let told := (browser.store shown.origin servers).put window { shown with listeners := left }
  heard.foldl (fun browser listener => browser.closeWindow listener.popup) { told with
    received := browser.received ++ [⟨shown.origin, message.sender, message.data⟩] }

/-- One action, where the windows that it names are open. -/
def step (browser : Browser) : BrowserAction → Option Browser
  | .openWindow opener origin hash =>
    some { browser with windows := browser.windows ++ [⟨origin, hash, opener, false, [], []⟩] }
  | .navigate window origin hash => do
    let shown ← browser.alive window
    some (browser.put window ⟨origin, hash, shown.opener, false, [], []⟩)
  | .rehash window hash => do
    let shown ← browser.alive window
    some (browser.put window { shown with hash })
  | .close window => some (browser.closeWindow window)
  | .addServer window origin name id => do
    let shown ← browser.page isDaemon window
    let server : StoredServer := ⟨id, trimSuffixByte origin 0x2F, name, none⟩
    -- a random UUID is one that no entry ever had
    if (browser.everStored shown.origin).any (·.id = id) then none
    else some { browser.store shown.origin (browser.stored shown.origin ++ [server]) with
      everStored := Function.update browser.everStored shown.origin
        (browser.everStored shown.origin ++ [server]) }
  | .removeServer window id => do
    let shown ← browser.page isDaemon window
    some (browser.store shown.origin ((browser.stored shown.origin).filter (·.id ≠ id)))
  | .connect window entry blocked => do
    let shown ← browser.page isDaemon window
    -- the entry that the page still shows may be gone from the storage
    let server ← (browser.everStored shown.origin)[entry]?
    let address := connectUrl server.origin shown.origin
    let url ← newUrl address
    if blocked then some browser
    else
      let waiting : TokenListener := ⟨server.id, server.origin, browser.windows.length⟩
      some { browser with
        windows := browser.windows.set window { shown with
            listeners := shown.listeners ++ [waiting] } ++
          [⟨url.origin, hashOf address, some window, false, [], []⟩] }
  | .poll window listener => do
    let shown ← browser.page isDaemon window
    let waiting ← shown.listeners[listener]?
    if (browser.alive waiting.popup).isSome then some browser
    else some (browser.put window { shown with listeners := shown.listeners.eraseIdx listener })
  | .approve window => do
    let shown ← browser.page isDaemon window
    let origin ← openerOrigin newUrl shown.hash
    some (browser.put window { shown with minting := shown.minting ++ [origin] })
  | .minted window approval token => do
    let shown ← browser.page isDaemon window
    let origin ← shown.minting[approval]?
    let answered := browser.put window { shown with
      minting := shown.minting.eraseIdx approval, closed := shown.opener.isSome }
    some { answered with
      approvals := browser.approvals ++ [⟨shown.origin, origin, token⟩]
      messages := browser.messages ++ shown.opener.toList.map fun opener =>
        ⟨opener, some origin, shown.origin, .token token⟩ }
  | .mintFails window approval => do
    let shown ← browser.page isDaemon window
    let _ ← shown.minting[approval]?
    some (browser.put window { shown with minting := shown.minting.eraseIdx approval })
  | .post window target targetOrigin data => do
    let shown ← browser.alive window
    if isDaemon shown.origin then none
    else some { browser with
      messages := browser.messages ++ [⟨target, targetOrigin, shown.origin, data⟩] }
  | .deliver index => do
    let message ← browser.messages[index]?
    let delivered := { browser with messages := browser.messages.eraseIdx index }
    match browser.alive message.target with
    | none => some delivered
    | some shown =>
      if message.targetOrigin.all (· = shown.origin) then
        some (delivered.receive message.target shown message)
      else some delivered

/-- A browser without windows, and what the origins have stored. -/
def start (stored : Bytes → List StoredServer) : Browser where
  stored
  everStored := stored
  windows := []
  messages := []
  approvals := []
  received := []

end Browser

end Connecting

end Multimux
