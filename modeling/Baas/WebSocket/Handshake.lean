import Baas.Lib.JsonText
import Baas.WebSocket.Authority
import Mathlib.Data.List.DropRight

/-! `validate_handshake`: one pass over the header fields, then a chain of checks. -/
namespace Baas.WebSocket

open JsonText (ascii)

def asciiFold (c : UInt8) : UInt8 := if 65 ≤ c ∧ c ≤ 90 then c + 32 else c

def asciiIequals (left right : Bytes) : Bool :=
  left.length = right.length && (left.zip right).all (fun (a, b) => asciiFold a = asciiFold b)

def isOws (c : UInt8) : Bool := c = 32 || c = 9

def trimOws (value : Bytes) : Bytes := (value.dropWhile isOws).rdropWhile isOws

def tcharSymbols : Bytes := [33, 35, 36, 37, 38, 39, 42, 43, 45, 46, 94, 95, 96, 124, 126]

def isTchar (c : UInt8) : Bool := isAlnum c || tcharSymbols.contains c

def validHeaderName (name : Bytes) : Bool := !(name = []) && name.all isTchar

def validHeaderValue (value : Bytes) : Bool :=
  value.all (fun c => c = 9 || !(c < 0x20 || c = 0x7F))

/-! The list of extensions. The functions return what is left. -/

def skipOws (value : Bytes) : Bytes := value.dropWhile isOws

def consumeToken (value : Bytes) : Option Bytes :=
  let rest := value.dropWhile isTchar
  if rest.length = value.length then none else some rest

/-- Behind the opening quote. `hasDecodedToken` says that something has been read. -/
def quotedTail (hasDecodedToken : Bool) : Bytes → Option Bytes
  | [] => none
  | c :: rest =>
    if c = 34 then (if hasDecodedToken then some rest else none)
    else if c = 92 then
      match rest with
      | [] => none
      | escaped :: rest => if !isTchar escaped then none else quotedTail true rest
    else if !isTchar c then none
    else quotedTail true rest

def consumeQuotedString : Bytes → Option Bytes
  | [] => none
  | c :: rest => if c = 34 then quotedTail false rest else none

/-- What may follow the name of a parameter. -/
def consumeParameterValue (value : Bytes) : Option Bytes :=
  match value with
  | 61 :: rest =>
    let rest := skipOws rest
    if rest = [] then none
    else if rest.head? = some 34 then (consumeQuotedString rest).map skipOws
    else (consumeToken rest).map skipOws
  | value => some value

/-- The parameters of an extension. Each takes two bytes at least, which bounds the loop. -/
def extensionParameters : Nat → Bytes → Option Bytes
  | 0, _ => none
  | fuel + 1, value =>
    match value with
    | 59 :: rest =>
      match (consumeToken (skipOws rest)).bind
          (fun rest => consumeParameterValue (skipOws rest)) with
      | none => none
      | some rest => extensionParameters fuel rest
    | value => some value

def extensionList : Nat → Bytes → Bool
  | 0, _ => false
  | fuel + 1, value =>
    match (consumeToken value).bind
        (fun rest => extensionParameters (rest.length + 1) (skipOws rest)) with
    | none => false
    | some [] => true
    | some (c :: rest) =>
      if c ≠ 44 then false
      else
        let rest := skipOws rest
        if rest = [] then false else extensionList fuel rest

def validExtensionOffer (value : Bytes) : Bool :=
  let value := skipOws value
  if value = [] then false else extensionList (value.length + 1) value

/-! The other values. -/

def base64Value (c : UInt8) : Option Nat :=
  if 65 ≤ c ∧ c ≤ 90 then some (c.toNat - 65)
  else if 97 ≤ c ∧ c ≤ 122 then some (26 + (c.toNat - 97))
  else if 48 ≤ c ∧ c ≤ 57 then some (52 + (c.toNat - 48))
  else if c = 43 then some 62
  else if c = 47 then some 63
  else none

def validWebsocketKey (value : Bytes) : Bool :=
  if value.length ≠ 24 ∨ value.drop 22 ≠ [61, 61] then false
  else if !(value.take 22).all (fun c => (base64Value c).isSome) then false
  else ((value.drop 21).head?.bind base64Value).any (fun last => last &&& 0x0F = 0)

inductive ConnectionValueResult
  | validWithUpgrade | validWithoutUpgrade | invalid
deriving DecidableEq

def connectionTokens (foundUpgrade : Bool) : List Bytes → ConnectionValueResult
  | [] => if foundUpgrade then .validWithUpgrade else .validWithoutUpgrade
  | piece :: rest =>
    let token := trimOws piece
    if token = [] then .invalid
    else if !token.all isTchar then .invalid
    else connectionTokens (foundUpgrade || asciiIequals token (ascii "upgrade")) rest

def validateConnectionValue (value : Bytes) : ConnectionValueResult :=
  connectionTokens false (value.splitOn 44)

inductive ContentLengthResult
  | zero | invalid | nonzero
deriving DecidableEq

def validateContentLength (value : Bytes) : ContentLengthResult :=
  let value := trimOws value
  if value = [] then .invalid
  else if !value.all Decimal.isDigit then .invalid
  else if value.any (fun c => c ≠ 48) then .nonzero
  else .zero

/-! The request. -/

def websocketHandshakeMaxHeaderFields : Nat := 64
def websocketHandshakeMaxHeaderBytes : Nat := 32 * 1024
def websocketHandshakeMaxHostBytes : Nat := 255

structure HandshakeHeaderField where
  name : Bytes
  value : Bytes
deriving DecidableEq

inductive HandshakeChannel
  | control | provider | sync | trigger | remote
deriving DecidableEq

/-- How often a field is there. Its value is kept where it is there once. -/
inductive SelectedHeader
  | absent
  | single (value : Bytes)
  | multiple
deriving DecidableEq

inductive HandshakeDecision
  | notWebsocket | accept | reject
deriving DecidableEq

inductive HandshakeError
  | none | unknownWebsocketPath | remoteDisabled | methodNotGet | httpVersionNot11
  | tooManyHeaderFields | headerBytesExceeded | invalidHeaderName | invalidHeaderValue
  | hostMissing | hostDuplicate | hostEmpty | hostTooLarge | hostInvalid
  | nonCanonicalRequestTarget | upgradeMissing | upgradeDuplicate | upgradeNotWebsocket
  | connectionMissing | connectionDuplicate | connectionInvalid | connectionUpgradeMissing
  | websocketKeyMissing | websocketKeyDuplicate | websocketKeyInvalid
  | websocketVersionMissing | websocketVersionDuplicate | websocketVersionUnsupported
  | contentLengthDuplicate | contentLengthInvalid | contentLengthNonzero
  | transferEncodingForbidden | subprotocolUnsupported | extensionsUnsupported
deriving DecidableEq

structure HandshakeResult where
  decision : HandshakeDecision
  error : HandshakeError
  channel : HandshakeChannel
  origin : SelectedHeader := .absent
  cookie : SelectedHeader := .absent
deriving DecidableEq

structure RouteResult where
  decision : HandshakeDecision
  error : HandshakeError
  channel : HandshakeChannel
deriving DecidableEq

def classifyRoute (path : Bytes) (remoteEnabled : Bool) : RouteResult :=
  if path = ascii "/ws/control" then ⟨.accept, .none, .control⟩
  else if path = ascii "/ws/provider" then ⟨.accept, .none, .provider⟩
  else if path = ascii "/ws/sync" then ⟨.accept, .none, .sync⟩
  else if path = ascii "/ws/trigger" then ⟨.accept, .none, .trigger⟩
  else if path = ascii "/ws/remote" then
    if !remoteEnabled then ⟨.reject, .remoteDisabled, .remote⟩ else ⟨.accept, .none, .remote⟩
  else if !(ascii "/ws/").isPrefixOf path then ⟨.notWebsocket, .none, .control⟩
  else ⟨.reject, .unknownWebsocketPath, .control⟩

structure Occurrence where
  count : Nat := 0
  first : Bytes := []

def Occurrence.add (occurrence : Occurrence) (value : Bytes) : Occurrence :=
  { count := occurrence.count + 1
    first := if occurrence.count = 0 then value else occurrence.first }

def selected (occurrence : Occurrence) : SelectedHeader :=
  if occurrence.count = 0 then .absent
  else if occurrence.count = 1 then .single occurrence.first
  else .multiple

/-- The fields the handshake looks at, in the order of the comparisons. -/
inductive HandshakeField
  | host | upgrade | connection | key | version | contentLength | transferEncoding
  | subprotocol | extensions | origin | cookie
deriving DecidableEq

def HandshakeField.name : HandshakeField → Bytes
  | .host => ascii "Host"
  | .upgrade => ascii "Upgrade"
  | .connection => ascii "Connection"
  | .key => ascii "Sec-WebSocket-Key"
  | .version => ascii "Sec-WebSocket-Version"
  | .contentLength => ascii "Content-Length"
  | .transferEncoding => ascii "Transfer-Encoding"
  | .subprotocol => ascii "Sec-WebSocket-Protocol"
  | .extensions => ascii "Sec-WebSocket-Extensions"
  | .origin => ascii "Origin"
  | .cookie => ascii "Cookie"

def handshakeFields : List HandshakeField :=
  [.host, .upgrade, .connection, .key, .version, .contentLength, .transferEncoding,
    .subprotocol, .extensions, .origin, .cookie]

def fieldOf (name : Bytes) : Option HandshakeField :=
  handshakeFields.find? (fun field => asciiIequals name field.name)

/-- What the pass over the fields has gathered. -/
structure Gathered where
  headerBytes : Nat := 0
  occurrences : HandshakeField → Occurrence := fun _ => {}
  extensionOffersValid : Bool := true

def Gathered.sort (g : Gathered) (header : HandshakeHeaderField) : Gathered :=
  match fieldOf header.name with
  | none => g
  | some field =>
    { g with
      occurrences := fun other =>
        if other = field then (g.occurrences field).add header.value else g.occurrences other
      extensionOffersValid := if field = .extensions
        then g.extensionOffersValid && validExtensionOffer header.value
        else g.extensionOffersValid }

/-- One field. An error comes with what had been gathered before it. -/
def gatherField (g : Gathered) (header : HandshakeHeaderField) :
    Except (HandshakeError × Gathered) Gathered :=
  if header.name.length > websocketHandshakeMaxHeaderBytes - g.headerBytes then
    .error (.headerBytesExceeded, g)
  else
    let headerBytes := g.headerBytes + header.name.length
    if header.value.length > websocketHandshakeMaxHeaderBytes - headerBytes then
      .error (.headerBytesExceeded, g)
    else if !validHeaderName header.name then .error (.invalidHeaderName, g)
    else if !validHeaderValue header.value then .error (.invalidHeaderValue, g)
    else .ok ({ g with headerBytes := headerBytes + header.value.length }.sort header)

/-! The checks once all fields are there, each with its error. -/

def checkHost (host : Occurrence) : HandshakeError :=
  let hostValue := trimOws host.first
  if host.count = 0 then .hostMissing
  else if host.count ≠ 1 then .hostDuplicate
  else if hostValue = [] then .hostEmpty
  else if hostValue.length > websocketHandshakeMaxHostBytes then .hostTooLarge
  else if hostValue ≠ host.first ∨ !validAuthority hostValue then .hostInvalid
  else .none

def checkUpgrade (upgrade : Occurrence) : HandshakeError :=
  if upgrade.count = 0 then .upgradeMissing
  else if upgrade.count ≠ 1 then .upgradeDuplicate
  else if !asciiIequals (trimOws upgrade.first) (ascii "websocket") then .upgradeNotWebsocket
  else .none

def checkConnection (connection : Occurrence) : HandshakeError :=
  if connection.count = 0 then .connectionMissing
  else if connection.count ≠ 1 then .connectionDuplicate
  else
    match validateConnectionValue connection.first with
    | .invalid => .connectionInvalid
    | .validWithoutUpgrade => .connectionUpgradeMissing
    | .validWithUpgrade => .none

def checkKey (key : Occurrence) : HandshakeError :=
  if key.count = 0 then .websocketKeyMissing
  else if key.count ≠ 1 then .websocketKeyDuplicate
  else if !validWebsocketKey (trimOws key.first) then .websocketKeyInvalid
  else .none

def checkVersion (version : Occurrence) : HandshakeError :=
  if version.count = 0 then .websocketVersionMissing
  else if version.count ≠ 1 then .websocketVersionDuplicate
  else if trimOws version.first ≠ ascii "13" then .websocketVersionUnsupported
  else .none

def checkContentLength (contentLength : Occurrence) : HandshakeError :=
  if contentLength.count > 1 then .contentLengthDuplicate
  else if contentLength.count = 1 then
    match validateContentLength contentLength.first with
    | .invalid => .contentLengthInvalid
    | .nonzero => .contentLengthNonzero
    | .zero => .none
  else .none

def checkRest (g : Gathered) : HandshakeError :=
  if (g.occurrences .transferEncoding).count ≠ 0 then .transferEncodingForbidden
  else if (g.occurrences .subprotocol).count ≠ 0 then .subprotocolUnsupported
  else if !g.extensionOffersValid then .extensionsUnsupported
  else .none

/-- The error of the first check that fails. -/
def firstError (g : Gathered) : HandshakeError :=
  ([checkHost (g.occurrences .host), checkUpgrade (g.occurrences .upgrade),
    checkConnection (g.occurrences .connection), checkKey (g.occurrences .key),
    checkVersion (g.occurrences .version), checkContentLength (g.occurrences .contentLength),
    checkRest g].find? (· ≠ .none)).getD .none

structure HandshakeRequest where
  method : Bytes
  httpVersion : Bytes
  rawTarget : Bytes
  decodedPath : Bytes
  headers : List HandshakeHeaderField

def validateHandshake (request : HandshakeRequest) (remoteEnabled : Bool) : HandshakeResult :=
  let route := classifyRoute request.decodedPath remoteEnabled
  if route.decision ≠ .accept then ⟨route.decision, route.error, route.channel, .absent, .absent⟩
  else if request.rawTarget ≠ request.decodedPath then
    ⟨.reject, .nonCanonicalRequestTarget, route.channel, .absent, .absent⟩
  else if request.method ≠ ascii "GET" then
    ⟨.reject, .methodNotGet, route.channel, .absent, .absent⟩
  else if request.httpVersion ≠ ascii "HTTP/1.1" then
    ⟨.reject, .httpVersionNot11, route.channel, .absent, .absent⟩
  else if request.headers.length > websocketHandshakeMaxHeaderFields then
    ⟨.reject, .tooManyHeaderFields, route.channel, .absent, .absent⟩
  else
    let refuse (g : Gathered) (error : HandshakeError) : HandshakeResult :=
      ⟨.reject, error, route.channel, selected (g.occurrences .origin),
        selected (g.occurrences .cookie)⟩
    match request.headers.foldlM gatherField {} with
    | .error (error, g) => refuse g error
    | .ok g =>
      if firstError g = .none then
        ⟨.accept, .none, route.channel, selected (g.occurrences .origin),
          selected (g.occurrences .cookie)⟩
      else refuse g (firstError g)

end Baas.WebSocket
