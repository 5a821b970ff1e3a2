import Baas.WebSocket.HandshakeValues

/-! Which requests the handshake takes, and that the order of the fields and the case of
their names do not matter. -/
namespace Baas.WebSocket

open JsonText (ascii)

/-! The checks. -/

theorem occurrence_absent (values : List Bytes) : (occurrence values).count = 0 ↔ values = [] :=
  List.length_eq_zero_iff

theorem occurrence_single (values : List Bytes) :
    (occurrence values).count = 1 ↔ ∃ value, values = [value] := List.length_eq_one_iff

/-- A field that has to be there once passes its check with one value that is good. -/
theorem once_iff {values : List Bytes} {missing duplicate : HandshakeError}
    {rest : HandshakeError} {good : Bytes → Prop} (bad : missing ≠ .none ∧ duplicate ≠ .none)
    (judged : ∀ value, values = [value] → (rest = .none ↔ good value)) :
    (if (occurrence values).count = 0 then missing
      else if (occurrence values).count ≠ 1 then duplicate else rest) = .none ↔
      ∃ value, values = [value] ∧ good value := by
  split
  · next absent =>
    rw [occurrence_absent] at absent
    refine ⟨fun same => absurd same bad.1, fun ⟨value, single, _⟩ => ?_⟩
    cases absent.symm.trans single
  split
  · next several =>
    refine ⟨fun same => absurd same bad.2, fun ⟨value, single, _⟩ => ?_⟩
    exact absurd ((occurrence_single values).mpr ⟨value, single⟩) several
  · next single =>
    obtain ⟨value, single⟩ := (occurrence_single values).mp (Decidable.not_not.mp single)
    rw [judged value single]
    constructor
    · exact fun fine => ⟨value, single, fine⟩
    · rintro ⟨other, same, fine⟩
      cases single.symm.trans same
      exact fine

theorem checkHost_iff (values : List Bytes) : checkHost (occurrence values) = .none ↔
    ∃ value, values = [value] ∧ value.length ≤ websocketHandshakeMaxHostBytes ∧
      validAuthority value = true := by
  refine once_iff (by decide) (fun value single => ?_)
  subst single
  change (if trimOws value = [] then HandshakeError.hostEmpty
    else if (trimOws value).length > websocketHandshakeMaxHostBytes then .hostTooLarge
    else if trimOws value ≠ value ∨ (!validAuthority (trimOws value)) = true then .hostInvalid
    else .none) = .none ↔ _
  constructor
  · intro passed
    split at passed
    · cases passed
    split at passed
    · cases passed
    next short =>
    split at passed
    · cases passed
    next fine =>
    simp only [not_or, Decidable.not_not, Bool.not_eq_true', Bool.not_eq_false] at fine
    rw [fine.1] at short fine
    exact ⟨Nat.not_lt.mp short, fine.2⟩
  · rintro ⟨short, valid⟩
    obtain ⟨filled, dark⟩ := validAuthority_dark valid
    rw [trimOws_self dark, if_neg filled, if_neg (Nat.not_lt.mpr short), valid]
    simp

theorem checkUpgrade_iff (values : List Bytes) : checkUpgrade (occurrence values) = .none ↔
    ∃ value, values = [value] ∧ lower (trimOws value) = lower (ascii "websocket") := by
  refine once_iff (by decide) (fun value single => ?_)
  subst single
  rw [← asciiIequals_iff]
  change (if (!asciiIequals (trimOws value) (ascii "websocket")) = true
    then HandshakeError.upgradeNotWebsocket else .none) = .none ↔ _
  cases asciiIequals (trimOws value) (ascii "websocket") <;> simp

theorem checkConnection_iff (values : List Bytes) : checkConnection (occurrence values) = .none ↔
    ∃ value, values = [value] ∧ UpgradeList value := by
  refine once_iff (by decide) (fun value single => ?_)
  subst single
  rw [← validateConnectionValue_iff]
  have first : (occurrence [value]).first = value := rfl
  rw [first]
  cases validateConnectionValue value <;> simp

theorem checkKey_iff (values : List Bytes) : checkKey (occurrence values) = .none ↔
    ∃ value, values = [value] ∧
      ∃ bytes : Bytes, bytes.length = 16 ∧ trimOws value = base64 bytes := by
  refine once_iff (by decide) (fun value single => ?_)
  subst single
  rw [← validWebsocketKey_iff]
  change (if (!validWebsocketKey (trimOws value)) = true
    then HandshakeError.websocketKeyInvalid else .none) = .none ↔ _
  cases validWebsocketKey (trimOws value) <;> simp

theorem checkVersion_iff (values : List Bytes) : checkVersion (occurrence values) = .none ↔
    ∃ value, values = [value] ∧ trimOws value = ascii "13" := by
  refine once_iff (by decide) (fun value single => ?_)
  subst single
  change (if trimOws value ≠ ascii "13" then HandshakeError.websocketVersionUnsupported
    else .none) = .none ↔ _
  by_cases same : trimOws value = ascii "13" <;> simp [same]

theorem checkContentLength_iff (values : List Bytes) :
    checkContentLength (occurrence values) = .none ↔
      values = [] ∨ ∃ value, values = [value] ∧ ZeroNumeral (trimOws value) := by
  rcases values with _ | ⟨value, _ | ⟨other, rest⟩⟩
  · simp [checkContentLength, occurrence]
  · have first : (occurrence [value]).first = value := rfl
    have judged : checkContentLength (occurrence [value]) = .none ↔
        ZeroNumeral (trimOws value) := by
      rw [← validateContentLength_iff]
      unfold checkContentLength
      rw [first]
      cases validateContentLength value <;> simp [occurrence]
    exact judged.trans (by simp)
  · simp [checkContentLength, occurrence]

theorem checkRest_iff (headers : List HandshakeHeaderField) :
    checkRest (gathered headers) = .none ↔ valuesOf .transferEncoding headers = [] ∧
      valuesOf .subprotocol headers = [] ∧
      ∀ value ∈ valuesOf .extensions headers, ExtensionOffer value := by
  have offers : (∀ value ∈ valuesOf .extensions headers, ExtensionOffer value) ↔
      (gathered headers).extensionOffersValid = true := by
    rw [gathered, List.all_eq_true]
    exact forall₂_congr (fun value _ => (validExtensionOffer_iff value).symm)
  rw [offers, ← occurrence_absent, ← occurrence_absent (valuesOf .subprotocol headers)]
  change (if (occurrence (valuesOf .transferEncoding headers)).count ≠ 0
      then HandshakeError.transferEncodingForbidden
    else if (occurrence (valuesOf .subprotocol headers)).count ≠ 0 then .subprotocolUnsupported
    else if (!(gathered headers).extensionOffersValid) = true then .extensionsUnsupported
    else .none) = .none ↔ _
  cases (gathered headers).extensionOffersValid <;>
    by_cases first : (occurrence (valuesOf .transferEncoding headers)).count = 0 <;>
    by_cases second : (occurrence (valuesOf .subprotocol headers)).count = 0 <;>
    simp [first, second]

theorem firstError_iff (g : Gathered) : firstError g = .none ↔
    checkHost (g.occurrences .host) = .none ∧ checkUpgrade (g.occurrences .upgrade) = .none ∧
      checkConnection (g.occurrences .connection) = .none ∧
      checkKey (g.occurrences .key) = .none ∧ checkVersion (g.occurrences .version) = .none ∧
      checkContentLength (g.occurrences .contentLength) = .none ∧ checkRest g = .none := by
  have passes (errors : List HandshakeError) :
      (errors.find? (· ≠ .none)).getD .none = .none ↔ ∀ error ∈ errors, error = .none := by
    cases found : errors.find? (· ≠ .none) with
    | none => simpa [List.find?_eq_none] using found
    | some error =>
      have other : error ≠ .none := by simpa using List.find?_some found
      exact ⟨fun same => absurd same other,
        fun all => absurd (all error (List.mem_of_find?_eq_some found)) other⟩
  rw [firstError, passes]
  simp only [List.forall_mem_cons, List.not_mem_nil, false_implies, implies_true, and_true]

/-! The requests. -/

/-- The path of a channel. That of the remote channel has to be enabled. -/
def ChannelPath (remoteEnabled : Bool) (path : Bytes) (channel : HandshakeChannel) : Prop :=
  (path, channel) ∈ [(ascii "/ws/control", .control), (ascii "/ws/provider", .provider),
      (ascii "/ws/sync", .sync), (ascii "/ws/trigger", .trigger)] ∨
    remoteEnabled = true ∧ path = ascii "/ws/remote" ∧ channel = .remote

/-- What the handshake asks of a request, field by field. -/
structure Acceptable (request : HandshakeRequest) (remoteEnabled : Bool)
    (channel : HandshakeChannel) : Prop where
  path : ChannelPath remoteEnabled request.decodedPath channel
  target : request.rawTarget = request.decodedPath
  method : request.method = ascii "GET"
  version : request.httpVersion = ascii "HTTP/1.1"
  few : request.headers.length ≤ websocketHandshakeMaxHeaderFields
  small : headerBytes request.headers ≤ websocketHandshakeMaxHeaderBytes
  formed : ∀ header ∈ request.headers, WellFormed header
  host : ∃ value, valuesOf .host request.headers = [value] ∧
    value.length ≤ websocketHandshakeMaxHostBytes ∧ validAuthority value = true
  upgrade : ∃ value, valuesOf .upgrade request.headers = [value] ∧
    lower (trimOws value) = lower (ascii "websocket")
  connection : ∃ value, valuesOf .connection request.headers = [value] ∧ UpgradeList value
  key : ∃ value, valuesOf .key request.headers = [value] ∧
    ∃ bytes : Bytes, bytes.length = 16 ∧ trimOws value = base64 bytes
  protocolVersion : ∃ value, valuesOf .version request.headers = [value] ∧
    trimOws value = ascii "13"
  contentLength : valuesOf .contentLength request.headers = [] ∨
    ∃ value, valuesOf .contentLength request.headers = [value] ∧ ZeroNumeral (trimOws value)
  transferEncoding : valuesOf .transferEncoding request.headers = []
  subprotocol : valuesOf .subprotocol request.headers = []
  extensions : ∀ value ∈ valuesOf .extensions request.headers, ExtensionOffer value

theorem paths_distinct : [ascii "/ws/control", ascii "/ws/provider", ascii "/ws/sync",
    ascii "/ws/trigger", ascii "/ws/remote"].Nodup := by
  simp only [JsonText.ascii_eq]
  decide

theorem classifyRoute_iff (path : Bytes) (remoteEnabled : Bool) (channel : HandshakeChannel) :
    (classifyRoute path remoteEnabled).decision = .accept ∧
      (classifyRoute path remoteEnabled).channel = channel ↔
      ChannelPath remoteEnabled path channel := by
  unfold classifyRoute ChannelPath
  have distinct := paths_distinct
  generalize ascii "/ws/control" = control at *
  generalize ascii "/ws/provider" = provider at *
  generalize ascii "/ws/sync" = sync at *
  generalize ascii "/ws/trigger" = trigger at *
  generalize ascii "/ws/remote" = remote at *
  simp only [List.nodup_cons, List.mem_cons, List.not_mem_nil, or_false, not_or] at distinct
  obtain ⟨⟨cp, cs, ct, cr⟩, ⟨ps, pt, pr⟩, ⟨st, sr⟩, tr, -⟩ := distinct
  simp only [List.mem_cons, Prod.mk.injEq, List.not_mem_nil, or_false]
  constructor
  · rintro ⟨accepted, rfl⟩
    split at accepted
    · next same => simp [same]
    split at accepted
    · next other same => simp [same, Ne.symm cp]
    split at accepted
    · next same => simp [same, Ne.symm cs, Ne.symm ps]
    split at accepted
    · next same => simp [same, Ne.symm ct, Ne.symm pt, Ne.symm st]
    split at accepted
    · next same =>
      cases remoteEnabled with
      | false => cases accepted
      | true => simp [same, Ne.symm cr, Ne.symm pr, Ne.symm sr, Ne.symm tr]
    split at accepted
    · cases accepted
    · cases accepted
  · rintro ((⟨rfl, rfl⟩ | ⟨rfl, rfl⟩ | ⟨rfl, rfl⟩ | ⟨rfl, rfl⟩) | ⟨rfl, rfl, rfl⟩)
    · simp
    · simp [Ne.symm cp]
    · simp [Ne.symm cs, Ne.symm ps]
    · simp [Ne.symm ct, Ne.symm pt, Ne.symm st]
    · simp [Ne.symm cr, Ne.symm pr, Ne.symm sr, Ne.symm tr]

/-- What the handshake answers where it accepts. -/
def acceptance (request : HandshakeRequest) (channel : HandshakeChannel) : HandshakeResult :=
  ⟨.accept, .none, channel, selected (occurrence (valuesOf .origin request.headers)),
    selected (occurrence (valuesOf .cookie request.headers))⟩

theorem gathered_passes (headers : List HandshakeHeaderField) :
    firstError (gathered headers) = .none ↔
      (∃ value, valuesOf .host headers = [value] ∧
        value.length ≤ websocketHandshakeMaxHostBytes ∧ validAuthority value = true) ∧
      (∃ value, valuesOf .upgrade headers = [value] ∧
        lower (trimOws value) = lower (ascii "websocket")) ∧
      (∃ value, valuesOf .connection headers = [value] ∧ UpgradeList value) ∧
      (∃ value, valuesOf .key headers = [value] ∧
        ∃ bytes : Bytes, bytes.length = 16 ∧ trimOws value = base64 bytes) ∧
      (∃ value, valuesOf .version headers = [value] ∧ trimOws value = ascii "13") ∧
      (valuesOf .contentLength headers = [] ∨ ∃ value,
        valuesOf .contentLength headers = [value] ∧ ZeroNumeral (trimOws value)) ∧
      valuesOf .transferEncoding headers = [] ∧ valuesOf .subprotocol headers = [] ∧
      ∀ value ∈ valuesOf .extensions headers, ExtensionOffer value := by
  rw [firstError_iff, checkRest_iff]
  simp only [gathered, checkHost_iff, checkUpgrade_iff, checkConnection_iff, checkKey_iff,
    checkVersion_iff, checkContentLength_iff]

theorem gathers (headers : List HandshakeHeaderField) (g : Gathered) :
    headers.foldlM gatherField {} = .ok g ↔ (∀ header ∈ headers, WellFormed header) ∧
      headerBytes headers ≤ websocketHandshakeMaxHeaderBytes ∧ g = gathered headers :=
  @gather_iff [] headers g (Nat.zero_le _)

theorem validateHandshake_iff (request : HandshakeRequest) (remoteEnabled : Bool)
    (result : HandshakeResult) :
    validateHandshake request remoteEnabled = result ∧ result.decision = .accept ↔
      ∃ channel, Acceptable request remoteEnabled channel ∧
        result = acceptance request channel := by
  constructor
  · rintro ⟨rfl, accepted⟩
    unfold validateHandshake at accepted ⊢
    dsimp only at accepted ⊢
    split at accepted
    · next other => exact absurd accepted other
    next route =>
    split at accepted
    · cases accepted
    next target =>
    split at accepted
    · cases accepted
    next method =>
    split at accepted
    · cases accepted
    next version =>
    split at accepted
    · cases accepted
    next few =>
    split at accepted
    · cases accepted
    next g done =>
    split at accepted
    · next passed =>
      obtain ⟨formed, small, rfl⟩ := (gathers _ g).mp done
      obtain ⟨host, upgrade, connection, key, protocol, length, encoding, sub, extensions⟩ :=
        (gathered_passes _).mp passed
      refine ⟨_, ⟨(classifyRoute_iff _ _ _).mp ⟨Decidable.not_not.mp route, rfl⟩,
        Decidable.not_not.mp target, Decidable.not_not.mp method, Decidable.not_not.mp version,
        Nat.not_lt.mp few, small, formed, host, upgrade, connection, key, protocol, length,
        encoding, sub, extensions⟩, ?_⟩
      rw [if_neg route, if_neg target, if_neg method, if_neg version, if_neg few, if_pos passed]
      rfl
    · cases accepted
  · rintro ⟨channel, fine, rfl⟩
    obtain ⟨accepted, named⟩ := (classifyRoute_iff _ _ _).mpr fine.path
    have done := (gathers request.headers _).mpr ⟨fine.formed, fine.small, rfl⟩
    have passed := (gathered_passes request.headers).mpr ⟨fine.host, fine.upgrade, fine.connection,
      fine.key, fine.protocolVersion, fine.contentLength, fine.transferEncoding,
      fine.subprotocol, fine.extensions⟩
    refine ⟨?_, rfl⟩
    unfold validateHandshake
    dsimp only
    rw [if_neg (Decidable.not_not.mpr accepted), if_neg (Decidable.not_not.mpr fine.target),
      if_neg (Decidable.not_not.mpr fine.method), if_neg (Decidable.not_not.mpr fine.version),
      if_neg (Nat.not_lt.mpr fine.few), done]
    dsimp only
    rw [if_pos passed, named]
    rfl

/-! The order of the fields. -/

/-- A field with its name in lower case. -/
def folded (header : HandshakeHeaderField) : Bytes × Bytes := (lower header.name, header.value)

/-- The same fields in another order, with their names in any case. -/
def SameFields (first second : List HandshakeHeaderField) : Prop :=
  (first.map folded).Perm (second.map folded)

variable {first second : List HandshakeHeaderField}

theorem valuesOf_folded (field : HandshakeField) (headers : List HandshakeHeaderField) :
    valuesOf field headers =
      ((headers.map folded).filter (fun pair => pair.1 = lower field.name)).map Prod.snd := by
  unfold valuesOf
  rw [List.filter_map, List.map_map]
  rfl

theorem SameFields.values (same : SameFields first second) (field : HandshakeField) :
    (valuesOf field first).Perm (valuesOf field second) := by
  rw [valuesOf_folded, valuesOf_folded]
  exact (same.filter _).map _

theorem headerBytes_folded (headers : List HandshakeHeaderField) : headerBytes headers =
    ((headers.map folded).map (fun pair => pair.1.length + pair.2.length)).sum := by
  unfold headerBytes
  rw [List.map_map]
  congr 1
  refine List.map_congr_left (fun header _ => ?_)
  simp [folded, lower]

theorem isTchar_fold (c : UInt8) : isTchar (asciiFold c) = isTchar c := by
  have all := JsonText.byte_forall (p := fun c => isTchar (asciiFold c) = isTchar c)
    (by decide +kernel) c
  simpa using all

theorem token_lower (name : Bytes) : Token (lower name) ↔ Token name := by
  have each : (∀ c ∈ lower name, isTchar c = true) ↔ ∀ c ∈ name, isTchar c = true := by
    simp [lower, isTchar_fold]
  constructor
  · exact fun token => ⟨fun empty => token.some (by rw [empty]; rfl), each.mp token.each⟩
  · exact fun token => ⟨fun empty => token.some (List.map_eq_nil_iff.mp empty),
      each.mpr token.each⟩

theorem wellFormed_folded (headers : List HandshakeHeaderField) :
    (∀ header ∈ headers, WellFormed header) ↔ ∀ pair ∈ headers.map folded, Token pair.1 ∧
      ∀ c ∈ pair.2, c = 9 ∨ 0x20 ≤ c ∧ c ≠ 0x7F := by
  rw [List.forall_mem_map]
  refine forall₂_congr (fun header _ => ?_)
  rw [folded, token_lower]
  exact ⟨fun formed => ⟨formed.name, formed.value⟩, fun ⟨name, value⟩ => ⟨name, value⟩⟩

theorem once_perm {left right : List Bytes} {good : Bytes → Prop} (perm : left.Perm right)
    (once : ∃ value, left = [value] ∧ good value) : ∃ value, right = [value] ∧ good value := by
  obtain ⟨value, rfl, fine⟩ := once
  exact ⟨value, List.singleton_perm.mp perm |>.symm, fine⟩

theorem selected_perm {left right : List Bytes} (perm : left.Perm right) :
    selected (occurrence left) = selected (occurrence right) := by
  match left, right, perm with
  | [], right, perm => rw [List.nil_perm.mp perm]
  | [value], right, perm => rw [← List.singleton_perm.mp perm]
  | a :: b :: left, right, perm =>
    have size := perm.length_eq
    simp only [List.length_cons] at size
    unfold selected occurrence
    dsimp only
    rw [if_neg (by simp), if_neg (by simp), if_neg (by omega), if_neg (by omega)]

theorem Acceptable.perm {request : HandshakeRequest} {remoteEnabled : Bool}
    {channel : HandshakeChannel} {headers : List HandshakeHeaderField}
    (same : SameFields request.headers headers)
    (fine : Acceptable request remoteEnabled channel) :
    Acceptable { request with headers } remoteEnabled channel where
  path := fine.path
  target := fine.target
  method := fine.method
  version := fine.version
  few := by
    have size := same.length_eq
    rw [List.length_map, List.length_map] at size
    exact size ▸ fine.few
  small := by
    have small := fine.small
    rw [headerBytes_folded] at small ⊢
    rwa [← (same.map _).sum_nat]
  formed := by
    have formed := fine.formed
    rw [wellFormed_folded] at formed ⊢
    exact fun pair there => formed pair (same.mem_iff.mpr there)
  host := once_perm (same.values _) fine.host
  upgrade := once_perm (same.values _) fine.upgrade
  connection := once_perm (same.values _) fine.connection
  key := once_perm (same.values _) fine.key
  protocolVersion := once_perm (same.values _) fine.protocolVersion
  contentLength := by
    obtain none | once := fine.contentLength
    · exact .inl (List.nil_perm.mp (none ▸ same.values _))
    · exact .inr (once_perm (same.values _) once)
  transferEncoding := List.nil_perm.mp (fine.transferEncoding ▸ same.values _)
  subprotocol := List.nil_perm.mp (fine.subprotocol ▸ same.values _)
  extensions := fun value there => fine.extensions value ((same.values _).mem_iff.mpr there)

theorem accepts_iff (request : HandshakeRequest) (remoteEnabled : Bool) :
    (validateHandshake request remoteEnabled).decision = .accept ↔
      ∃ channel, Acceptable request remoteEnabled channel := by
  constructor
  · intro accepted
    obtain ⟨channel, fine, _⟩ := (validateHandshake_iff request remoteEnabled _).mp ⟨rfl, accepted⟩
    exact ⟨channel, fine⟩
  · rintro ⟨channel, fine⟩
    obtain ⟨same, accepted⟩ :=
      (validateHandshake_iff request remoteEnabled _).mpr ⟨channel, fine, rfl⟩
    rw [same]
    exact accepted

theorem SameFields.symm (same : SameFields first second) : SameFields second first :=
  List.Perm.symm same

/-- Refused or not, the channel is that of the path. -/
theorem validateHandshake_channel (request : HandshakeRequest) (remoteEnabled : Bool) :
    (validateHandshake request remoteEnabled).channel =
      (classifyRoute request.decodedPath remoteEnabled).channel := by
  unfold validateHandshake
  dsimp only
  split
  · rfl
  split
  · rfl
  split
  · rfl
  split
  · rfl
  split
  · rfl
  split
  · rfl
  split <;> rfl

def orderedRequest (headers : List HandshakeHeaderField) : HandshakeRequest :=
  { method := ascii "GET", httpVersion := ascii "HTTP/1.1", rawTarget := ascii "/ws/sync",
    decodedPath := ascii "/ws/sync", headers }

def plainHeaders : List HandshakeHeaderField :=
  [⟨ascii "Host", ascii "localhost:8080"⟩, ⟨ascii "Upgrade", ascii "websocket"⟩,
    ⟨ascii "Connection", ascii "keep-alive, Upgrade"⟩,
    ⟨ascii "Sec-WebSocket-Key", ascii "dGhlIHNhbXBsZSBub25jZQ=="⟩,
    ⟨ascii "Sec-WebSocket-Version", ascii "13"⟩]

end Baas.WebSocket
