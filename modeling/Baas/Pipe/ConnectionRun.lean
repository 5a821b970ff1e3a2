import Baas.Pipe.ConnectionPhase

/-! The loop of a connection goes through the phases, whatever the cuts, and keeps its account
of reservations and of the handler on the way. -/
namespace Baas.Pipe

open Interaction

/-! The phases know the stream. -/

/-- The phase is that of the whole stream so far. -/
def Tracks (host : PipeHost) (stream : Bytes) : Phase → Prop
  | .opening h => h = stream ∧ h.length < headerSize
  | .openPayload h declared p => h ++ p = stream ∧ h.length = headerSize ∧
      openDeclared host.limits h = .ok declared ∧ p.length < declared
  | .framing scan => scan.Within ∧ scan.decoder.error = none ∧
      ∃ frame frames, (Scan.header []).bytes stream = (scan, frame :: frames)
  | .stopped _ _ => True

section Tracking

variable {host : PipeHost} {stream : Bytes}

theorem stopPhase_yields {good : Phase → Prop} (stops : ∀ c e, good (.stopped c e))
    (created : Bool) (error : PipeHostError) : (stopPhase created error).Yields good :=
  (yields_any _).seq (fun _ _ => stops _ _)

theorem presented_yields {good : Phase → Prop} (goes : good (.framing (.header [])))
    (stops : ∀ c e, good (.stopped c e)) (opened : Bool) (frame : Frame) (reserved : Nat) :
    (presented host opened frame reserved).Yields good := by
  refine (yields_any _).seq (fun processed _ => ?_)
  cases processed.2 with
  | some error =>
    cases opened with
    | true => exact (stopPhase_yields stops _ _).seq (fun phase held =>
        (yields_any _).seq (fun _ _ => held))
    | false => exact (yields_any _).seq (fun _ _ => stopPhase_yields stops _ _)
  | none =>
    refine (yields_any _).seq (fun _ _ => ?_)
    cases processed.1.keepRunning with
    | true => exact goes
    | false => exact stops _ _

theorem found_append {scan : Scan} {frame : Frame} {frames : List Frame} {a b : Bytes}
    (found : (Scan.header []).bytes a = (scan, frame :: frames)) :
    (Scan.header []).bytes (a ++ b) =
      ((scan.bytes b).1, frame :: (frames ++ (scan.bytes b).2)) := by
  rw [Scan.bytes_append, found]
  rfl

theorem advance_tracks {phase : Phase} (tracks : Tracks host stream phase) (b : UInt8) :
    (advance host phase b).Yields (Tracks host (stream ++ [b])) := by
  have stops : ∀ c e, Tracks host (stream ++ [b]) (.stopped c e) := fun _ _ => trivial
  cases phase with
  | stopped created error => trivial
  | opening h =>
    obtain ⟨rfl, room⟩ := tracks
    simp only [advance]
    by_cases short : (h ++ [b]).length < headerSize
    · rw [if_pos short]
      exact ⟨rfl, short⟩
    · rw [if_neg short]
      have full : (h ++ [b]).length = headerSize := by
        have one : (h ++ [b]).length = h.length + 1 := List.length_append
        omega
      unfold afterOpenHeader
      cases passed : openDeclared host.limits (h ++ [b]) with
      | error error => exact stopPhase_yields stops _ _
      | ok declared =>
        refine (yields_any _).seq (fun granted _ => ?_)
        cases granted with
        | false => exact stopPhase_yields stops _ _
        | true =>
          by_cases empty : declared = 0
          · simp only [Bool.not_true, Bool.false_eq_true, if_false, if_pos empty]
            refine presented_yields ?_ stops _ _ _
            have scanned := Scan.header_full [] (h ++ [b]) full (by simp)
            refine ⟨fresh_within, rfl, ⟨FrameKind.json.value, []⟩, [], scanned.trans ?_⟩
            simp only [Scan.afterHeader, List.nil_append, headerVerdict_of_open passed,
              if_pos empty]
          · simp only [Bool.not_true, Bool.false_eq_true, if_false, if_neg empty]
            exact ⟨List.append_nil _, full, passed, Nat.pos_of_ne_zero empty⟩
  | openPayload h declared p =>
    obtain ⟨rfl, full, passed, room⟩ := tracks
    simp only [advance]
    have one : (p ++ [b]).length = p.length + 1 := List.length_append
    by_cases complete : (p ++ [b]).length = declared
    · rw [if_pos complete]
      refine presented_yields ?_ stops _ _ _
      refine ⟨fresh_within, rfl, ⟨FrameKind.json.value, p ++ [b]⟩, [], ?_⟩
      have some : h ≠ [] := fun none => by
        rw [none] at full
        cases full
      have positive : declared ≠ 0 := by omega
      rw [List.append_assoc, Scan.bytes_append, Scan.header_full [] h full some]
      simp only [List.nil_append, Scan.afterHeader, headerVerdict_of_open passed,
        if_neg positive]
      rw [Scan.payload_full h _ declared [] (p ++ [b]) complete (by simp)]
      rfl
    · rw [if_neg complete]
      exact ⟨(List.append_assoc _ _ _).symm, full, passed, by omega⟩
  | framing scan =>
    obtain ⟨within, sound, frame, frames, found⟩ := tracks
    have inside := Scan.byte_within within b
    have more := found_append (b := [b]) found
    rw [Scan.bytes_cons, Scan.bytes_nil] at more
    cases scan with
    | broken error => cases sound
    | payload h kind declared p =>
      simp only [advance, Scan.byte] at inside more ⊢
      by_cases complete : (p ++ [b]).length = declared
      · rw [if_pos complete] at more ⊢
        exact presented_yields ⟨fresh_within, rfl, _, _, more⟩ stops _ _ _
      · rw [if_neg complete] at inside more ⊢
        exact ⟨inside, rfl, _, _, more⟩
    | header h =>
      simp only [advance, Scan.byte] at inside more ⊢
      by_cases short : (h ++ [b]).length < headerSize
      · rw [if_pos short] at inside more ⊢
        exact ⟨inside, rfl, _, _, more⟩
      · rw [if_neg short] at inside more ⊢
        unfold afterHeader
        unfold Scan.afterHeader at inside more
        cases verdict : headerVerdict (h ++ [b]) with
        | error error => exact stopPhase_yields stops _ _
        | ok passed =>
          obtain ⟨kind, declared⟩ := passed
          simp only [verdict] at inside more ⊢
          by_cases empty : declared = 0
          · simp only [if_pos empty] at more ⊢
            exact presented_yields ⟨fresh_within, rfl, _, _, more⟩ stops _ _ _
          · simp only [if_neg empty] at inside more ⊢
            refine (yields_any _).seq (fun granted _ => ?_)
            cases granted with
            | false => exact stopPhase_yields stops _ _
            | true => exact ⟨inside, rfl, _, _, more⟩

theorem advanceAll_tracks {phase : Phase} (tracks : Tracks host stream phase) (rest : Bytes) :
    (advanceAll host phase rest).Yields (Tracks host (stream ++ rest)) := by
  induction rest generalizing phase stream with
  | nil =>
    rw [List.append_nil]
    exact tracks
  | cons b rest ih =>
    have split : stream ++ b :: rest = stream ++ [b] ++ rest := by simp
    rw [split]
    exact (advance_tracks tracks b).seq (fun phase held => ih held)

def Phase.open : Phase → Bool
  | framing _ => true
  | _ => false

/-- Whether the opening frame is complete can be told from the phase. -/
theorem opens_of_tracks {phase : Phase} (tracks : Tracks host stream phase)
    (going : ∀ c e, phase ≠ .stopped c e) : opens stream = phase.open := by
  have decoded := congrArg Prod.snd (feed_scan fresh_within stream)
  unfold opens
  have same : (Decoder.fresh.feed stream).2 = ((Scan.header []).bytes stream).2 := decoded
  rw [same]
  cases phase with
  | stopped c e => exact absurd rfl (going c e)
  | opening h =>
    obtain ⟨rfl, short⟩ := tracks
    rw [Scan.header_short [] h short]
    rfl
  | openPayload h declared p =>
    obtain ⟨rfl, full, passed, room⟩ := tracks
    have some : h ≠ [] := fun none => by
      rw [none] at full
      cases full
    have positive : declared ≠ 0 := by omega
    rw [Scan.bytes_append, Scan.header_full [] h full some]
    simp only [List.nil_append, Scan.afterHeader, headerVerdict_of_open passed, if_neg positive]
    rw [Scan.payload_short h _ declared [] p room]
    rfl
  | framing scan =>
    obtain ⟨_, _, frame, frames, found⟩ := tracks
    rw [found]
    rfl

end Tracking

/-! The account of a connection. -/

/-- What a connection has reserved, how much of it is payload by now, and its handler. -/
structure Account where
  reserved : Nat
  kept : Nat
  created : Bool
  closed : Bool

def Account.fresh : Account := ⟨0, 0, false, false⟩

def remark : (q : PipeQuery) → Option (PipeAnswer q)
  | .retain _ _ => some ()
  | _ => none

/-- Payload is only taken under a reservation of the whole declared length; a handler is only
called between its creation and its one `on_close`. -/
def Account.may (account : Account) : PipeQuery → Prop
  | .reserveIngress bytes => bytes ≠ 0 ∧ account.reserved = 0
  | .releaseIngress bytes => bytes ≠ 0 ∧ bytes = account.reserved
  | .retain declared count => account.reserved = declared ∧ account.kept + count ≤ declared
  | .create _ => account.created = false
  | .onOpen => account.created = true ∧ account.closed = false
  | .onFrame _ => account.created = true ∧ account.closed = false
  | .onClose => account.created = true ∧ account.closed = false
  | _ => True

def Account.after (account : Account) : (q : PipeQuery) → PipeAnswer q → Account
  | .reserveIngress bytes, granted => if granted then { account with reserved := bytes } else account
  | .releaseIngress _, _ => { account with reserved := 0, kept := 0 }
  | .retain _ count, _ => { account with kept := account.kept + count }
  | .create _, created => { account with created := created }
  | .onClose, _ => { account with closed := true }
  | _, _ => account

/-- The program keeps to its account, and so does what follows it. -/
abbrev Keeps {α : Type} (settled : Account → α → Prop) (account : Account) (p : Program α) :
    Prop :=
  p.Obeys (fun account q => remark q = none ∧ account.may q) Account.after settled account

abbrev Serves {α β : Type} (post : Account → α → β → Prop) (account : Account) (p : Program α)
    (p' : Program β) : Prop :=
  Adds Account.may Account.after remark post account p p'

section Parts

variable {account : Account}

theorem terminalError_keeps (error : PipeHostError) :
    Keeps (fun after _ => after = account) account (terminalError error) :=
  ⟨⟨rfl, trivial⟩, fun _ => rfl⟩

theorem tell_keeps (error : PipeHostError) :
    Keeps (fun after _ => after = account) account (tellUnlessPoisoned error) := by
  refine ⟨⟨rfl, trivial⟩, fun poisoned => ?_⟩
  cases poisoned with
  | true => rfl
  | false => exact terminalError_keeps error

theorem reserve_keeps (bytes : Nat) (free : account.reserved = 0) :
    Keeps (fun after granted =>
      after = { account with reserved := if granted then bytes else 0 }) account
      (reserveFor bytes) := by
  have same : account = { account with reserved := 0 } := by rw [← free]
  unfold reserveFor
  by_cases none : bytes = 0
  · rw [if_pos none, none]
    exact same
  · rw [if_neg none]
    refine ⟨⟨rfl, none, free⟩, fun granted => ?_⟩
    cases granted with
    | true => rfl
    | false => exact same

theorem release_keeps (bytes : Nat) (held : account.reserved = bytes)
    (covered : account.kept ≤ bytes) :
    Keeps (fun after _ => after = { account with reserved := 0, kept := 0 }) account
      (releaseFor bytes) := by
  unfold releaseFor
  by_cases none : bytes = 0
  · rw [if_pos none]
    obtain ⟨reserved, kept, created, closed⟩ := account
    have unheld : reserved = 0 := held.trans none
    have unkept : kept = 0 := Nat.le_zero.mp (none ▸ covered)
    subst unheld unkept
    rfl
  · rw [if_neg none]
    exact ⟨⟨rfl, none, held.symm⟩, fun _ => rfl⟩

/-- What processing a frame does to the account: only a handler may come into being. -/
def Processed (account : Account) (after : Account)
    (processed : Progress × Option PipeHostError) : Prop :=
  after = { account with created := processed.1.handler } ∧
    (processed.2 = none → processed.1.opened = true ∧ processed.1.handler = true)

theorem applyHandlerResult_keeps {progress : Progress} (live : account.created = progress.handler)
    (opened : progress.opened = true) (handler : progress.handler = true)
    (answer : HandlerAnswer) :
    Keeps (Processed account) account (applyHandlerResult progress answer) := by
  have same : account = { account with created := progress.handler } := by rw [← live]
  cases answer with
  | threw => exact ⟨same, nofun⟩
  | returned action error =>
    refine ⟨⟨rfl, trivial⟩, fun poisoned => ?_⟩
    cases poisoned with
    | true => exact ⟨same, nofun⟩
    | false =>
      cases error with
      | some error => exact ⟨same, nofun⟩
      | none =>
        cases action with
        | continueConnection => exact ⟨same, fun _ => ⟨opened, handler⟩⟩
        | closeConnection =>
          refine ⟨⟨rfl, trivial⟩, fun write => ?_⟩
          cases write with
          | some error => exact ⟨same, nofun⟩
          | none => exact ⟨same, fun _ => ⟨opened, handler⟩⟩

theorem processOpen_keeps (host : PipeHost) (frame : Frame)
    (unmade : account.created = false) (usable : account.closed = false) :
    Keeps (Processed account) account (processOpen host frame ⟨false, true, false⟩) := by
  have same : account = { account with created := false } := by rw [← unmade]
  unfold processOpen
  by_cases kind : frame.kind ≠ FrameKind.json.value
  · rw [if_pos kind]
    exact ⟨same, nofun⟩
  rw [if_neg kind]
  cases decodePipeOpen frame.payload host.limits with
  | error error => exact ⟨same, nofun⟩
  | ok request =>
    refine ⟨⟨rfl, unmade⟩, fun created => ?_⟩
    cases created with
    | false => exact ⟨rfl, nofun⟩
    | true =>
      cases encodePipeOpenOk request.channel with
      | error error => exact ⟨rfl, nofun⟩
      | ok response =>
        refine ⟨⟨rfl, trivial⟩, fun write => ?_⟩
        cases write with
        | some error => exact ⟨rfl, nofun⟩
        | none =>
          refine ⟨⟨rfl, rfl, usable⟩, fun answer => ?_⟩
          have called : Keeps (Processed { account with created := true })
              { account with created := true } (applyHandlerResult ⟨true, true, true⟩ answer) :=
            applyHandlerResult_keeps rfl rfl rfl answer
          exact called

theorem processFrame_keeps (host : PipeHost) (frame : Frame) (opened : Bool)
    (live : account.created = opened) (usable : account.closed = false) :
    Keeps (Processed account) account (processFrame host frame ⟨opened, true, opened⟩) := by
  unfold processFrame
  cases opened with
  | false => exact processOpen_keeps host frame live usable
  | true =>
    have same : account = { account with created := true } := by rw [← live]
    simp only [Bool.not_true, Bool.false_eq_true, if_false]
    by_cases close : frame.kind = FrameKind.close.value
    · simp only [if_pos close]
      by_cases full : frame.payload ≠ []
      · rw [if_pos full]
        exact ⟨same, nofun⟩
      · rw [if_neg full]
        exact ⟨same, fun _ => ⟨rfl, rfl⟩⟩
    by_cases error : frame.kind = FrameKind.error.value
    · simp only [if_neg close, if_pos error]
      exact ⟨same, fun _ => ⟨rfl, rfl⟩⟩
    simp only [if_neg close, if_neg error]
    by_cases foreign : frame.kind ≠ FrameKind.json.value ∧ frame.kind ≠ FrameKind.bytes.value
    · rw [if_pos foreign]
      exact ⟨same, nofun⟩
    · rw [if_neg foreign]
      exact ⟨⟨rfl, live, usable⟩, fun answer => applyHandlerResult_keeps live rfl rfl answer⟩

end Parts

/-! The loop and the phases. -/

def Scan.reserved : Scan → Nat
  | payload _ _ declared _ => declared
  | _ => 0

def Scan.kept : Scan → Nat
  | payload _ _ _ p => p.length
  | _ => 0

/-- The variables of the loop once the connection is open. -/
def Connection.serving (scan : Scan) : Connection :=
  { Connection.fresh with
    progress := ⟨true, true, true⟩, decoder := scan.decoder, decoderReservation := scan.reserved }

/-- The variables of the loop while the opening payload comes in. -/
def Connection.openingPayload (h : Bytes) (declared : Nat) (p : Bytes) : Connection :=
  { Connection.fresh with
    openHeader := h, openExpected := some declared, openPayload := p, openReservation := declared }

/-- The variables and the account of a connection in a phase. -/
def Stands (account : Account) (s : Connection) : Phase → Prop
  | .opening h => s = { Connection.fresh with openHeader := h } ∧ h.length < headerSize ∧
      account = Account.fresh
  | .openPayload h declared p => s = Connection.openingPayload h declared p ∧
      h.length = headerSize ∧ p.length < declared ∧ account = ⟨declared, p.length, false, false⟩
  | .framing scan => s = Connection.serving scan ∧ scan.Within ∧ scan.decoder.error = none ∧
      account = ⟨scan.reserved, scan.kept, true, false⟩
  | .stopped created error => s.progress.keepRunning = false ∧ s.progress.handler = created ∧
      s.ended = error ∧ s.openReservation = 0 ∧ s.decoderReservation = 0 ∧
      account = ⟨0, 0, created, false⟩

/-- After a round that leaves `rest` of the input. -/
def Taken (rest : Bytes) (account : Account) (next : Connection × Bytes) (phase : Phase) : Prop :=
  Stands account next.1 phase ∧ (next.1.progress.keepRunning = true → next.2 = rest)

theorem fail_serves {s : Connection} {created : Bool} (made : s.progress.handler = created)
    (openFree : s.openReservation = 0) (decoderFree : s.decoderReservation = 0)
    (error : PipeHostError) :
    Serves (fun account s phase => Stands account s phase ∧ s.progress.keepRunning = false)
      ⟨0, 0, created, false⟩ (failConnection s error) (stopPhase created error) := by
  refine (Adds.same (tell_keeps error)).seq ?_
  rintro after _ _ ⟨rfl, -⟩
  exact .done ⟨⟨rfl, made, rfl, openFree, decoderFree, rfl⟩, rfl⟩

theorem fail_taken {s : Connection} {created : Bool} (made : s.progress.handler = created)
    (openFree : s.openReservation = 0) (decoderFree : s.decoderReservation = 0)
    (error : PipeHostError) (left rest : Bytes) :
    Serves (Taken rest) ⟨0, 0, created, false⟩
      (failConnection s error >>= fun s => pure (s, left)) (stopPhase created error) := by
  rw [← Interaction.bind_pure (stopPhase created error)]
  refine (fail_serves made openFree decoderFree error).seq ?_
  rintro after s phase ⟨stands, stopped⟩
  refine .done ⟨stands, fun running => ?_⟩
  rw [stopped] at running
  cases running

section Serving

variable {host : PipeHost}

theorem presentOpen_serves (h p : Bytes) (declared : Nat) (covered : p.length ≤ declared) :
    Serves Stands ⟨declared, p.length, false, false⟩
      (presentOpen host (.openingPayload h declared p))
      (presented host false ⟨FrameKind.json.value, p⟩ declared) := by
  refine (Adds.same (processFrame_keeps host _ false rfl rfl)).seq ?_
  rintro after processed _ ⟨⟨rfl, passed⟩, rfl⟩
  obtain ⟨progress, error⟩ := processed
  cases error with
  | some error =>
    refine (Adds.same (release_keeps declared rfl covered)).seq ?_
    rintro after _ _ ⟨rfl, -⟩
    refine Adds.weaken (fail_serves ?_ ?_ ?_ error) (fun _ _ _ held => held.1)
    · rfl
    · rfl
    · rfl
  | none =>
    refine (Adds.same (release_keeps declared rfl covered)).seq ?_
    rintro after _ _ ⟨rfl, -⟩
    obtain ⟨opened, keepRunning, handler⟩ := progress
    obtain ⟨isOpen, isMade⟩ := passed rfl
    simp only at isOpen isMade
    subst isOpen isMade
    cases keepRunning with
    | true => exact .done ⟨rfl, fresh_within, rfl, rfl⟩
    | false => exact .done ⟨rfl, rfl, rfl, rfl, rfl, rfl⟩

theorem takeOpenPayload_serves (h p input : Bytes) (declared : Nat) (full : h.length = headerSize)
    (room : p.length < declared) :
    Serves (Taken (input.drop (declared - p.length))) ⟨declared, p.length, false, false⟩
      (takeOpenPayload host (.openingPayload h declared p) declared input)
      (advanceAll host (.openPayload h declared p) (input.take (declared - p.length))) := by
  have size : (p ++ input.take (declared - p.length)).length =
      p.length + min (declared - p.length) input.length := by
    rw [List.length_append, List.length_take]
  refine .remark rfl ⟨rfl, ?_⟩ (fun _ => ?_)
  · show p.length + min (declared - p.length) input.length ≤ declared
    omega
  have account : Account.after ⟨declared, p.length, false, false⟩
      (.retain declared (min (declared - p.length) input.length)) () =
        ⟨declared, (p ++ input.take (declared - p.length)).length, false, false⟩ := by
    rw [size]
    rfl
  show Serves _ (Account.after ⟨declared, p.length, false, false⟩
      (.retain declared (min (declared - p.length) input.length)) ())
    (if (p ++ input.take (min (declared - p.length) input.length)).length = declared then
      presentOpen host (.openingPayload h declared
        (p ++ input.take (min (declared - p.length) input.length))) >>=
          fun s => pure (s, input.drop (min (declared - p.length) input.length))
    else pure (.openingPayload h declared
      (p ++ input.take (min (declared - p.length) input.length)),
        input.drop (min (declared - p.length) input.length))) _
  rw [account, take_min_eq, drop_min_eq]
  by_cases complete : (p ++ input.take (declared - p.length)).length = declared
  · have piece : input.take (declared - p.length) ≠ [] := by
      intro none
      rw [none, List.append_nil] at complete
      omega
    rw [if_pos complete, openPayload_full h declared p _ complete piece,
      ← Interaction.bind_pure (presented _ _ _ _)]
    refine (presentOpen_serves h _ declared (Nat.le_of_eq complete)).seq ?_
    exact fun _ _ _ stands => .done ⟨stands, fun _ => rfl⟩
  · rw [if_neg complete, openPayload_short h declared p _ (by omega)]
    exact .done ⟨⟨rfl, full, by omega, rfl⟩, fun _ => rfl⟩

theorem takeOpenPayload_empty (h input : Bytes) :
    Serves (Taken input) Account.fresh
      (takeOpenPayload host (.openingPayload h 0 []) 0 input)
      (presented host false ⟨FrameKind.json.value, []⟩ 0) := by
  refine .remark rfl ⟨rfl, ?_⟩ (fun _ => ?_)
  · show 0 + min (0 - 0) input.length ≤ 0
    omega
  have account : Account.after Account.fresh (.retain 0 (min (0 - 0) input.length)) () =
      ⟨0, ([] : Bytes).length, false, false⟩ := by
    rw [Nat.sub_zero, Nat.zero_min]
    rfl
  show Serves _ (Account.after Account.fresh (.retain 0 (min (0 - 0) input.length)) ())
    (if (([] : Bytes) ++ input.take (min (0 - 0) input.length)).length = 0 then
      presentOpen host (.openingPayload h 0
        (([] : Bytes) ++ input.take (min (0 - 0) input.length))) >>=
          fun s => pure (s, input.drop (min (0 - 0) input.length))
    else pure (.openingPayload h 0 (([] : Bytes) ++ input.take (min (0 - 0) input.length)),
      input.drop (min (0 - 0) input.length))) _
  rw [account, Nat.sub_zero, Nat.zero_min, ← Interaction.bind_pure (presented _ _ _ _)]
  exact (presentOpen_serves h [] 0 (Nat.le_refl 0)).seq
    (fun _ _ _ stands => .done ⟨stands, fun _ => rfl⟩)

/-- A round of the loop, over the input it takes. -/
def RoundServed (host : PipeHost) (account : Account) (phase : Phase) (input : Bytes)
    (round : Program (Connection × Bytes)) : Prop :=
  ∃ taken rest, input = taken ++ rest ∧ taken ≠ [] ∧
    Serves (Taken rest) account round (advanceAll host phase taken)

theorem judgeOpenHeader_serves (h input : Bytes) (full : h.length = headerSize) :
    ∃ taken, taken <+: input ∧
      Serves (Taken (input.drop taken.length)) Account.fresh
        (judgeOpenHeader host { Connection.fresh with openHeader := h } input)
        (afterOpenHeader host h >>= fun phase => advanceAll host phase taken) := by
  unfold judgeOpenHeader afterOpenHeader
  cases openDeclared host.limits h with
  | error error =>
    refine ⟨[], List.nil_prefix, ?_⟩
    show Serves _ _ _ (stopPhase false error >>= pure)
    rw [Interaction.bind_pure]
    refine fail_taken ?_ ?_ ?_ error _ _ <;> rfl
  | ok declared =>
    refine ⟨input.take declared, List.take_prefix _ _, ?_⟩
    have left : input.drop (input.take declared).length = input.drop declared := by
      rw [List.length_take, drop_min_eq]
    rw [left]
    simp only [Interaction.bind_assoc]
    refine (Adds.same (reserve_keeps declared rfl)).seq ?_
    rintro after granted _ ⟨rfl, rfl⟩
    cases granted with
    | false =>
      show Serves _ _ _ (stopPhase false _ >>= fun phase => advanceAll host phase _)
      have absorbed : (stopPhase false .ingressBudgetExhausted >>= fun phase =>
          advanceAll host phase (input.take declared)) =
            stopPhase false .ingressBudgetExhausted := by
        rw [stopPhase, Interaction.bind_assoc]
        refine congrArg _ (funext (fun _ => ?_))
        exact stopped_advanceAll host _ _ _
      rw [absorbed]
      refine fail_taken ?_ ?_ ?_ _ _ _ <;> rfl
    | true =>
      by_cases empty : declared = 0
      · subst empty
        show Serves _ _ _ (presented host false ⟨FrameKind.json.value, []⟩ 0 >>= pure)
        rw [Interaction.bind_pure, List.drop_zero]
        exact takeOpenPayload_empty h input
      · have positive : ([] : Bytes).length < declared := Nat.pos_of_ne_zero empty
        simp only [Bool.not_true, Bool.false_eq_true, if_false, if_neg empty]
        exact takeOpenPayload_serves h [] input declared full positive

theorem openOnce_serves (h input : Bytes) (room : h.length < headerSize) (some : input ≠ []) :
    RoundServed host Account.fresh (.opening h) input
      (openOnce host { Connection.fresh with openHeader := h } input) := by
  have positive : 0 < input.length := List.length_pos_iff.mpr some
  have size : (h ++ input.take (headerSize - h.length)).length =
      h.length + min (headerSize - h.length) input.length := by
    rw [List.length_append, List.length_take]
  unfold openOnce
  rw [if_pos (by exact room)]
  simp only [take_min_eq, drop_min_eq]
  by_cases short : (h ++ input.take (headerSize - h.length)).length < headerSize
  · have all : input.take (headerSize - h.length) = input := List.take_of_length_le (by omega)
    rw [if_pos short, all, List.drop_of_length_le (by omega)]
    rw [all] at short
    refine ⟨input, [], (List.append_nil _).symm, some, ?_⟩
    rw [opening_short h input short]
    exact .done ⟨⟨rfl, short, rfl⟩, fun _ => rfl⟩
  · have full : (h ++ input.take (headerSize - h.length)).length = headerSize := by omega
    have piece : input.take (headerSize - h.length) ≠ [] := by
      intro none
      rw [none, List.append_nil] at full
      omega
    obtain ⟨taken, ⟨rest, cut⟩, serves⟩ := judgeOpenHeader_serves
      (h ++ input.take (headerSize - h.length)) (input.drop (headerSize - h.length)) full
    refine ⟨input.take (headerSize - h.length) ++ taken, rest, ?_, ?_, ?_⟩
    · rw [List.append_assoc, cut, List.take_append_drop]
    · intro none
      exact piece (List.append_eq_nil_iff.mp none).1
    · rw [if_neg short, advanceAll_append, opening_full h _ full piece]
      rw [← cut] at serves ⊢
      rw [List.drop_left] at serves
      exact serves

/-! Frames of an open connection. -/

theorem refused_serves {s : Connection} {created : Bool} {declared kept : Nat}
    (made : s.progress.handler = created) (openFree : s.openReservation = 0)
    (held : s.decoderReservation = declared) (given : s.decoder.expected = none)
    (covered : kept ≤ declared) (error : PipeHostError) :
    Serves Stands ⟨declared, kept, created, false⟩
      (failConnection s error >>= releaseDecoded)
      (refusePhase true created error declared) := by
  simp only [failConnection, refusePhase, if_true, stopPhase, Interaction.bind_assoc]
  refine (Adds.same (tell_keeps error)).seq ?_
  rintro after _ _ ⟨rfl, -⟩
  show Serves _ _ (releaseDecoded (s.stopped (some error)))
    (releaseFor declared >>= fun _ => pure (Phase.stopped created (some error)))
  have expected : (s.stopped (some error)).decoder.expected.isNone = true := by
    show s.decoder.expected.isNone = true
    rw [given]
    rfl
  have reservation : (s.stopped (some error)).decoderReservation = declared := held
  rw [releaseDecoded, if_pos expected, reservation]
  refine (Adds.same (release_keeps declared rfl covered)).seq ?_
  rintro after _ _ ⟨rfl, -⟩
  exact .done ⟨rfl, made, rfl, openFree, rfl, rfl⟩

/-- The decoder gave a frame away: it is presented, and its reservation given up. -/
theorem presentDecoded_serves (frame : Frame) (declared kept : Nat) (covered : kept ≤ declared) :
    Serves Stands ⟨declared, kept, true, false⟩
      (processDecoded host [frame]
        { Connection.serving (.header []) with decoderReservation := declared } >>= releaseDecoded)
      (presented host true frame declared) := by
  simp only [processDecoded, presented, Interaction.bind_assoc]
  refine (Adds.same (processFrame_keeps host frame true rfl rfl)).seq ?_
  rintro after processed _ ⟨⟨rfl, passed⟩, rfl⟩
  obtain ⟨progress, error⟩ := processed
  cases error with
  | some error =>
    refine refused_serves ?_ ?_ ?_ ?_ covered error <;> rfl
  | none =>
    obtain ⟨opened, keepRunning, handler⟩ := progress
    obtain ⟨isOpen, isMade⟩ := passed rfl
    simp only at isOpen isMade
    subst isOpen isMade
    cases keepRunning with
    | true =>
      refine (Adds.same (release_keeps declared rfl covered)).seq ?_
      rintro after _ _ ⟨rfl, -⟩
      exact .done ⟨rfl, fresh_within, rfl, rfl⟩
    | false =>
      refine (Adds.same (release_keeps declared rfl covered)).seq ?_
      rintro after _ _ ⟨rfl, -⟩
      exact .done ⟨rfl, rfl, rfl, rfl, rfl, rfl⟩

/-- A frame without payload has nothing reserved. -/
theorem presentEmpty_serves (frame : Frame) :
    Serves (fun account s phase => Stands account s phase ∧ s.decoder.expected = none)
      ⟨0, 0, true, false⟩ (processDecoded host [frame] (.serving (.header [])))
      (presented host true frame 0) := by
  simp only [processDecoded, presented]
  refine (Adds.same (processFrame_keeps host frame true rfl rfl)).seq ?_
  rintro after processed _ ⟨⟨rfl, passed⟩, rfl⟩
  obtain ⟨progress, error⟩ := processed
  cases error with
  | some error =>
    show Serves _ _ _ (stopPhase _ error >>= pure)
    rw [Interaction.bind_pure]
    refine (Adds.same (tell_keeps error)).seq ?_
    rintro after _ _ ⟨rfl, -⟩
    exact .done ⟨⟨rfl, rfl, rfl, rfl, rfl, rfl⟩, rfl⟩
  | none =>
    obtain ⟨opened, keepRunning, handler⟩ := progress
    obtain ⟨isOpen, isMade⟩ := passed rfl
    simp only at isOpen isMade
    subst isOpen isMade
    cases keepRunning with
    | true => exact .done ⟨⟨rfl, fresh_within, rfl, rfl⟩, rfl⟩
    | false => exact .done ⟨⟨rfl, rfl, rfl, rfl, rfl, rfl⟩, rfl⟩

theorem reserveDeclared_none {s : Connection} (given : s.decoder.expected = none) :
    reserveDeclared s = pure s := by
  rw [reserveDeclared, given]

theorem headerOnce_full (full : Bytes) (left : Bytes) (size : full.length = headerSize) :
    Serves (Taken left) ⟨0, 0, true, false⟩
      (let s := { Connection.serving (.header []) with
        decoder := (Scan.afterHeader full).1.decoder }
      if s.decoder.error.isSome then failConnection s .framingError >>= fun s => pure (s, left)
      else processDecoded host (Scan.afterHeader full).2 s >>= fun s =>
        if !s.progress.keepRunning then pure (s, left)
        else reserveDeclared s >>= fun s => pure (s, left))
      (afterHeader host full) := by
  unfold Scan.afterHeader afterHeader
  cases verdict : headerVerdict full with
  | error error => refine fail_taken ?_ ?_ ?_ _ _ _ <;> rfl
  | ok found =>
    obtain ⟨kind, declared⟩ := found
    by_cases empty : declared = 0
    · simp only [if_pos empty]
      rw [← Interaction.bind_pure (presented _ _ _ _)]
      refine (presentEmpty_serves ⟨kind, []⟩).seq ?_
      rintro after s phase ⟨stands, given⟩
      simp only [reserveDeclared_none given]
      cases s.progress.keepRunning with
      | true => exact .done ⟨stands, fun _ => rfl⟩
      | false => exact .done ⟨stands, fun _ => rfl⟩
    · simp only [if_neg empty]
      show Serves _ _ ((reserveFor declared >>= _) >>= _) _
      rw [Interaction.bind_assoc]
      refine (Adds.same (reserve_keeps declared rfl)).seq ?_
      rintro after granted _ ⟨rfl, rfl⟩
      cases granted with
      | false => refine fail_taken ?_ ?_ ?_ _ _ _ <;> rfl
      | true => exact .done ⟨⟨rfl, ⟨size, Nat.pos_of_ne_zero empty⟩, rfl, rfl⟩, fun _ => rfl⟩

theorem headerOnce_serves (h input : Bytes) (room : h.length < headerSize) (some : input ≠ []) :
    RoundServed host ⟨0, 0, true, false⟩ (.framing (.header h)) input
      (headerOnce host (.serving (.header h)) input) := by
  have positive : 0 < input.length := List.length_pos_iff.mpr some
  have size : (h ++ input.take (headerSize - h.length)).length =
      h.length + min (headerSize - h.length) input.length := by
    rw [List.length_append, List.length_take]
  have piece : input.take (headerSize - h.length) ≠ [] := by
    intro none
    have empty := congrArg List.length none
    rw [List.length_take, List.length_nil] at empty
    omega
  have within : (Scan.header h).Within := room
  refine ⟨_, _, (List.take_append_drop (headerSize - h.length) input).symm, piece, ?_⟩
  show Serves _ _
    (let decoded := (Scan.header h).decoder.feed
      (input.take (min (headerSize - h.length) input.length))
    let s := { Connection.serving (.header []) with decoder := decoded.1 }
    let rest := input.drop (min (headerSize - h.length) input.length)
    if decoded.1.error.isSome then failConnection s .framingError >>= fun s => pure (s, rest)
    else processDecoded host decoded.2 s >>= fun s =>
      if !s.progress.keepRunning then pure (s, rest)
      else reserveDeclared s >>= fun s => pure (s, rest)) _
  rw [take_min_eq, drop_min_eq, feed_scan within]
  by_cases short : (h ++ input.take (headerSize - h.length)).length < headerSize
  · rw [framing_short h _ short, Scan.header_short h _ short]
    exact .done ⟨⟨rfl, short, rfl, rfl⟩, fun _ => rfl⟩
  · have full : (h ++ input.take (headerSize - h.length)).length = headerSize := by omega
    rw [framing_full h _ full piece, Scan.header_full h _ full piece]
    exact headerOnce_full _ _ full

theorem payloadOnce_serves (h : Bytes) (kind : UInt8) (declared : Nat) (p input : Bytes)
    (within : (Scan.payload h kind declared p).Within) (some : input ≠ []) :
    RoundServed host ⟨declared, p.length, true, false⟩ (.framing (.payload h kind declared p))
      input (payloadOnce host (.serving (.payload h kind declared p)) declared input) := by
  have room : h.length = headerSize ∧ p.length < declared := within
  have positive : 0 < input.length := List.length_pos_iff.mpr some
  have size : (p ++ input.take (declared - p.length)).length =
      p.length + min (declared - p.length) input.length := by
    rw [List.length_append, List.length_take]
  have piece : input.take (declared - p.length) ≠ [] := by
    intro none
    have empty := congrArg List.length none
    rw [List.length_take, List.length_nil] at empty
    omega
  refine ⟨_, _, (List.take_append_drop (declared - p.length) input).symm, piece, ?_⟩
  refine .remark rfl ⟨rfl, ?_⟩ (fun _ => ?_)
  · show p.length + min (declared - p.length) input.length ≤ declared
    omega
  have account : Account.after ⟨declared, p.length, true, false⟩
      (.retain declared (min (declared - p.length) input.length)) () =
        ⟨declared, (p ++ input.take (declared - p.length)).length, true, false⟩ := by
    rw [size]
    rfl
  show Serves _ (Account.after ⟨declared, p.length, true, false⟩
      (.retain declared (min (declared - p.length) input.length)) ())
    (payloadFed host { Connection.serving (.payload h kind declared p) with
      decoder := ((Scan.payload h kind declared p).decoder.feed
        (input.take (min (declared - p.length) input.length))).1 }
      ((Scan.payload h kind declared p).decoder.feed
        (input.take (min (declared - p.length) input.length))).2 >>= fun s =>
        releaseDecoded s >>= fun s =>
          pure (s, input.drop (min (declared - p.length) input.length))) _
  rw [account, take_min_eq, drop_min_eq, feed_scan within]
  by_cases complete : (p ++ input.take (declared - p.length)).length = declared
  · rw [Scan.payload_full h kind declared p _ complete piece,
      payload_full h kind declared p _ complete piece, ← Interaction.bind_assoc,
      ← Interaction.bind_pure (presented _ _ _ _)]
    refine (presentDecoded_serves _ declared _ (Nat.le_of_eq complete)).seq ?_
    exact fun _ _ _ stands => .done ⟨stands, fun _ => rfl⟩
  · have short : (p ++ input.take (declared - p.length)).length < declared := by omega
    rw [Scan.payload_short h kind declared p _ short, payload_short h kind declared p _ short]
    exact .done ⟨⟨rfl, ⟨room.1, short⟩, rfl, rfl⟩, fun _ => rfl⟩

theorem consumeOnce_serves {account : Account} {s : Connection} {phase : Phase}
    (stands : Stands account s phase) (going : ∀ c e, phase ≠ .stopped c e) {input : Bytes}
    (some : input ≠ []) :
    RoundServed host account phase input (consumeOnce host s input) := by
  cases phase with
  | stopped c e => exact absurd rfl (going c e)
  | opening h =>
    obtain ⟨rfl, room, rfl⟩ := stands
    exact openOnce_serves h input room some
  | openPayload h declared p =>
    obtain ⟨rfl, full, room, rfl⟩ := stands
    have piece : input.take (declared - p.length) ≠ [] := by
      intro none
      have empty := congrArg List.length none
      have positive : 0 < input.length := List.length_pos_iff.mpr some
      rw [List.length_take, List.length_nil] at empty
      omega
    refine ⟨_, _, (List.take_append_drop (declared - p.length) input).symm, piece, ?_⟩
    have next : consumeOnce host (.openingPayload h declared p) input =
        takeOpenPayload host (.openingPayload h declared p) declared input := by
      have whole : ¬ h.length < headerSize := by omega
      show openOnce host (.openingPayload h declared p) input = _
      unfold openOnce
      rw [if_neg (by exact whole)]
      rfl
    rw [next]
    exact takeOpenPayload_serves h p input declared full room
  | framing scan =>
    obtain ⟨rfl, within, sound, rfl⟩ := stands
    cases scan with
    | broken error => cases sound
    | header h => exact headerOnce_serves h input within some
    | payload h kind declared p => exact payloadOnce_serves h kind declared p input within some

theorem running_of_stands {account : Account} {s : Connection} {phase : Phase}
    (stands : Stands account s phase) (going : ∀ c e, phase ≠ .stopped c e) :
    s.progress.keepRunning = true := by
  cases phase with
  | stopped c e => exact absurd rfl (going c e)
  | opening h => rw [stands.1]; rfl
  | openPayload h declared p => rw [stands.1]; rfl
  | framing scan => rw [stands.1]; rfl

theorem consume_stopped {s : Connection} (stopped : s.progress.keepRunning = false)
    (rounds : Nat) (input : Bytes) : consume host rounds s input = pure s := by
  cases rounds with
  | zero => rfl
  | succ rounds => rw [consume, if_pos (.inr stopped)]

/-- A chunk takes a connection through the phases of its bytes. -/
theorem consume_serves {account : Account} {s : Connection} {phase : Phase}
    (stands : Stands account s phase) {rounds : Nat} {input : Bytes}
    (enough : input.length ≤ rounds) :
    Serves Stands account (consume host rounds s input) (advanceAll host phase input) := by
  induction rounds generalizing account s phase input with
  | zero =>
    have none : input = [] := List.eq_nil_of_length_eq_zero (Nat.le_zero.mp enough)
    rw [none]
    exact .done stands
  | succ rounds ih =>
    by_cases going : ∀ c e, phase ≠ .stopped c e
    · unfold consume
      by_cases none : input = []
      · rw [if_pos (.inl none), none]
        exact .done stands
      have running := running_of_stands stands going
      rw [if_neg (by simp [none, running])]
      have round : RoundServed host account phase input (consumeOnce host s input) :=
        consumeOnce_serves stands going none
      obtain ⟨taken, rest, rfl, piece, serves⟩ := round
      have positive : 0 < taken.length := List.length_pos_iff.mpr piece
      have fewer : rest.length ≤ rounds := by
        rw [List.length_append] at enough
        omega
      rw [advanceAll_append]
      refine serves.seq ?_
      rintro after ⟨s, left⟩ next ⟨held, same⟩
      by_cases on : s.progress.keepRunning = true
      · rw [same on]
        exact ih held fewer
      · have off : s.progress.keepRunning = false := by simpa using on
        rw [consume_stopped off]
        cases next with
        | stopped c e =>
          rw [stopped_advanceAll]
          exact .done held
        | _ => exact absurd (running_of_stands held (by intro c e same; cases same)) on
    · simp only [not_forall, not_not] at going
      obtain ⟨c, e, rfl⟩ := going
      rw [consume_stopped stands.1, stopped_advanceAll]
      exact .done stands

end Serving

/-! The end of a connection. -/

def Phase.reserved : Phase → Nat
  | openPayload _ declared _ => declared
  | framing scan => scan.reserved
  | _ => 0

def Phase.midFrame : Phase → Bool
  | opening h => h.length ≠ 0
  | openPayload _ _ _ => true
  | framing (.header h) => h.length ≠ 0
  | framing (.payload _ _ _ _) => true
  | _ => false

/-- An ended connection has nothing reserved, and its handler, if it had one, was closed. -/
def Settled (account : Account) (outcome : Outcome) : Prop :=
  ∀ error, outcome = .ended error → account.reserved = 0 ∧ account.closed = account.created

def Ends (account : Account) (outcome outcome' : Outcome) : Prop :=
  Settled account outcome ∧ outcome = outcome'

section Ending

variable {host : PipeHost} {account : Account} {s : Connection} {phase : Phase}

theorem standing_of_going (going : ∀ c e, phase ≠ .stopped c e) (stands : Stands account s phase) :
    phase.standing = .waiting phase.open phase.midFrame phase.reserved := by
  cases phase with
  | stopped c e => exact absurd rfl (going c e)
  | opening h => rfl
  | openPayload h declared p => rfl
  | framing scan =>
    cases scan with
    | broken error => cases stands.2.2.1
    | header h => rfl
    | payload h kind declared p => rfl

theorem midFrame_of_stands (going : ∀ c e, phase ≠ .stopped c e)
    (stands : Stands account s phase) : s.midFrame = phase.midFrame := by
  cases phase with
  | stopped c e => exact absurd rfl (going c e)
  | opening h =>
    rw [stands.1]
    show (decide (0 ≠ 0) || decide (h.length ≠ 0) || false) = decide (h.length ≠ 0)
    simp
  | openPayload h declared p =>
    rw [stands.1]
    show (decide (0 ≠ 0) || decide (h.length ≠ 0) || true) = true
    simp
  | framing scan =>
    cases scan with
    | broken error => cases stands.2.2.1
    | header h =>
      rw [stands.1]
      show (decide (h.length + 0 ≠ 0) || decide (0 ≠ 0) || false) = decide (h.length ≠ 0)
      simp
    | payload h kind declared p =>
      rw [stands.1]
      have full : h.length = headerSize := stands.2.1.1
      show (decide (h.length + p.length ≠ 0) || decide (0 ≠ 0) || false) = true
      simp [full, headerSize_eq]

theorem opened_of_stands (going : ∀ c e, phase ≠ .stopped c e)
    (stands : Stands account s phase) : s.progress.opened = phase.open := by
  cases phase with
  | stopped c e => exact absurd rfl (going c e)
  | opening h => rw [stands.1]; rfl
  | openPayload h declared p => rw [stands.1]; rfl
  | framing scan => rw [stands.1]; rfl

theorem closed_serves (created : Bool) (error : Option PipeHostError) :
    Serves Ends ⟨0, 0, created, false⟩ (closed created error) (closed created error) := by
  cases created with
  | true =>
    refine .ask rfl ⟨rfl, rfl⟩ (fun _ => .ask rfl trivial (fun _ => .done ⟨?_, rfl⟩))
    exact fun _ _ => ⟨rfl, rfl⟩
  | false =>
    refine .ask rfl trivial (fun _ => .done ⟨?_, rfl⟩)
    exact fun _ _ => ⟨rfl, rfl⟩

/-- Leaving the loop in the middle of things gives up what is reserved and closes the handler. -/
theorem finish_serves (going : ∀ c e, phase ≠ .stopped c e) (stands : Stands account s phase)
    (error : Option PipeHostError) :
    Serves Ends account (finish (s.stopped error))
      (releaseFor phase.reserved >>= fun _ => closed phase.open error) := by
  cases phase with
  | stopped c e => exact absurd rfl (going c e)
  | opening h =>
    obtain ⟨rfl, -, rfl⟩ := stands
    exact closed_serves false error
  | openPayload h declared p =>
    obtain ⟨rfl, -, room, rfl⟩ := stands
    refine (Adds.same (release_keeps declared rfl (Nat.le_of_lt room))).seq ?_
    rintro after _ _ ⟨rfl, -⟩
    exact closed_serves false error
  | framing scan =>
    obtain ⟨rfl, within, -, rfl⟩ := stands
    have covered : scan.kept ≤ scan.reserved := by
      cases scan with
      | header h => exact Nat.le_refl 0
      | broken error => exact Nat.le_refl 0
      | payload h kind declared p => exact Nat.le_of_lt within.2
    refine (Adds.same (release_keeps scan.reserved rfl covered)).seq ?_
    rintro after _ _ ⟨rfl, -⟩
    exact closed_serves true error

theorem finish_stopped {c : Bool} {e : Option PipeHostError}
    (stands : Stands account s (.stopped c e)) :
    Serves Ends account (finish s) (closed c e) := by
  obtain ⟨-, made, ended, openFree, decoderFree, rfl⟩ := stands
  rw [finish, openFree, decoderFree, made, ended]
  exact closed_serves c e

/-- The end of `connection_loop`, where the loop was left. -/
def afterLoop (s : Connection) : Program Outcome :=
  if s.progress.keepRunning then pure .waiting else finish s

def rest (host : PipeHost) (turns : List Turn) (s : Connection) : Program Outcome :=
  readLoop host s turns >>= afterLoop

theorem rest_stopped (stopped : s.progress.keepRunning = false) (turns : List Turn) :
    rest host turns s = finish s := by
  have done : readLoop host s turns = pure s := by
    cases turns with
    | nil => rfl
    | cons turn turns => rw [readLoop, if_pos stopped]
  rw [rest, done]
  show afterLoop s = finish s
  rw [afterLoop, stopped]
  rfl

/-- Out of the loop with an error, or without one. -/
theorem leaving_serves (going : ∀ c e, phase ≠ .stopped c e) (stands : Stands account s phase)
    (turns : List Turn) (tell : Program Unit)
    (quiet : ∀ account, Keeps (fun after _ => after = account) account tell)
    (error : Option PipeHostError) :
    Serves Ends account ((tell >>= fun _ => pure (s.stopped error)) >>= rest host turns)
      (tell >>= fun _ => releaseFor phase.reserved >>= fun _ => closed phase.open error) := by
  rw [Interaction.bind_assoc]
  refine (Adds.same (quiet account)).seq ?_
  rintro after _ _ ⟨rfl, -⟩
  show Serves Ends _ (rest host turns (s.stopped error)) _
  rw [rest_stopped rfl]
  exact finish_serves going stands error

theorem received_extends (limits : PipeHostLimits) (stream : Bytes) (turns : List Turn) :
    ∃ more closing, received limits stream turns = (stream ++ more, closing) := by
  induction turns generalizing stream with
  | nil => exact ⟨[], none, by rw [List.append_nil]; rfl⟩
  | cons turn turns ih =>
    have here : ∀ closing, ∃ more closing', ((stream, closing) : Bytes × Option Closing) =
        (stream ++ more, closing') := fun closing => ⟨[], closing, by rw [List.append_nil]⟩
    unfold received
    split
    · exact here _
    · split
      · exact here _
      · exact here _
      · exact here _
      · exact here _
      · next chunk _ =>
        split
        · exact here _
        · split
          · exact here _
          · obtain ⟨more, closing, same⟩ := ih (stream ++ chunk)
            exact ⟨chunk ++ more, closing, by rw [same, List.append_assoc]⟩

/-- The turns that are still to come, from where the connection stands, come to what the rules
make of the bytes they bring. -/
theorem turns_serve {stream : Bytes} (stands : Stands account s phase)
    (tracks : Tracks host stream phase) (turns : List Turn) :
    ∃ more closing, received host.limits stream turns = (stream ++ more, closing) ∧
      Serves Ends account (rest host turns s)
        (advanceAll host phase more >>= fun phase => conclude phase.standing closing) := by
  induction turns generalizing account s phase stream with
  | nil =>
    refine ⟨[], none, by rw [List.append_nil]; rfl, ?_⟩
    show Serves Ends account (afterLoop s) (conclude phase.standing none)
    by_cases going : ∀ c e, phase ≠ .stopped c e
    · rw [afterLoop, if_pos (running_of_stands stands going), standing_of_going going stands]
      exact .done ⟨nofun, rfl⟩
    · simp only [not_forall, not_not] at going
      obtain ⟨c, e, rfl⟩ := going
      rw [afterLoop, if_neg (by rw [stands.1]; decide)]
      exact finish_stopped stands
  | cons turn turns ih =>
    by_cases going : ∀ c e, phase ≠ .stopped c e
    case neg =>
      simp only [not_forall, not_not] at going
      obtain ⟨c, e, rfl⟩ := going
      obtain ⟨more, closing, same⟩ := received_extends host.limits stream (turn :: turns)
      refine ⟨more, closing, same, ?_⟩
      rw [rest_stopped stands.1, stopped_advanceAll]
      exact finish_stopped stands
    case pos =>
      have open_ := opens_of_tracks tracks going
      have opened := opened_of_stands going stands
      have standing := standing_of_going going stands
      have unfolded : rest host (turn :: turns) s = takeTurn host s turn >>= rest host turns := by
        rw [rest, readLoop, if_neg (by rw [running_of_stands stands going]; decide)]
        exact Interaction.bind_assoc _ _ _
      -- out of the loop on this turn
      have leaves : ∀ (closing : Closing) (tell : Program Unit) (error : Option PipeHostError),
          received host.limits stream (turn :: turns) = (stream, some closing) →
          takeTurn host s turn = (tell >>= fun _ => pure (s.stopped error)) →
          tellClosing phase.midFrame closing = (tell >>= fun _ => pure error) →
          (∀ account, Keeps (fun after _ => after = account) account tell) →
          ∃ more closing, received host.limits stream (turn :: turns) = (stream ++ more, closing) ∧
            Serves Ends account (rest host (turn :: turns) s)
              (advanceAll host phase more >>= fun phase => conclude phase.standing closing) := by
        intro closing tell error arrived left told quiet
        refine ⟨[], some closing, by rw [List.append_nil]; exact arrived, ?_⟩
        rw [unfolded, left]
        show Serves Ends account _ (conclude phase.standing (some closing))
        rw [standing]
        show Serves Ends account _ (tellClosing phase.midFrame closing >>= _)
        rw [told, Interaction.bind_assoc tell (fun _ => pure error)]
        exact leaving_serves going stands turns tell quiet error
      have fails : ∀ (closing : Closing) (error : PipeHostError),
          received host.limits stream (turn :: turns) = (stream, some closing) →
          takeTurn host s turn = leave s error →
          tellClosing phase.midFrame closing = tellError error →
          ∃ more closing, received host.limits stream (turn :: turns) = (stream ++ more, closing) ∧
            Serves Ends account (rest host (turn :: turns) s)
              (advanceAll host phase more >>= fun phase => conclude phase.standing closing) :=
        fun closing error arrived left told => leaves closing (terminalError error) (some error)
          arrived left told (fun _ => terminalError_keeps error)
      obtain ⟨pastBefore, reading, pastAfter⟩ := turn
      by_cases late : (!phase.open && pastBefore) = true
      · refine fails .openTimeout .openTimeout ?_ ?_ rfl
        · simp only [received, open_, if_pos late]
        · simp only [takeTurn, opened, if_pos late]
      cases reading with
      | timedOut =>
        cases isOpen : phase.open with
        | true =>
          refine fails .readTimeout .readTimeout ?_ ?_ rfl
          · simp only [received, open_, if_neg late]
            simp only [isOpen, if_true]
          · simp only [takeTurn, opened, if_neg late]
            simp only [isOpen, if_true]
        | false =>
          refine fails .openTimeout .openTimeout ?_ ?_ rfl
          · simp only [received, open_, if_neg late]
            simp only [isOpen, Bool.false_eq_true, if_false]
          · simp only [takeTurn, opened, if_neg late]
            simp only [isOpen, Bool.false_eq_true, if_false]
      | error =>
        refine fails .readFailed .readFailed ?_ ?_ rfl
        · simp only [received, open_, if_neg late]
        · simp only [takeTurn, opened, if_neg late]
      | threw =>
        refine leaves .threw (tellUnlessPoisoned .handlerFailed) (some .handlerFailed) ?_ ?_ rfl
          (fun _ => tell_keeps _)
        · simp only [received, open_, if_neg late]
        · simp only [takeTurn, opened, if_neg late, failConnection]
      | eof =>
        have arrived : received host.limits stream (⟨pastBefore, .eof, pastAfter⟩ :: turns) =
            (stream, some .eof) := by
          simp only [received, open_, if_neg late]
        have middle := midFrame_of_stands going stands
        cases partway : phase.midFrame with
        | true =>
          refine fails .eof .truncatedFrame arrived ?_ (by rw [partway]; rfl)
          simp only [takeTurn, opened, if_neg late, middle, partway, if_true]
        | false =>
          refine leaves .eof (pure ()) none arrived ?_ (by rw [partway]; rfl) (fun _ => rfl)
          simp only [takeTurn, opened, if_neg late, middle, partway, Bool.false_eq_true, if_false]
          rfl
      | bytes chunk =>
        by_cases bad : chunk = [] ∨ host.limits.maxReadChunkBytes < chunk.length
        · refine fails .readFailed .readFailed ?_ ?_ rfl
          · simp only [received, open_, if_neg late, if_pos bad]
          · simp only [takeTurn, opened, if_neg late, if_pos bad]
        by_cases overdue : (!phase.open && pastAfter) = true
        · refine fails .openTimeout .openTimeout ?_ ?_ rfl
          · simp only [received, open_, if_neg late, if_neg bad, if_pos overdue]
          · simp only [takeTurn, opened, if_neg late, if_neg bad, if_pos overdue]
        obtain ⟨more, closing, arrived⟩ := received_extends host.limits (stream ++ chunk) turns
        refine ⟨chunk ++ more, closing, ?_, ?_⟩
        · rw [← List.append_assoc, ← arrived]
          simp only [received, open_, if_neg late, if_neg bad, if_neg overdue]
        · have turned : takeTurn host s ⟨pastBefore, .bytes chunk, pastAfter⟩ =
              consume host chunk.length s chunk := by
            simp only [takeTurn, opened, if_neg late, if_neg bad, if_neg overdue]
          rw [unfolded, turned, advanceAll_append, Interaction.bind_assoc]
          refine ((consume_serves stands (Nat.le_refl _)).also
            (advanceAll_tracks tracks chunk)).seq ?_
          rintro after next phase' ⟨held, followed⟩
          obtain ⟨more', closing', arrived', serves⟩ := ih held followed
          have same := arrived.symm.trans arrived'
          obtain ⟨bytes, closings⟩ := Prod.mk.inj same
          rw [List.append_cancel_left bytes, closings]
          exact serves

/-- The loop is what the rules make of the whole stream, with remarks on the payload it takes;
and it keeps its account. -/
theorem connectionLoop_serves (host : PipeHost) (turns : List Turn) :
    Serves Ends Account.fresh (connectionLoop host turns) (ruledConnection host turns) := by
  have stands : Stands Account.fresh Connection.fresh (.opening []) :=
    ⟨rfl, (by decide : 0 < headerSize), rfl⟩
  have tracks : Tracks host [] (.opening []) := ⟨rfl, (by decide : 0 < headerSize)⟩
  obtain ⟨more, closing, arrived, serves⟩ := turns_serve stands tracks turns
  have ruled : ruledConnection host turns =
      advanceAll host (.opening []) more >>= fun phase => conclude phase.standing closing := by
    rw [ruledConnection, arrived, List.nil_append]
    show (ruling host more >>= _) = _
    rw [← ruling_eq, standingAfter, Interaction.bind_assoc]
    rfl
  rw [ruled]
  exact serves

end Ending

end Baas.Pipe
