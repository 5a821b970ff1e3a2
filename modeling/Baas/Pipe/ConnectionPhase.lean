import Baas.Pipe.ConnectionRule
import Baas.Pipe.FramingRun

/-! The connection one byte at a time: the phases it goes through, and why what they come to is
what the rules make of the whole stream. -/
namespace Baas.Pipe

open Interaction

inductive Phase
  | opening (header : Bytes)
  | openPayload (header : Bytes) (declared : Nat) (payload : Bytes)
  | framing (scan : Scan)
  | stopped (created : Bool) (error : Option PipeHostError)

def stopPhase (created : Bool) (error : PipeHostError) : Program Phase :=
  tellUnlessPoisoned error >>= fun _ => pure (.stopped created (some error))

def refusePhase (opened created : Bool) (error : PipeHostError) (reserved : Nat) :
    Program Phase :=
  if opened then stopPhase created error >>= fun phase => releaseFor reserved >>= fun _ =>
    pure phase
  else releaseFor reserved >>= fun _ => stopPhase created error

/-- A frame is complete and goes to the handler. -/
def presented (host : PipeHost) (opened : Bool) (frame : Frame) (reserved : Nat) :
    Program Phase :=
  processFrame host frame ⟨opened, true, opened⟩ >>= fun processed =>
    match processed.2 with
    | some error => refusePhase opened processed.1.handler error reserved
    | none =>
      releaseFor reserved >>= fun _ =>
        pure (if processed.1.keepRunning then .framing (.header [])
          else .stopped processed.1.handler none)

def afterOpenHeader (host : PipeHost) (header : Bytes) : Program Phase :=
  match openDeclared host.limits header with
  | .error error => stopPhase false error
  | .ok declared =>
    reserveFor declared >>= fun granted =>
      if !granted then stopPhase false .ingressBudgetExhausted
      else if declared = 0 then presented host false ⟨FrameKind.json.value, []⟩ 0
      else pure (.openPayload header declared [])

def afterHeader (host : PipeHost) (header : Bytes) : Program Phase :=
  match headerVerdict header with
  | .error _ => stopPhase true .framingError
  | .ok (kind, declared) =>
    if declared = 0 then presented host true ⟨kind, []⟩ 0
    else
      reserveFor declared >>= fun granted =>
        if !granted then stopPhase true .ingressBudgetExhausted
        else pure (.framing (.payload header kind declared []))

def advance (host : PipeHost) : Phase → UInt8 → Program Phase
  | .opening h, b =>
    if (h ++ [b]).length < headerSize then pure (.opening (h ++ [b]))
    else afterOpenHeader host (h ++ [b])
  | .openPayload h declared p, b =>
    if (p ++ [b]).length = declared then
      presented host false ⟨FrameKind.json.value, p ++ [b]⟩ declared
    else pure (.openPayload h declared (p ++ [b]))
  | .framing (.header h), b =>
    if (h ++ [b]).length < headerSize then pure (.framing (.header (h ++ [b])))
    else afterHeader host (h ++ [b])
  | .framing (.payload h kind declared p), b =>
    if (p ++ [b]).length = declared then presented host true ⟨kind, p ++ [b]⟩ declared
    else pure (.framing (.payload h kind declared (p ++ [b])))
  | .framing (.broken error), _ => pure (.framing (.broken error))
  | .stopped created error, _ => pure (.stopped created error)

def advanceAll (host : PipeHost) : Phase → Bytes → Program Phase
  | phase, [] => pure phase
  | phase, b :: rest => advance host phase b >>= fun phase => advanceAll host phase rest

theorem advanceAll_append (host : PipeHost) (phase : Phase) (a b : Bytes) :
    advanceAll host phase (a ++ b) =
      advanceAll host phase a >>= fun phase => advanceAll host phase b := by
  induction a generalizing phase with
  | nil => rfl
  | cons x more ih =>
    simp only [List.cons_append, advanceAll, ih]
    exact (Interaction.bind_assoc _ _ _).symm

theorem stopped_advanceAll (host : PipeHost) (created : Bool) (error : Option PipeHostError)
    (a : Bytes) : advanceAll host (.stopped created error) a = pure (.stopped created error) := by
  induction a with
  | nil => rfl
  | cons x more ih => exact ih

/-! A part of a header or of a payload at once. -/

section Parts

variable {host : PipeHost}

theorem snoc_of_ne_nil {a : Bytes} (some : a ≠ []) : ∃ init b, a = init ++ [b] := by
  obtain ⟨init, b, same⟩ := List.eq_nil_or_concat a |>.resolve_left some
  exact ⟨init, b, by rw [same, List.concat_eq_append]⟩

theorem opening_short (h a : Bytes) (short : (h ++ a).length < headerSize) :
    advanceAll host (.opening h) a = pure (.opening (h ++ a)) := by
  induction a generalizing h with
  | nil => rw [List.append_nil]; rfl
  | cons b rest ih =>
    have split : h ++ b :: rest = h ++ [b] ++ rest := by simp
    rw [split] at short ⊢
    have first : (h ++ [b]).length < headerSize := by
      rw [List.length_append] at short
      omega
    simp only [advanceAll, advance, if_pos first]
    exact ih _ short

theorem opening_full (h a : Bytes) (full : (h ++ a).length = headerSize) (some : a ≠ []) :
    advanceAll host (.opening h) a = afterOpenHeader host (h ++ a) := by
  obtain ⟨init, b, rfl⟩ := snoc_of_ne_nil some
  rw [← List.append_assoc] at full ⊢
  have short : (h ++ init).length < headerSize := by
    rw [List.length_append, List.length_singleton] at full
    omega
  have last : ¬ (h ++ init ++ [b]).length < headerSize := by omega
  rw [advanceAll_append, opening_short h init short]
  show (advance host (.opening (h ++ init)) b >>= fun phase => pure phase) = _
  rw [Interaction.bind_pure]
  simp only [advance, if_neg last]

theorem openPayload_short (h : Bytes) (declared : Nat) (p a : Bytes)
    (short : (p ++ a).length < declared) :
    advanceAll host (.openPayload h declared p) a = pure (.openPayload h declared (p ++ a)) := by
  induction a generalizing p with
  | nil => rw [List.append_nil]; rfl
  | cons b rest ih =>
    have split : p ++ b :: rest = p ++ [b] ++ rest := by simp
    rw [split] at short ⊢
    have first : ¬ (p ++ [b]).length = declared := by
      rw [List.length_append] at short
      omega
    simp only [advanceAll, advance, if_neg first]
    exact ih _ short

theorem openPayload_full (h : Bytes) (declared : Nat) (p a : Bytes)
    (full : (p ++ a).length = declared) (some : a ≠ []) :
    advanceAll host (.openPayload h declared p) a =
      presented host false ⟨FrameKind.json.value, p ++ a⟩ declared := by
  obtain ⟨init, b, rfl⟩ := snoc_of_ne_nil some
  rw [← List.append_assoc] at full ⊢
  have short : (p ++ init).length < declared := by
    rw [List.length_append, List.length_singleton] at full
    omega
  rw [advanceAll_append, openPayload_short h declared p init short]
  show (advance host (.openPayload h declared (p ++ init)) b >>= fun phase => pure phase) = _
  rw [Interaction.bind_pure]
  simp only [advance, if_pos full]

theorem framing_short (h a : Bytes) (short : (h ++ a).length < headerSize) :
    advanceAll host (.framing (.header h)) a = pure (.framing (.header (h ++ a))) := by
  induction a generalizing h with
  | nil => rw [List.append_nil]; rfl
  | cons b rest ih =>
    have split : h ++ b :: rest = h ++ [b] ++ rest := by simp
    rw [split] at short ⊢
    have first : (h ++ [b]).length < headerSize := by
      rw [List.length_append] at short
      omega
    simp only [advanceAll, advance, if_pos first]
    exact ih _ short

theorem framing_full (h a : Bytes) (full : (h ++ a).length = headerSize) (some : a ≠ []) :
    advanceAll host (.framing (.header h)) a = afterHeader host (h ++ a) := by
  obtain ⟨init, b, rfl⟩ := snoc_of_ne_nil some
  rw [← List.append_assoc] at full ⊢
  have short : (h ++ init).length < headerSize := by
    rw [List.length_append, List.length_singleton] at full
    omega
  have last : ¬ (h ++ init ++ [b]).length < headerSize := by omega
  rw [advanceAll_append, framing_short h init short]
  show (advance host (.framing (.header (h ++ init))) b >>= fun phase => pure phase) = _
  rw [Interaction.bind_pure]
  simp only [advance, if_neg last]

theorem payload_short (h : Bytes) (kind : UInt8) (declared : Nat) (p a : Bytes)
    (short : (p ++ a).length < declared) :
    advanceAll host (.framing (.payload h kind declared p)) a =
      pure (.framing (.payload h kind declared (p ++ a))) := by
  induction a generalizing p with
  | nil => rw [List.append_nil]; rfl
  | cons b rest ih =>
    have split : p ++ b :: rest = p ++ [b] ++ rest := by simp
    rw [split] at short ⊢
    have first : ¬ (p ++ [b]).length = declared := by
      rw [List.length_append] at short
      omega
    simp only [advanceAll, advance, if_neg first]
    exact ih _ short

theorem payload_full (h : Bytes) (kind : UInt8) (declared : Nat) (p a : Bytes)
    (full : (p ++ a).length = declared) (some : a ≠ []) :
    advanceAll host (.framing (.payload h kind declared p)) a =
      presented host true ⟨kind, p ++ a⟩ declared := by
  obtain ⟨init, b, rfl⟩ := snoc_of_ne_nil some
  rw [← List.append_assoc] at full ⊢
  have short : (p ++ init).length < declared := by
    rw [List.length_append, List.length_singleton] at full
    omega
  rw [advanceAll_append, payload_short h kind declared p init short]
  show (advance host (.framing (.payload h kind declared (p ++ init))) b >>=
    fun phase => pure phase) = _
  rw [Interaction.bind_pure]
  simp only [advance, if_pos full]

end Parts

/-! The rules. -/

def Phase.standing : Phase → Standing
  | opening h => .waiting false (h.length ≠ 0) 0
  | openPayload _ declared _ => .waiting false true declared
  | framing (.header h) => .waiting true (h.length ≠ 0) 0
  | framing (.payload _ _ declared _) => .waiting true true declared
  | framing (.broken _) => .waiting true false 0
  | stopped created error => .stopped created error

def standingAfter (host : PipeHost) (rest : Bytes) (phase : Phase) : Program Standing :=
  advanceAll host phase rest >>= fun phase => pure phase.standing

theorem standingAfter_stopped (host : PipeHost) (rest : Bytes) (created : Bool)
    (error : Option PipeHostError) :
    standingAfter host rest (.stopped created error) = pure (.stopped created error) := by
  rw [standingAfter, stopped_advanceAll]
  rfl

theorem stopPhase_standing (host : PipeHost) (rest : Bytes) (created : Bool)
    (error : PipeHostError) :
    (stopPhase created error >>= standingAfter host rest) = stopWith created error := by
  rw [stopPhase, stopWith, Interaction.bind_assoc]
  refine congrArg _ (funext (fun _ => ?_))
  exact standingAfter_stopped host rest created (some error)

theorem refusePhase_standing (host : PipeHost) (rest : Bytes) (opened created : Bool)
    (error : PipeHostError) (reserved : Nat) :
    (refusePhase opened created error reserved >>= standingAfter host rest) =
      refuse opened created error reserved := by
  cases opened with
  | true =>
    simp only [refusePhase, refuse, if_true, stopPhase, stopWith, Interaction.bind_assoc]
    refine congrArg _ (funext (fun _ => ?_))
    show (releaseFor reserved >>= fun _ => standingAfter host rest (.stopped created (some error)))
      = releaseFor reserved >>= fun _ => pure (.stopped created (some error))
    rw [standingAfter_stopped]
  | false =>
    simp only [refusePhase, refuse, Bool.false_eq_true, if_false, Interaction.bind_assoc]
    refine congrArg _ (funext (fun _ => ?_))
    exact stopPhase_standing host rest created error

theorem presented_standing (host : PipeHost) (rest : Bytes) (opened : Bool) (frame : Frame)
    (reserved : Nat) :
    (presented host opened frame reserved >>= standingAfter host rest) =
      ruleFrame host opened frame reserved (standingAfter host rest (.framing (.header []))) := by
  rw [presented, ruleFrame, Interaction.bind_assoc]
  refine congrArg _ (funext (fun processed => ?_))
  cases processed.2 with
  | some error => exact refusePhase_standing host rest opened _ error reserved
  | none =>
    simp only [Interaction.bind_assoc]
    refine congrArg _ (funext (fun _ => ?_))
    cases processed.1.keepRunning with
    | true => rfl
    | false => exact standingAfter_stopped host rest _ none

/-- What the rules make of the rest of the stream in the middle of a frame: its length is
reserved already. -/
def ruleReserved (host : PipeHost) (declared : Nat) (found : Scan × List Frame) :
    Program Standing :=
  match found.2 with
  | [] => pure (.waiting true true declared)
  | frame :: frames =>
    ruleFrame host true frame declared (ruleFrames host true frames found.1.decoder)

def ruleFrom (host : PipeHost) (scan : Scan) (found : Scan × List Frame) : Program Standing :=
  match scan with
  | .payload _ _ declared _ => ruleReserved host declared found
  | _ => ruleFrames host true found.2 found.1.decoder

/-- What a payload that has begun leads to. -/
theorem payload_leads (h : Bytes) (kind : UInt8) (declared : Nat) (p rest : Bytes)
    (room : p.length < declared) :
    (∃ p', (Scan.payload h kind declared p).bytes rest = (.payload h kind declared p', [])) ∨
      ∃ frame tail frames, frame.payload.length = declared ∧
        (Scan.payload h kind declared p).bytes rest = (tail, frame :: frames) := by
  induction rest generalizing p with
  | nil => exact .inl ⟨p, rfl⟩
  | cons b rest ih =>
    rw [Scan.bytes_cons]
    have one : (p ++ [b]).length = p.length + 1 := List.length_append
    by_cases full : (p ++ [b]).length = declared
    · simp only [Scan.byte, if_pos full]
      exact .inr ⟨⟨kind, p ++ [b]⟩, _, _, full, rfl⟩
    · simp only [Scan.byte, if_neg full, List.nil_append]
      exact ih (p ++ [b]) (by omega)

theorem framing_rule (host : PipeHost) (rest : Bytes) {scan : Scan} (within : scan.Within)
    (sound : scan.decoder.error = none) :
    standingAfter host rest (.framing scan) = ruleFrom host scan (scan.bytes rest) := by
  induction rest generalizing scan with
  | nil =>
    cases scan with
    | broken error => cases sound
    | payload h kind declared p => rfl
    | header h =>
      show (pure (.waiting true (decide (h.length ≠ 0)) 0) : Program Standing) =
        pure (.waiting true (decide (h.length + 0 ≠ 0)) 0)
      rw [Nat.add_zero]
  | cons b rest ih =>
    rw [Scan.bytes_cons]
    have inside := Scan.byte_within within b
    have first : standingAfter host (b :: rest) (.framing scan) =
        advance host (.framing scan) b >>= standingAfter host rest :=
      Interaction.bind_assoc _ _ _
    rw [first]
    cases scan with
    | broken error => cases sound
    | payload h kind declared p =>
      simp only [advance, Scan.byte] at inside ⊢
      by_cases full : (p ++ [b]).length = declared
      · rw [if_pos full, if_pos full, presented_standing, ih fresh_within rfl]
        rfl
      · rw [if_neg full] at inside
        rw [if_neg full, if_neg full]
        show standingAfter host rest (.framing (.payload h kind declared (p ++ [b]))) = _
        rw [ih inside rfl]
        rfl
    | header h =>
      simp only [advance, Scan.byte] at inside ⊢
      by_cases short : (h ++ [b]).length < headerSize
      · rw [if_pos short] at inside
        rw [if_pos short, if_pos short]
        show standingAfter host rest (.framing (.header (h ++ [b]))) = _
        rw [ih inside rfl]
        rfl
      · rw [if_neg short] at inside
        rw [if_neg short, if_neg short]
        unfold afterHeader Scan.afterHeader
        unfold Scan.afterHeader at inside
        cases verdict : headerVerdict (h ++ [b]) with
        | error error =>
          simp only [stopPhase_standing, Scan.broken_bytes]
          rfl
        | ok found =>
          obtain ⟨kind, declared⟩ := found
          simp only [verdict] at inside ⊢
          by_cases empty : declared = 0
          · simp only [if_pos empty, presented_standing, ih fresh_within rfl]
            rfl
          · simp only [if_neg empty] at inside ⊢
            have room : ([] : Bytes).length < declared := Nat.pos_of_ne_zero empty
            rw [Interaction.bind_assoc]
            have granted : ∀ standing : Program Standing,
                standing = ruleFrom host (.payload (h ++ [b]) kind declared [])
                  ((Scan.payload (h ++ [b]) kind declared []).bytes rest) →
                (reserveFor declared >>= fun granted =>
                  if !granted then stopWith true .ingressBudgetExhausted else standing) =
                ruleFrom host (.header h)
                  ((Scan.payload (h ++ [b]) kind declared []).bytes rest) := by
              rintro standing rfl
              obtain ⟨p', leads⟩ | ⟨frame, tail, frames, size, leads⟩ :=
                payload_leads (h ++ [b]) kind declared [] rest room
              · rw [leads]
                rfl
              · rw [leads]
                show _ = ruleFrames host true (frame :: frames) tail.decoder
                rw [ruleFrames, size]
                rfl
            have answers := granted _ (ih inside rfl)
            simp only [List.nil_append]
            rw [← answers]
            refine congrArg _ (funext (fun granted => ?_))
            cases granted with
            | true => rfl
            | false => exact stopPhase_standing host rest true _

/-- An opening header that passes is one the decoder takes: the open limit is below its own. -/
theorem headerVerdict_of_open {host : PipeHost} {header : Bytes} {declared : Nat}
    (passed : openDeclared host.limits header = .ok declared) :
    headerVerdict header = .ok (FrameKind.json.value, declared) := by
  have small : host.limits.maxOpenJsonBytes ≤ maxPayloadSize := by
    have valid := host.valid
    simp only [PipeHostLimits.valid, Bool.and_eq_true, decide_eq_true_eq] at valid
    omega
  unfold openDeclared at passed
  by_cases foreign : header.take 4 ≠ magic ∨ header.getD 4 0 ≠ version
  · rw [if_pos foreign] at passed
    cases passed
  by_cases kind : header.getD 5 0 ≠ FrameKind.json.value
  · rw [if_neg foreign, if_pos kind] at passed
    cases passed
  by_cases large : host.limits.maxOpenJsonBytes < declaredPayloadSize header
  · rw [if_neg foreign, if_neg kind, if_pos large] at passed
    cases passed
  rw [if_neg foreign, if_neg kind, if_neg large] at passed
  cases passed
  obtain ⟨known, current⟩ := not_or.mp foreign
  unfold headerVerdict
  rw [if_neg known, if_neg current, if_neg (by omega), not_not.mp kind]

/-- What the opening frame's payload leads to, once its header passed. -/
theorem openPayload_rule (host : PipeHost) (h rest : Bytes) {declared : Nat}
    (some : declared ≠ 0) :
    standingAfter host rest (.openPayload h declared []) =
      match ((Scan.payload h FrameKind.json.value declared []).bytes rest).2 with
      | [] => pure (.waiting false true declared)
      | frame :: frames => ruleFrame host false frame declared (ruleFrames host true frames
          ((Scan.payload h FrameKind.json.value declared []).bytes rest).1.decoder) := by
  by_cases short : rest.length < declared
  · rw [standingAfter, openPayload_short h declared [] rest short,
      Scan.payload_short h _ declared [] rest short]
    rfl
  · have full : (([] : Bytes) ++ rest.take declared).length = declared := by
      rw [List.nil_append, List.length_take]
      omega
    have piece : rest.take declared ≠ [] := by
      intro none
      rw [none] at full
      exact some full.symm
    have cut := List.take_append_drop declared rest
    rw [← cut, Scan.bytes_append, Scan.payload_full h _ declared [] _ full piece]
    have first : standingAfter host (rest.take declared ++ rest.drop declared)
        (.openPayload h declared []) =
          presented host false ⟨FrameKind.json.value, rest.take declared⟩ declared >>=
            standingAfter host (rest.drop declared) := by
      rw [standingAfter, advanceAll_append, openPayload_full h declared [] _ full piece]
      exact Interaction.bind_assoc _ _ _
    rw [first, presented_standing, framing_rule host _ fresh_within rfl]
    rfl

/-- The rules applied to the whole stream are the phases run to their end. -/
theorem ruling_eq (host : PipeHost) (stream : Bytes) :
    standingAfter host stream (.opening []) = ruling host stream := by
  have decoded := feed_scan fresh_within stream
  unfold ruling openRefusal
  by_cases short : stream.length < headerSize
  · rw [if_pos short, standingAfter, opening_short [] stream short]
    show _ = ruleFrames host false ((Scan.header []).decoder.feed stream).2
      ((Scan.header []).decoder.feed stream).1
    rw [decoded, Scan.header_short [] stream short]
    show (pure (.waiting false (decide (stream.length ≠ 0)) 0) : Program Standing) =
      pure (.waiting false (decide (stream.length + 0 ≠ 0)) 0)
    rw [Nat.add_zero]
  · rw [if_neg short]
    have full : (([] : Bytes) ++ stream.take headerSize).length = headerSize := by
      rw [List.nil_append, List.length_take]
      omega
    have piece : stream.take headerSize ≠ [] := by
      intro none
      rw [none] at full
      cases full
    have cut : stream.take headerSize ++ stream.drop headerSize = stream :=
      List.take_append_drop headerSize stream
    have first : standingAfter host stream (.opening []) =
        afterOpenHeader host (stream.take headerSize) >>=
          standingAfter host (stream.drop headerSize) := by
      rw [← cut, standingAfter, advanceAll_append, cut, opening_full [] _ full piece]
      exact Interaction.bind_assoc _ _ _
    have scanned : (Scan.header []).bytes stream =
        (((Scan.afterHeader (stream.take headerSize)).1.bytes (stream.drop headerSize)).1,
          (Scan.afterHeader (stream.take headerSize)).2 ++
            ((Scan.afterHeader (stream.take headerSize)).1.bytes (stream.drop headerSize)).2) := by
      rw [← cut, Scan.bytes_append, cut, Scan.header_full [] _ full piece]
      rfl
    rw [first, afterOpenHeader]
    cases passed : openDeclared host.limits (stream.take headerSize) with
    | error error => exact stopPhase_standing host _ false error
    | ok declared =>
      show _ = ruleFrames host false ((Scan.header []).decoder.feed stream).2
        ((Scan.header []).decoder.feed stream).1
      rw [decoded, scanned]
      simp only [Scan.afterHeader, headerVerdict_of_open passed]
      by_cases empty : declared = 0
      · subst empty
        simp only [if_true, List.singleton_append]
        show (presented host false ⟨FrameKind.json.value, []⟩ 0 >>=
          standingAfter host (stream.drop headerSize)) = _
        rw [presented_standing, framing_rule host _ fresh_within rfl]
        rfl
      · simp only [if_neg empty, List.nil_append, Interaction.bind_assoc]
        have room : ([] : Bytes).length < declared := Nat.pos_of_ne_zero empty
        have payload := openPayload_rule host (stream.take headerSize) (stream.drop headerSize) empty
        obtain ⟨p', leads⟩ | ⟨frame, tail, frames, size, leads⟩ :=
          payload_leads (stream.take headerSize) FrameKind.json.value declared []
            (stream.drop headerSize) room
        · rw [leads] at payload ⊢
          refine congrArg _ (funext (fun granted => ?_))
          cases granted with
          | true => exact payload
          | false => exact stopPhase_standing host _ false _
        · rw [leads] at payload ⊢
          simp only [ruleFrames, size]
          refine congrArg _ (funext (fun granted => ?_))
          cases granted with
          | true => exact payload
          | false => exact stopPhase_standing host _ false _

end Baas.Pipe
