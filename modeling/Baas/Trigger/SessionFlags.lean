import Baas.Trigger.SessionRun

/-! The two flags of an admission: a recorded cancellation and an irrevocable claim exclude
each other, bind everything published afterwards, and end with the admission. -/
namespace Baas.TriggerSession

open Transition

/-- The call is reported to have requested the cancellation of an admission. -/
def CancelsAt (r : AdmissionReceipt) (e : SessionEvent) : Prop :=
  e.label = ⟨.requestCancel r.timestamp, .cancelled .requested⟩ ∧ (live e.source r).isSome = true

def ClaimsAt (r : AdmissionReceipt) (e : SessionEvent) : Prop :=
  e.label = ⟨.claimIrrevocableTerminal r, .claimed .none⟩

structure FlagsExact (es : History) : Prop where
  exclusive : ∀ r, ¬ ((∃ e ∈ es, CancelsAt r e) ∧ ∃ e ∈ es, ClaimsAt r e)
  cancelled : ∀ before e after r, es = before ++ e :: after → CancelsAt r e →
    ∀ batch ∈ publishedFor r after, batch.terminal = true ∧ batch.status = .cancelled
  claimed : ∀ before e after r, es = before ++ e :: after → ClaimsAt r e →
    ∀ x ∈ after, (live x.source r).isSome = true →
      (x.label.op = .requestCancel r.timestamp →
        x.label.outcome = .cancelled .terminalAlreadyQueued) ∧
      (x.label.op = .rollback r → x.label.outcome = .rolledBack .responseAlreadyQueued)
  not_rolled_back : ∀ before e after r, es = before ++ e :: after → ClaimsAt r e →
    ∀ x ∈ after, x.label ≠ ⟨.rollback r, .rolledBack .none⟩
  unmarked : ∀ e ∈ es, ∀ r, admittedBy e = some r → ∃ entry, live e.target r = some entry ∧
    entry.cancelRequested = false ∧ entry.irrevocableTerminalClaimed = false

/-- What no call takes from an entry. -/
structure Stable (P : Entry → Prop) : Prop where
  cancel : ∀ entry, P entry → entry.irrevocableTerminalClaimed = false →
    P { entry with cancelRequested := true }
  claim : ∀ entry, P entry → entry.cancelRequested = false →
    P { entry with irrevocableTerminalClaimed := true }
  publish : ∀ entry terminal, P entry →
    P { entry with responseQueued := true, terminalQueued := terminal }

def Cancelled (entry : Entry) : Prop := entry.cancelRequested = true

def Claimed (entry : Entry) : Prop :=
  entry.irrevocableTerminalClaimed = true ∧ entry.cancelRequested = false

theorem cancelled_stable : Stable Cancelled where
  cancel _ _ _ := rfl
  claim _ held _ := held
  publish _ _ held := held

theorem claimed_stable : Stable Claimed where
  cancel _ held free := absurd (held.1.symm.trans free) (by decide)
  claim _ held _ := ⟨rfl, held.2⟩
  publish _ _ held := held

/-- The receipt is spent: it is live with `P`, or never again. -/
structure Marked (P : Entry → Prop) (r : AdmissionReceipt) (s : Session) : Prop where
  counter : s.nextAdmissionGeneration < wordRange
  spent : s.nextAdmissionGeneration = 0 ∨ r.generation < s.nextAdmissionGeneration
  entry : ∀ entry, live s r = some entry → P entry

variable {P : Entry → Prop} {r : AdmissionReceipt} {s t : Session} {es : History}

theorem Marked.keep (marked : Marked P r s)
    (counter : t.nextAdmissionGeneration = s.nextAdmissionGeneration)
    (entry : ∀ entry, live t r = some entry → live s r = some entry) : Marked P r t where
  counter := counter ▸ marked.counter
  spent := counter ▸ marked.spent
  entry found h := marked.entry found (entry found h)

/-- One entry changes to one that satisfies `P` if the old one does. -/
theorem Marked.update (marked : Marked P r s) {timestamp : Timestamp} {old new : Entry}
    (counter : t.nextAdmissionGeneration = s.nextAdmissionGeneration)
    (owner : t.instanceId = s.instanceId)
    (entries : t.entries = s.entries.insert timestamp new)
    (found : s.entries.find? timestamp = some old)
    (generation : new.generation = old.generation) (kept : P old → P new) : Marked P r t where
  counter := counter ▸ marked.counter
  spent := counter ▸ marked.spent
  entry entry h := by
    rw [live_insert old owner entries found generation r] at h
    split at h
    · rename_i same
      cases here : live s r with
      | none =>
        rw [here] at h
        cases h
      | some entry' =>
        rw [here] at h
        cases h
        have place := (live_find here).2.1
        rw [same, found] at place
        cases place
        exact kept (marked.entry old here)
    · exact marked.entry entry h

/-- The entry of the receipt itself changes to one that satisfies `P`. -/
theorem Marked.turned (marked : Marked (fun _ => True) r s) {old new : Entry}
    (counter : t.nextAdmissionGeneration = s.nextAdmissionGeneration)
    (owner : t.instanceId = s.instanceId)
    (entries : t.entries = s.entries.insert r.timestamp new)
    (found : s.entries.find? r.timestamp = some old)
    (generation : new.generation = old.generation) (now : P new) : Marked P r t where
  counter := counter ▸ marked.counter
  spent := counter ▸ marked.spent
  entry entry h := by
    rw [live_insert old owner entries found generation r, if_pos rfl] at h
    obtain ⟨_, _, rfl⟩ := Option.map_eq_some_iff.mp h
    exact now

theorem Marked.erase (marked : Marked P r s) {timestamp : Timestamp}
    (counter : t.nextAdmissionGeneration = s.nextAdmissionGeneration)
    (owner : t.instanceId = s.instanceId) (entries : t.entries = s.entries.erase timestamp) :
    Marked P r t := by
  refine marked.keep counter (fun entry found => ?_)
  rw [live_erase owner entries r] at found
  split at found
  · cases found
  · exact found

/-- A new admission has another generation. -/
theorem Marked.admitted (marked : Marked P r s) {timestamp : Timestamp} {new : Entry}
    (unspent : s.nextAdmissionGeneration ≠ 0)
    (counter : t.nextAdmissionGeneration = bump s.nextAdmissionGeneration)
    (owner : t.instanceId = s.instanceId)
    (entries : t.entries = s.entries.insert timestamp new)
    (absent : s.entries.find? timestamp = none)
    (generation : new.generation = s.nextAdmissionGeneration) : Marked P r t := by
  have below : r.generation < s.nextAdmissionGeneration := marked.spent.resolve_left unspent
  have bound := marked.counter
  refine ⟨counter ▸ Nat.mod_lt _ (by decide), ?_, fun entry found => ?_⟩
  · rw [counter]
    unfold bump wordRange at *
    omega
  · rw [live_admitted owner entries absent r] at found
    split at found
    · rename_i same
      rw [same, generation] at below
      exact absurd below (Nat.lt_irrefl _)
    · exact marked.entry entry found

theorem Marked.step (stable : Stable P) (marked : Marked P r s) {call : Call}
    (h : sessionSystem.step s call t) : Marked P r t := by
  obtain ⟨op, outcome⟩ := call
  cases step_effect h with
  | quiet _ _ counters _ => exact marked.keep rfl (fun _ found => found)
  | lease front rest counters _ _ _ => exact marked.keep rfl (fun _ found => found)
  | empty lease _ _ => exact marked
  | admitCommand command counters _ absent _ unspent =>
    exact marked.admitted unspent rfl rfl rfl absent rfl
  | rollback receipt entry counters _ _ _ => exact marked.erase rfl rfl rfl
  | cancel timestamp entry counters _ found _ free =>
    exact marked.update rfl rfl rfl found rfl (fun held => stable.cancel entry held free)
  | claim receipt entry _ found _ free =>
    exact marked.update rfl rfl rfl (live_find found).2.1 rfl
      (fun held => stable.claim entry held free)
  | publish receipt entry batch _ same found _ =>
    have place : s.entries.find? batch.timestamp = some entry := same ▸ (live_find found).2.1
    exact marked.update rfl rfl rfl place rfl (fun held => stable.publish entry _ held)
  | complete lease batch rest counters _ _ _ =>
    cases terminal : batch.terminal with
    | true => exact marked.erase rfl rfl rfl
    | false => exact marked.keep rfl (fun _ found => found)
  | shut _ _ counters _ _ =>
    refine marked.keep rfl (fun entry found => ?_)
    cases (live_find found).2.1

/-- From a call that marks an admission to any later one. -/
theorem marked_later (stable : Stable P) {before after : History} {e x : SessionEvent}
    (run : Run sessionSystem (before ++ e :: after) s) (marked : Marked P r e.target)
    (later : x ∈ after) : Marked P r x.source := by
  obtain ⟨mid, rest, rfl⟩ := List.append_of_mem later
  have split : Run sessionSystem ((before ++ e :: mid) ++ x :: rest) s := by simpa using run
  exact split.upto.1.since (fun _ => True) (fun _ s => Marked P r s)
    (fun _ _ _ _ held step _ => held.step stable step) marked (fun _ _ => trivial)

/-- A live receipt was issued, and its generation is behind the counter. -/
theorem marked_of_live (run : Run sessionSystem es s) (here : (live s r).isSome = true) :
    Marked (fun _ => True) r s where
  counter := (issued_of_run run).counter
  spent := ((issued_of_run run).receipts r ((account_of_run run r).origin here)).2
  entry _ _ := trivial

theorem marked_of_cancel (run : Run sessionSystem es s)
    (step : sessionSystem.step s ⟨.requestCancel r.timestamp, .cancelled .requested⟩ t)
    (here : (live s r).isSome = true) : Marked Cancelled r t := by
  have marked := marked_of_live run here
  cases step_effect step with
  | quiet _ _ counters refused => cases refused
  | cancel _ entry counters _ found _ _ => exact marked.turned rfl rfl rfl found rfl rfl
  | shut _ _ counters _ how => rcases how with ⟨other, _⟩ | ⟨_, other, _⟩ <;> cases other

theorem marked_of_claim (run : Run sessionSystem es s)
    (step : sessionSystem.step s ⟨.claimIrrevocableTerminal r, .claimed .none⟩ t) :
    Marked Claimed r t := by
  cases step_effect step with
  | quiet _ _ counters refused => cases refused
  | claim _ entry _ found _ free =>
    have marked := marked_of_live run (Option.isSome_iff_exists.mpr ⟨_, found⟩)
    exact marked.turned rfl rfl rfl (live_find found).2.1 rfl ⟨rfl, free⟩
  | shut _ _ counters _ how => rcases how with ⟨other, _⟩ | ⟨_, other, _⟩ <;> cases other

/-! What a marked admission refuses. -/

theorem cancel_unclaimed (step : sessionSystem.step s
    ⟨.requestCancel r.timestamp, .cancelled .requested⟩ t) (here : (live s r).isSome = true) :
    ¬ Marked Claimed r s := by
  intro marked
  obtain ⟨entry, found⟩ := Option.isSome_iff_exists.mp here
  have held := marked.entry entry found
  cases step_effect step with
  | quiet _ _ counters refused => cases refused
  | cancel _ entry' counters _ place _ free =>
    rw [(live_find found).2.1] at place
    cases place
    exact absurd (held.1.symm.trans free) (by decide)
  | shut _ _ counters _ how => rcases how with ⟨other, _⟩ | ⟨_, other, _⟩ <;> cases other

theorem claim_uncancelled (step : sessionSystem.step s
    ⟨.claimIrrevocableTerminal r, .claimed .none⟩ t) : ¬ Marked Cancelled r s := by
  intro marked
  cases step_effect step with
  | quiet _ _ counters refused => cases refused
  | claim _ entry _ found _ free =>
    have held : entry.cancelRequested = true := marked.entry entry found
    exact absurd (held.symm.trans free) (by decide)
  | shut _ _ counters _ how => rcases how with ⟨other, _⟩ | ⟨_, other, _⟩ <;> cases other

theorem label_of_published {e : SessionEvent} {batch : OutboundBatch}
    (published : publishedBy r e = some batch) : e.label = ⟨.publish r batch, .published .none⟩ := by
  unfold publishedBy at published
  split at published
  · rename_i receipt batch' label
    split at published
    · rename_i mine
      cases Option.some.inj published
      rw [label, mine]
    · cases published
  · cases published

theorem publish_cancelled (marked : Marked Cancelled r s) {batch : OutboundBatch}
    (step : sessionSystem.step s ⟨.publish r batch, .published .none⟩ t) :
    batch.terminal = true ∧ batch.status = .cancelled := by
  cases step_effect step with
  | quiet _ _ counters refused => cases refused
  | publish _ entry _ _ _ found clear =>
    have admissible := publishObstacle_none clear
    have status := admissible.cancelled (marked.entry entry found)
    exact ⟨admissible.failure (by rw [status]; decide), status⟩
  | shut _ _ counters _ how => rcases how with ⟨other, _⟩ | ⟨_, other, _⟩ <;> cases other

/-- While the admission is live the two calls are refused in one way. -/
theorem claimed_refuses (marked : Marked Claimed r s) {entry : Entry}
    (found : live s r = some entry) (isOpen : s.closed = false) :
    (requestCancel s r.timestamp).2 = .terminalAlreadyQueued ∧
      (rollback s r).2 = .responseAlreadyQueued := by
  have held := (marked.entry entry found).1
  constructor
  · simp [requestCancel, isOpen, (live_find found).2.1, held]
  · simp [rollback, isOpen, found, held]

theorem outcome_of_step {call : Call} (step : sessionSystem.step s call t) :
    call.outcome = (apply s call.op).2 := by
  have both : apply s call.op = (t, call.outcome) := step
  rw [both]

theorem rollback_live (step : sessionSystem.step s ⟨.rollback r, .rolledBack .none⟩ t) :
    (live s r).isSome = true := by
  cases step_effect step with
  | quiet _ _ counters refused => cases refused
  | rollback _ entry counters _ found _ => exact Option.isSome_iff_exists.mpr ⟨entry, found⟩
  | shut _ _ counters _ how => rcases how with ⟨other, _⟩ | ⟨_, other, _⟩ <;> cases other

theorem closed_empty (run : Run sessionSystem es s) : s.closed = true → s.entries = .empty := by
  refine run.invariant (fun s => s.closed = true → s.entries = .empty) ?_ ?_
  · rintro s ⟨limits, instanceId, _, rfl⟩ _
    rfl
  · rintro s ⟨op, outcome⟩ t held step shut
    cases step_effect step with
    | quiet _ _ counters _ => exact held shut
    | empty lease _ _ => exact held shut
    | shut _ _ counters _ _ => rfl
    | admitCommand _ _ isOpen | rollback _ _ _ isOpen | cancel _ _ _ isOpen
    | claim _ _ isOpen | publish _ _ _ isOpen | lease _ _ _ isOpen
    | complete _ _ _ _ isOpen => exact absurd (isOpen.symm.trans shut) (by decide)

theorem open_of_live (run : Run sessionSystem es s) {entry : Entry}
    (found : live s r = some entry) : s.closed = false := by
  cases shut : s.closed with
  | false => rfl
  | true =>
    have place := (live_find found).2.1
    rw [closed_empty run shut] at place
    cases place

theorem live_new {timestamp : Timestamp} {new : Entry} (owner : t.instanceId = s.instanceId)
    (entries : t.entries = s.entries.insert timestamp new)
    (absent : s.entries.find? timestamp = none) {generation : Nat}
    (newest : new.generation = generation) :
    live t ⟨s.instanceId, timestamp, generation⟩ = some new := by
  rw [live_admitted owner entries absent, newest, if_pos rfl]

theorem unmarked_of_step {call : Call} (step : sessionSystem.step s call t)
    (admitted : admittedBy ⟨s, call, t⟩ = some r) : ∃ entry, live t r = some entry ∧
      entry.cancelRequested = false ∧ entry.irrevocableTerminalClaimed = false := by
  obtain ⟨op, outcome⟩ := call
  cases step_effect step with
  | quiet _ _ counters refused =>
    rw [admittedBy_inert refused] at admitted
    cases admitted
  | admitCommand command counters _ absent _ _ =>
    cases Option.some.inj admitted
    refine ⟨⟨command.command, command.responseMode, false, false, false, false,
      s.nextAdmissionGeneration⟩, live_new ?_ ?_ absent rfl, rfl, rfl⟩
    · rfl
    · rfl
  | shut _ _ counters _ how => rcases how with ⟨rfl, rfl⟩ | ⟨_, rfl, _, rfl⟩ <;> cases admitted
  | rollback | cancel | claim | publish | lease | complete | empty => cases admitted

theorem claimed_after {before after : History} {e x : SessionEvent}
    (run : Run sessionSystem (before ++ e :: after) s) (claims : ClaimsAt r e) (later : x ∈ after)
    (here : (live x.source r).isSome = true) :
    (x.label.op = .requestCancel r.timestamp →
      x.label.outcome = .cancelled .terminalAlreadyQueued) ∧
    (x.label.op = .rollback r → x.label.outcome = .rolledBack .responseAlreadyQueued) := by
  have label : e.label = _ := claims
  obtain ⟨prior, step⟩ := run.upto
  rw [label] at step
  have marked := marked_later claimed_stable run (marked_of_claim prior step) later
  obtain ⟨step', es', prior'⟩ := run.of_mem
    (List.mem_append_right before (List.mem_cons_of_mem e later))
  obtain ⟨entry, found⟩ := Option.isSome_iff_exists.mp here
  obtain ⟨cancel, roll⟩ := claimed_refuses marked found (open_of_live prior' found)
  refine ⟨fun op => ?_, fun op => ?_⟩
  · rw [outcome_of_step step', op]
    exact congrArg Outcome.cancelled cancel
  · rw [outcome_of_step step', op]
    exact congrArg Outcome.rolledBack roll

/-- Over every run, also when the client uses a timestamp again. -/
theorem session_flags_exact (run : Run sessionSystem es s) : FlagsExact es where
  exclusive r := by
    rintro ⟨⟨e, member, label, here⟩, e', member', claims⟩
    have label' : e'.label = _ := claims
    obtain ⟨before, after, rfl⟩ := List.append_of_mem member
    obtain ⟨prior, step⟩ := run.upto
    rw [label] at step
    rcases List.mem_append.mp member' with earlier | later
    · obtain ⟨first, mid, rfl⟩ := List.append_of_mem earlier
      have split : Run sessionSystem (first ++ e' :: (mid ++ e :: after)) s := by simpa using run
      obtain ⟨prior', step'⟩ := split.upto
      rw [label'] at step'
      exact cancel_unclaimed step here
        (marked_later claimed_stable split (marked_of_claim prior' step') (by simp))
    · rcases List.mem_cons.mp later with rfl | later
      · rw [label] at label'
        cases label'
      · obtain ⟨step', -, -⟩ := run.of_mem member'
        rw [label'] at step'
        exact claim_uncancelled step'
          (marked_later cancelled_stable run (marked_of_cancel prior step here) later)
  cancelled before e after r split cancels batch published := by
    subst split
    obtain ⟨label, here⟩ := cancels
    obtain ⟨prior, step⟩ := run.upto
    rw [label] at step
    obtain ⟨x, later, found⟩ := List.mem_filterMap.mp published
    have marked := marked_later cancelled_stable run (marked_of_cancel prior step here) later
    obtain ⟨step', -, -⟩ := run.of_mem (List.mem_append_right before (List.mem_cons_of_mem e later))
    rw [label_of_published found] at step'
    exact publish_cancelled marked step'
  claimed before e after r split claims x later here := by
    subst split
    exact claimed_after run claims later here
  not_rolled_back before e after r split claims x later label := by
    subst split
    obtain ⟨step, -, -⟩ := run.of_mem (List.mem_append_right before (List.mem_cons_of_mem e later))
    rw [label] at step
    have refused := (claimed_after run claims later (rollback_live step)).2 (by rw [label])
    rw [label] at refused
    cases refused
  unmarked e member r admitted := unmarked_of_step (run.of_mem member).1 admitted

/-- A timestamp used three times: cancelled, claimed, and admitted once more. -/
theorem session_flags_exact_reused :
    let played := play perform sampleSession
      [.admitCommand sampleAdmission, .requestCancel 7, .claimIrrevocableTerminal ⟨1, 7, 1⟩,
        .rollback ⟨1, 7, 1⟩, .admitCommand sampleAdmission, .claimIrrevocableTerminal ⟨1, 7, 2⟩,
        .requestCancel 7, .publish ⟨1, 7, 2⟩ (sampleBatch true), .beginSend,
        .completeSend ⟨1, sampleBatch true⟩, .admitCommand sampleAdmission]
    played.1.map (fun e => e.label.outcome) =
        [.admitted ⟨.none, some ⟨1, 7, 1⟩⟩, .cancelled .requested,
          .claimed .cancellationRequested, .rolledBack .none, .admitted ⟨.none, some ⟨1, 7, 2⟩⟩,
          .claimed .none, .cancelled .terminalAlreadyQueued, .published .none,
          .began ⟨some ⟨1, sampleBatch true⟩, .none⟩, .completed .none,
          .admitted ⟨.none, some ⟨1, 7, 3⟩⟩] ∧ FlagsExact played.1 := by
  refine ⟨by decide, ?_⟩
  exact session_flags_exact (run_play perform_step _ ⟨{}, 1, by decide, rfl⟩)

end Baas.TriggerSession
