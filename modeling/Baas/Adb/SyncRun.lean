import Baas.Adb.Sync

/-! What a push leaves on the stream, however its writes are cut, and what it makes of the
response, however its reads are cut. -/
namespace Baas.Adb

open JsonText (ascii)

variable {peer : Peer} {service : ServiceAdbSync} {reader : Reader} {content : Bytes}

/-! Steps that send. -/

/-- The step sends `text`, or a part of it from the front when it fails, and reads nothing. -/
def Sends {α : Type} (good : α → Prop) (step : Step α) (text : Bytes) : Prop :=
  ∀ world, (step world).2.answer = world.answer ∧ (step world).2.received = world.received ∧
    ∃ part, (step world).2.sent = world.sent ++ part ∧ part <+: text ∧
      ∀ a, (step world).1 = .ok a → good a ∧ part = text

section Sends

variable {α β : Type} {good : α → Prop} {good' : β → Prop} {step : Step α} {next : α → Step β}
  {text text' : Bytes}

theorem Sends.seq (first : Sends good step text) (rest : ∀ a, good a → Sends good' (next a) text') :
    Sends good' (step >>= next) (text ++ text') := by
  intro world
  obtain ⟨answer, received, part, sent, inside, whole⟩ := first world
  show (Program.andThen step next world).2.answer = _ ∧
    (Program.andThen step next world).2.received = _ ∧ ∃ part,
      (Program.andThen step next world).2.sent = _ ∧ part <+: _ ∧
        ∀ b, (Program.andThen step next world).1 = .ok b → good' b ∧ part = _
  unfold Program.andThen
  cases outcome : step world with
  | mk result after =>
    rw [outcome] at answer received sent whole
    cases result with
    | error failure =>
      refine ⟨answer, received, part, sent, inside.trans (List.prefix_append _ _), ?_⟩
      intro b same
      cases same
    | ok a =>
      obtain ⟨fine, rfl⟩ := whole a rfl
      obtain ⟨answer', received', part', sent', inside', whole'⟩ := rest a fine after
      refine ⟨answer'.trans answer, received'.trans received, part ++ part', ?_,
        (List.prefix_append_right_inj part).mpr inside', ?_⟩
      · rw [sent', sent, List.append_assoc]
      · intro b same
        obtain ⟨fine', rfl⟩ := whole' b same
        exact ⟨fine', rfl⟩

theorem Sends.after (first : Sends good step []) (rest : ∀ a, good a → Sends good' (next a) text) :
    Sends good' (step >>= next) text := first.seq rest

theorem sends_pure {a : α} (fine : good a) : Sends good (pure a : Step α) [] := fun _ =>
  ⟨rfl, rfl, [], (List.append_nil _).symm, List.prefix_refl _, fun b same => by
    cases same
    exact ⟨fine, rfl⟩⟩

theorem sends_query (f : World → Except Failure α) (fine : ∀ a, good a) :
    Sends good (Program.query f) [] := fun _ =>
  ⟨rfl, rfl, [], (List.append_nil _).symm, List.prefix_refl _, fun a _ => ⟨fine a, rfl⟩⟩

theorem sends_refuseIf {c : Prop} [Decidable c] {failure : Failure} :
    Sends (fun _ => True) (Program.refuseIf c failure : Step Unit) [] := by
  intro world
  unfold Program.refuseIf
  split
  · exact ⟨rfl, rfl, [], (List.append_nil _).symm, List.prefix_refl _, fun a same => by cases same⟩
  · exact sends_pure trivial world

end Sends

theorem writeSome_sends (bytes : Bytes) (world : World) :
    (writeSome peer bytes world).2.answer = world.answer ∧
      (writeSome peer bytes world).2.received = world.received ∧
      ∃ part, (writeSome peer bytes world).2.sent = world.sent ++ part ∧ part <+: bytes ∧
        ∀ n, (writeSome peer bytes world).1 = .ok n →
          0 < n ∧ n ≤ bytes.length ∧ part = bytes.take n := by
  unfold writeSome
  split
  · exact ⟨rfl, rfl, [], (List.append_nil _).symm, List.nil_prefix, fun n same => by cases same⟩
  · next status transferred turn =>
    simp only
    split
    · exact ⟨rfl, rfl, _, rfl, List.take_prefix _ _, fun n same => by cases same⟩
    next fine =>
    split
    · exact ⟨rfl, rfl, _, rfl, List.take_prefix _ _, fun n same => by cases same⟩
    · next fits =>
      refine ⟨rfl, rfl, _, rfl, List.take_prefix _ _, fun n same => ?_⟩
      cases same
      exact ⟨Nat.pos_of_ne_zero (not_or.mp fine).2, Nat.le_of_not_lt fits, rfl⟩

theorem writeLoop_sends {left : Nat} {bytes : Bytes} (enough : bytes.length ≤ left) :
    Sends (fun _ => True) (writeLoop peer left bytes) bytes := by
  induction left generalizing bytes with
  | zero =>
    obtain rfl : bytes = [] := List.length_eq_zero_iff.mp (Nat.le_zero.mp enough)
    exact sends_pure trivial
  | succ left ih =>
    unfold writeLoop
    split
    · next empty =>
      rw [empty]
      exact sends_pure trivial
    · intro world
      obtain ⟨answer, received, part, sent, inside, whole⟩ :=
        @writeSome_sends peer bytes world
      show (Program.andThen (writeSome peer bytes) _ world).2.answer = _ ∧
        (Program.andThen (writeSome peer bytes) _ world).2.received = _ ∧ ∃ part,
          (Program.andThen (writeSome peer bytes) _ world).2.sent = _ ∧ part <+: _ ∧
            ∀ b, (Program.andThen (writeSome peer bytes) _ world).1 = .ok b → _ ∧ part = _
      unfold Program.andThen
      cases outcome : writeSome peer bytes world with
      | mk result after =>
        rw [outcome] at answer received sent whole
        cases result with
        | error failure => exact ⟨answer, received, part, sent, inside, fun b same => by cases same⟩
        | ok n =>
          obtain ⟨positive, fits, rfl⟩ := whole n rfl
          have shorter : (bytes.drop n).length ≤ left := by
            rw [List.length_drop]
            omega
          obtain ⟨answer', received', part', sent', inside', whole'⟩ := ih shorter after
          refine ⟨answer'.trans answer, received'.trans received, bytes.take n ++ part', ?_, ?_, ?_⟩
          · rw [sent', sent, List.append_assoc]
          · have longer := (List.prefix_append_right_inj (bytes.take n)).mpr inside'
            rwa [List.take_append_drop] at longer
          · intro b same
            obtain ⟨-, rfl⟩ := whole' b same
            exact ⟨trivial, List.take_append_drop n bytes⟩

theorem writeAll_sends (bytes : Bytes) : Sends (fun _ => True) (writeAll peer bytes) bytes := by
  intro world
  unfold writeAll
  split
  · exact ⟨rfl, rfl, [], (List.append_nil _).symm, List.nil_prefix, fun a same => by cases same⟩
  split
  · exact ⟨rfl, rfl, [], (List.append_nil _).symm, List.nil_prefix, fun a same => by cases same⟩
  · exact writeLoop_sends le_rfl { world with entries := world.entries + 1 }

/-! The frames. -/

def sendFrame (path : Bytes) : Bytes := header "SEND" path.length ++ path
def dataFrame (piece : Bytes) : Bytes := header "DATA" piece.length ++ piece
def doneFrame (mtime : Nat) : Bytes := header "DONE" mtime

/-- The chunks of the content from `total` on. -/
def pieces (service : ServiceAdbSync) (content : Bytes) (total : Nat) : List Bytes :=
  if total < content.length then
    let wanted := min service.limits.dataChunkBytes (content.length - total)
    (content.drop total).take wanted :: pieces service content (total + wanted)
  else []
termination_by content.length - total
decreasing_by
  have := service.chunkBytes.1
  omega

theorem pieces_flatten (total : Nat) :
    (pieces service content total).flatten = content.drop total := by
  fun_induction pieces service content total with
  | case1 total inside wanted ih =>
    rw [List.flatten_cons, ih, ← List.drop_drop, List.take_append_drop]
  | case2 total past => rw [List.flatten_nil, List.drop_eq_nil_of_le (Nat.le_of_not_lt past)]

theorem pieces_bounds (total : Nat) : ∀ piece ∈ pieces service content total,
    1 ≤ piece.length ∧ piece.length ≤ service.limits.dataChunkBytes := by
  have positive := service.chunkBytes.1
  fun_induction pieces service content total with
  | case1 total inside wanted ih =>
    intro piece there
    obtain rfl | later := List.mem_cons.mp there
    · rw [List.length_take, List.length_drop]
      omega
    · exact ih piece later
  | case2 total past =>
    intro piece there
    cases there

theorem readSource_sends {total wanted : Nat} :
    Sends (fun chunk => chunk = (content.drop total).take wanted)
      (readSource reader content total wanted) [] := by
  intro world
  unfold readSource
  split
  · exact ⟨rfl, rfl, [], (List.append_nil _).symm, List.nil_prefix, fun a same => by cases same⟩
  · next got read =>
    split
    · exact ⟨rfl, rfl, [], (List.append_nil _).symm, List.nil_prefix, fun a same => by cases same⟩
    · next full =>
      refine ⟨rfl, rfl, [], (List.append_nil _).symm, List.nil_prefix, fun a same => ?_⟩
      cases same
      exact ⟨by rw [not_not.mp full], rfl⟩

theorem sendData_sends (total : Nat) :
    Sends (fun _ => True) (sendData peer service reader content total)
      ((pieces service content total).flatMap dataFrame) := by
  fun_induction pieces service content total with
  | case1 total inside wanted ih =>
    rw [sendData, if_pos inside, List.flatMap_cons, dataFrame]
    have size : ((content.drop total).take wanted).length = wanted := by
      rw [List.length_take, List.length_drop]
      omega
    rw [size, List.append_assoc]
    refine readSource_sends.after (fun chunk same => ?_)
    subst same
    exact (writeAll_sends _).seq (fun _ _ => (writeAll_sends _).seq (fun _ _ => ih))
  | case2 total past =>
    rw [sendData, if_neg past]
    exact sends_pure trivial

/-- What a push sends before `DONE`. -/
def bodyText (service : ServiceAdbSync) (content : Bytes) (request : PushRequest) : Bytes :=
  sendFrame (modePath request) ++ (pieces service content 0).flatMap dataFrame

theorem pushBody_sends (request : PushRequest) :
    Sends (fun _ => True) (pushBody peer service reader content request)
      (bodyText service content request) := by
  rw [bodyText, sendFrame, List.append_assoc]
  unfold pushBody
  refine sends_refuseIf.after (fun _ _ => ?_)
  refine sends_refuseIf.after (fun _ _ => ?_)
  refine sends_refuseIf.after (fun _ _ => ?_)
  refine (sends_query _ fun _ => trivial).after (fun _ _ => ?_)
  exact (writeAll_sends _).seq (fun _ _ => (writeAll_sends _).seq (fun _ _ => sendData_sends 0))

/-! Reading. -/

def Ending.failure : Ending → Failure
  | .eof => ⟨.protocolError, ascii "truncated ADB SYNC frame"⟩
  | .failed error => ⟨error, []⟩

/-- What `count` bytes of a response read as, wherever the reads are cut. -/
def taken (peer : Peer) (answer : Bytes) (count : Nat) : Except Failure Bytes :=
  if count = 0 then .ok []
  else if answer = [] ∧ peer.ending = .failed .closed then .error ⟨.closed, []⟩
  else if count > peer.maxResponseBytes then .error ⟨.capacity, []⟩
  else if count ≤ answer.length then .ok (answer.take count)
  else .error peer.ending.failure

/-- How many bytes of the response that uses up. -/
def used (peer : Peer) (answer : Bytes) (count : Nat) : Nat :=
  if count > peer.maxResponseBytes then 0 else min count answer.length

theorem taken_step {answer : Bytes} {count t : Nat} (some : answer ≠ []) (positive : 1 ≤ t)
    (below : t ≤ count) (fits : count ≤ peer.maxResponseBytes) :
    (taken peer (answer.drop t) (count - (answer.take t).length)).map (answer.take t ++ ·) =
      taken peer answer count := by
  have length : 0 < answer.length := List.length_pos_iff.mpr some
  have front : (answer.take t).length = min t answer.length := List.length_take
  have whole : taken peer answer count =
      if count ≤ answer.length then .ok (answer.take count) else .error peer.ending.failure := by
    rw [taken, if_neg (by omega), if_neg (fun both => some both.1), if_neg (by omega)]
  rw [whole]
  by_cases enough : count ≤ answer.length
  · rw [if_pos enough, taken]
    by_cases last : t = count
    · rw [if_pos (by omega), Except.map, last, List.append_nil]
    · have more : answer.drop t ≠ [] := List.length_pos_iff.mp (by rw [List.length_drop]; omega)
      rw [if_neg (by omega), if_neg (fun both => more both.1), if_neg (by omega),
        if_pos (by rw [List.length_drop]; omega), Except.map, front]
      have split : count = t + (count - min t answer.length) := by omega
      conv_rhs => rw [split, List.take_add]
  · rw [if_neg enough, taken, if_neg (by omega)]
    by_cases closed : answer.drop t = [] ∧ peer.ending = .failed .closed
    · rw [if_pos closed, closed.2]
      rfl
    · rw [if_neg closed, if_neg (by omega), if_neg (by rw [List.length_drop]; omega)]
      rfl

theorem used_step {answer : Bytes} {count t : Nat} (below : t ≤ count)
    (fits : count ≤ peer.maxResponseBytes) :
    (answer.take t).length + used peer (answer.drop t) (count - (answer.take t).length) =
      used peer answer count := by
  simp only [used, List.length_take, List.length_drop]
  rw [if_neg (by omega), if_neg (by omega)]
  omega

theorem readExact_eq (count : Nat) (world : World) : ∃ reads, readExact peer count world =
    (taken peer world.answer count,
      { world with
        reads := reads
        received := world.received ++ world.answer.take (used peer world.answer count)
        answer := world.answer.drop (used peer world.answer count) }) := by
  induction count using Nat.strongRecOn generalizing world with
  | _ count ih =>
    obtain ⟨entries, turns, reads, sourceReads, sent, received, answer⟩ := world
    unfold readExact
    by_cases zero : count = 0
    · refine ⟨reads, ?_⟩
      subst zero
      simp [taken, used, pure, Program.done]
    rw [if_neg zero]
    show ∃ reads', Program.andThen (readSome peer count) _ _ = _
    unfold Program.andThen
    by_cases closed : answer = [] ∧ peer.ending = .failed .closed
    · refine ⟨reads, ?_⟩
      obtain ⟨rfl, closed⟩ := closed
      simp [readSome, taken, zero, closed]
    by_cases large : count > peer.maxResponseBytes
    · refine ⟨reads, ?_⟩
      simp [readSome, taken, used, zero, closed, large]
    by_cases empty : answer = []
    · refine ⟨reads, ?_⟩
      subst empty
      have open' : peer.ending ≠ .failed .closed := fun same => closed ⟨rfl, same⟩
      cases ending : peer.ending with
      | eof => simp [readSome, taken, used, zero, large, ending, Program.raise, Ending.failure]
      | failed error =>
        have other : error ≠ .closed := fun same => open' (by rw [ending, same])
        simp [readSome, taken, used, zero, large, ending, other, Ending.failure]
    · have positive : 1 ≤ min (max 1 (peer.split reads)) count := by omega
      have below : min (max 1 (peer.split reads)) count ≤ count := Nat.min_le_right _ _
      have first : readSome peer count
          ⟨entries, turns, reads, sourceReads, sent, received, answer⟩ =
          (.ok (answer.take (min (max 1 (peer.split reads)) count)),
            ⟨entries, turns, reads + 1, sourceReads, sent,
              received ++ answer.take (min (max 1 (peer.split reads)) count),
              answer.drop (min (max 1 (peer.split reads)) count)⟩) := by
        unfold readSome
        rw [if_neg closed, if_neg (not_or.mpr ⟨zero, large⟩), if_neg empty]
      rw [first]
      generalize min (max 1 (peer.split reads)) count = t at positive below
      have fits := Nat.le_of_not_lt large
      have some : answer.take t ≠ [] := by
        simp only [ne_eq, List.take_eq_nil_iff, empty, or_false]
        omega
      have shorter : count - (answer.take t).length < count := by
        have := List.length_pos_iff.mpr some
        omega
      obtain ⟨reads', rest⟩ := ih _ shorter
        ⟨entries, turns, reads + 1, sourceReads, sent, received ++ answer.take t, answer.drop t⟩
      refine ⟨reads', ?_⟩
      rw [← taken_step empty positive below fits, ← used_step below fits]
      simp only [if_neg some]
      show Program.andThen (readExact peer _) _ _ = _
      unfold Program.andThen
      obtain ⟨front, back⟩ : answer.take (answer.take t).length = answer.take t ∧
          answer.drop (answer.take t).length = answer.drop t := by
        obtain inside | past := Nat.le_total t answer.length
        · rw [List.length_take_of_le inside]
          exact ⟨rfl, rfl⟩
        · rw [List.take_of_length_le past]
          exact ⟨List.take_length, by rw [List.drop_length, List.drop_eq_nil_of_le past]⟩
      rw [rest, List.take_add, ← List.drop_drop, front, back, List.append_assoc]
      cases taken peer (answer.drop t) (count - (answer.take t).length) with
      | error failure => rfl
      | ok bytes => rfl

/-- The step sends nothing, and how it ends is told by the part of the response it has read. -/
def Reads {α : Type} (told : Except Failure α → Bytes → Prop) (step : Step α) : Prop :=
  ∀ world, (step world).2.sent = world.sent ∧
    ∃ part, (step world).2.received = world.received ++ part ∧ told (step world).1 part

theorem Reads.seq {α β : Type} {first : Except Failure α → Bytes → Prop}
    {told : Except Failure β → Bytes → Prop} {step : Step α} {next : α → Step β}
    (reads : Reads first step)
    (failed : ∀ failure part, first (.error failure) part → told (.error failure) part)
    (rest : ∀ a part, first (.ok a) part →
      Reads (fun result more => told result (part ++ more)) (next a)) :
    Reads told (step >>= next) := by
  intro world
  obtain ⟨sent, part, received, told'⟩ := reads world
  show (Program.andThen step next world).2.sent = _ ∧ ∃ part,
    (Program.andThen step next world).2.received = _ ∧ told (Program.andThen step next world).1 part
  unfold Program.andThen
  cases outcome : step world with
  | mk result after =>
    rw [outcome] at sent received told'
    cases result with
    | error failure => exact ⟨sent, part, received, failed failure part told'⟩
    | ok a =>
      obtain ⟨sent', more, received', told''⟩ := rest a part told' after
      refine ⟨sent'.trans sent, part ++ more, ?_, told''⟩
      rw [received', received, List.append_assoc]

theorem reads_pure {α : Type} {told : Except Failure α → Bytes → Prop} {a : α}
    (fine : told (.ok a) []) : Reads told (pure a : Step α) := fun _ =>
  ⟨rfl, [], (List.append_nil _).symm, fine⟩

theorem reads_raise {α : Type} {told : Except Failure α → Bytes → Prop} {failure : Failure}
    (fine : told (.error failure) []) : Reads told (Program.raise failure : Step α) := fun _ =>
  ⟨rfl, [], (List.append_nil _).symm, fine⟩

/-- A read that succeeds has its bytes, and one that fails has got fewer. -/
def Whole (count : Nat) : Except Failure Bytes → Bytes → Prop
  | .ok bytes, part => part = bytes ∧ bytes.length = count
  | .error _, part => part.length < count

theorem readExact_reads (count : Nat) : Reads (Whole count) (readExact peer count) := by
  intro world
  obtain ⟨reads, eq⟩ := @readExact_eq peer count world
  rw [eq]
  refine ⟨rfl, _, rfl, ?_⟩
  simp only [taken, used]
  by_cases zero : count = 0
  · subst zero
    simp [Whole]
  rw [if_neg zero]
  by_cases closed : world.answer = [] ∧ peer.ending = .failed .closed
  · rw [if_pos closed, closed.1]
    simp [Whole]
    omega
  rw [if_neg closed]
  by_cases large : count > peer.maxResponseBytes
  · rw [if_pos large, if_pos large]
    simp [Whole]
    omega
  rw [if_neg large, if_neg large]
  by_cases enough : count ≤ world.answer.length
  · rw [if_pos enough, Nat.min_eq_left enough]
    exact ⟨rfl, List.length_take_of_le enough⟩
  · rw [if_neg enough]
    simp [Whole]
    omega

/-- An `OKAY` frame: the word, and a length that is ignored. -/
def OkayFrame (part : Bytes) : Prop := part.length = 8 ∧ part.take 4 = ascii "OKAY"

theorem expectStatus_reads :
    Reads (fun result part => result = .ok () ↔ OkayFrame part) (expectStatus peer service) := by
  have words : (ascii "OKAY").length = 4 ∧ (ascii "FAIL").length = 4 ∧
      ascii "FAIL" ≠ ascii "OKAY" := by
    simp only [JsonText.ascii_eq]
    decide
  have refused : ∀ {failure : Failure} {part : Bytes}, ¬ OkayFrame part →
      ((.error failure : Except Failure Unit) = .ok () ↔ OkayFrame part) := fun other =>
    ⟨fun same => (by cases same), fun okay => absurd okay other⟩
  unfold expectStatus
  refine (readExact_reads 4).seq (fun failure part short => refused ?_) (fun word part got => ?_)
  · have few : part.length < 4 := short
    exact fun okay => by have := okay.1; omega
  obtain ⟨rfl, size⟩ : part = word ∧ word.length = 4 := got
  have front : ∀ more : Bytes, (part ++ more).take 4 = part := fun more => List.take_left' size
  by_cases known : part ≠ ascii "OKAY" ∧ part ≠ ascii "FAIL"
  · rw [if_pos known]
    refine reads_raise (refused fun okay => known.1 ?_)
    rw [← front [], okay.2]
  rw [if_neg known]
  by_cases fails : part = ascii "FAIL"
  · have other : ∀ more, ¬ OkayFrame (part ++ more) := fun more okay =>
      words.2.2 (by rw [← fails, ← okay.2, front])
    rw [if_pos fails]
    have anyway : Reads (fun _ _ => True) (readFail peer service) := by
      unfold readFail
      refine (readExact_reads 4).seq (fun _ _ _ => trivial) (fun size part got => ?_)
      dsimp only
      split
      · exact reads_raise trivial
      · intro world
        obtain ⟨sent, part, received, -⟩ := readExact_reads _ world
        exact ⟨sent, part, received, trivial⟩
    refine anyway.seq (fun _ more _ => refused (other more)) (fun message more _ => ?_)
    exact reads_raise (refused (other _))
  · have okay : part = ascii "OKAY" := not_not.mp fun odd => known ⟨odd, fails⟩
    rw [if_neg fails]
    refine (readExact_reads 4).seq (fun failure more short => refused ?_) (fun length more got => ?_)
    · have few : more.length < 4 := short
      exact fun okay => by
        have := okay.1
        rw [List.length_append] at this
        omega
    · obtain ⟨rfl, size'⟩ : more = length ∧ length.length = 4 := got
      refine reads_pure ⟨fun _ => ⟨?_, ?_⟩, fun _ => rfl⟩
      · simp only [List.length_append, List.length_nil]
        omega
      · rw [front, okay]

/-! However the reads are cut. -/

/-- The peer with its reads cut otherwise. -/
def Peer.recut (peer : Peer) (split : Nat → Nat) : Peer := { peer with split := split }

theorem writeLoop_recut (split : Nat → Nat) (left : Nat) (bytes : Bytes) :
    writeLoop (peer.recut split) left bytes = writeLoop peer left bytes := by
  induction left generalizing bytes with
  | zero => rfl
  | succ left ih =>
    unfold writeLoop
    split
    · rfl
    · simp only [ih]
      rfl

theorem writeAll_recut (split : Nat → Nat) (bytes : Bytes) :
    writeAll (peer.recut split) bytes = writeAll peer bytes := by
  funext world
  simp only [writeAll, writeLoop_recut]
  rfl

theorem sendData_recut (split : Nat → Nat) (total : Nat) :
    sendData (peer.recut split) service reader content total =
      sendData peer service reader content total := by
  fun_induction pieces service content total with
  | case1 total inside wanted ih =>
    rw [sendData, if_pos inside, sendData, if_pos inside]
    simp only [writeAll_recut]
    rw [ih]
  | case2 total past => rw [sendData, if_neg past, sendData, if_neg past]

/-- The two steps end alike, and what they leave differs in the number of reads only. -/
def Alike {α : Type} (step step' : Step α) : Prop :=
  ∀ world reads, ∃ reads', step' { world with reads := reads } =
    ((step world).1, { (step world).2 with reads := reads' })

theorem Alike.seq {α β : Type} {step step' : Step α} {next next' : α → Step β}
    (alike : Alike step step') (rest : ∀ a, Alike (next a) (next' a)) :
    Alike (step >>= next) (step' >>= next') := by
  intro world reads
  obtain ⟨reads', same⟩ := alike world reads
  show ∃ reads', Program.andThen step' next' _ = ((Program.andThen step next world).1,
    { (Program.andThen step next world).2 with reads := reads' })
  unfold Program.andThen
  rw [same]
  cases step world with
  | mk result after =>
    cases result with
    | error failure => exact ⟨reads', rfl⟩
    | ok a => exact rest a after reads'

theorem alike_raise {α : Type} (failure : Failure) :
    Alike (Program.raise failure : Step α) (Program.raise failure) := fun _ reads => ⟨reads, rfl⟩

theorem alike_pure {α : Type} (a : α) : Alike (pure a : Step α) (pure a) :=
  fun _ reads => ⟨reads, rfl⟩

theorem readExact_alike (split : Nat → Nat) (count : Nat) :
    Alike (readExact peer count) (readExact (peer.recut split) count) := by
  intro world reads
  obtain ⟨reads₁, eq⟩ := @readExact_eq peer count world
  obtain ⟨reads₂, eq'⟩ := @readExact_eq (peer.recut split) count { world with reads := reads }
  rw [eq, eq']
  exact ⟨reads₂, rfl⟩

theorem expectStatus_alike (split : Nat → Nat) :
    Alike (expectStatus peer service) (expectStatus (peer.recut split) service) := by
  unfold expectStatus readFail
  refine (readExact_alike split 4).seq (fun word => ?_)
  split
  · exact alike_raise _
  split
  · refine Alike.seq ((readExact_alike split 4).seq (fun size => ?_)) (fun _ => alike_raise _)
    dsimp only
    split
    · exact alike_raise _
    · exact readExact_alike split _
  · exact (readExact_alike split 4).seq (fun _ => alike_pure _)

theorem pushBody_recut (split : Nat → Nat) (request : PushRequest) :
    pushBody (peer.recut split) service reader content request =
      pushBody peer service reader content request := by
  unfold pushBody
  simp only [writeAll_recut, sendData_recut]
  rfl

/-- Behind the same beginning, steps that are alike end alike. -/
theorem Alike.behind {α β : Type} {first : Step α} {next next' : α → Step β}
    (alike : ∀ world a, ∃ reads, next' a world =
      ((next a world).1, { (next a world).2 with reads := reads })) (world : World) :
    ∃ reads, (first >>= next') world =
      (((first >>= next) world).1, { ((first >>= next) world).2 with reads := reads }) := by
  show ∃ reads, Program.andThen first next' world = ((Program.andThen first next world).1,
    { (Program.andThen first next world).2 with reads := reads })
  unfold Program.andThen
  cases first world with
  | mk result after =>
    cases result with
    | error failure => exact ⟨after.reads, rfl⟩
    | ok a => exact alike after a

theorem pushImpl_recut (split : Nat → Nat) (request : PushRequest) (world : World) :
    ∃ reads, pushImpl (peer.recut split) service reader content request world =
      ((pushImpl peer service reader content request world).1,
        { (pushImpl peer service reader content request world).2 with reads := reads }) := by
  unfold pushImpl
  rw [pushBody_recut, writeAll_recut]
  refine Alike.behind (fun world _ => Alike.behind (fun world _ => ?_) world) world
  exact (expectStatus_alike split).seq (fun _ => alike_pure _) world world.reads

/-! The push. -/

/-- The stream of a push at its start. -/
def Peer.fresh (peer : Peer) : World := { answer := peer.response }

theorem unread {received : Bytes} (none : received = []) : ¬ OkayFrame received := by
  rintro ⟨size, -⟩
  rw [none] at size
  cases size

/-- `DONE` and the status, on a stream of which nothing has been read. -/
theorem finish_steps (done : Bytes) (total : Nat) {world : World} (fresh : world.received = []) :
    let run := (do
      writeAll peer done
      expectStatus peer service
      pure total : Step Nat) world
    ∃ part, run.2.sent = world.sent ++ part ∧ part <+: done ∧
      ∀ size, run.1 = .ok size ↔ size = total ∧ part = done ∧ OkayFrame run.2.received := by
  intro run
  obtain ⟨-, received, part, sent, inside, complete⟩ := @writeAll_sends peer done world
  have steps : run = Program.andThen (writeAll peer done) (fun _ =>
      Program.andThen (expectStatus peer service) (fun _ => Program.done total)) world := rfl
  unfold Program.andThen at steps
  cases write : writeAll peer done world with
  | mk result after =>
    rw [write] at steps sent received complete
    cases result with
    | error failure =>
      rw [steps]
      refine ⟨part, sent, inside, fun size => ⟨fun same => (by cases same), fun all => ?_⟩⟩
      exact absurd all.2.2 (unread (received.trans fresh))
    | ok a =>
      obtain ⟨-, rfl⟩ := complete a rfl
      obtain ⟨sent', read, received', told⟩ := @expectStatus_reads peer service after
      have whole : (expectStatus peer service after).2.received = read := by
        rw [received', received, fresh, List.nil_append]
      rw [steps]
      cases status : expectStatus peer service after with
      | mk result' last =>
        rw [status] at sent' whole told
        simp only [status]
        cases result' with
        | error failure =>
          refine ⟨part, sent'.trans sent, inside, fun size => ⟨fun same => (by cases same), ?_⟩⟩
          rintro ⟨-, -, okay⟩
          have okay' : OkayFrame read := whole ▸ okay
          cases told.mpr okay'
        | ok b =>
          refine ⟨part, sent'.trans sent, inside, fun size => ⟨fun same => ?_, fun all => ?_⟩⟩
          · cases same
            exact ⟨rfl, rfl, whole.symm ▸ told.mp rfl⟩
          · rw [all.1]
            rfl

theorem pushImpl_steps (request : PushRequest) :
    let run := pushImpl peer service reader content request peer.fresh
    let body := bodyText service content request
    let done := doneFrame (effectiveMtime request.modifiedTime request.now)
    run.2.sent <+: body ++ done ∧
      (∀ size, run.1 = .ok size ↔
        size = content.length ∧ run.2.sent = body ++ done ∧ OkayFrame run.2.received) ∧
      ((∀ a, (pushBody peer service reader content request peer.fresh).1 ≠ .ok a) →
        run.2.sent <+: body) := by
  intro run body done
  obtain ⟨-, received, part, sent, inside, complete⟩ := @pushBody_sends peer service
    reader content request peer.fresh
  have sent' : (pushBody peer service reader content request peer.fresh).2.sent = part := sent
  have steps : run = Program.andThen (pushBody peer service reader content request) (fun _ => do
      writeAll peer done
      expectStatus peer service
      pure content.length) peer.fresh := rfl
  unfold Program.andThen at steps
  cases first : pushBody peer service reader content request peer.fresh with
  | mk result after =>
    rw [first] at steps sent' received complete
    cases result with
    | error failure =>
      rw [steps]
      refine ⟨?_, fun size => ⟨fun same => (by cases same), fun all => ?_⟩, fun _ => ?_⟩
      · exact sent' ▸ inside.trans (List.prefix_append _ _)
      · exact absurd all.2.2 (unread received)
      · exact sent' ▸ inside
    | ok a =>
      obtain ⟨-, rfl⟩ := complete a rfl
      obtain ⟨tail, sent'', inside', told⟩ := @finish_steps peer service done
        content.length after received
      rw [steps]
      simp only at sent'' told ⊢
      rw [sent', ] at sent''
      refine ⟨?_, fun size => ?_, fun none => absurd rfl (none a)⟩
      · rw [sent'']
        exact (List.prefix_append_right_inj _).mpr inside'
      · rw [told size, sent'', List.append_cancel_left_eq]

/-- What a push sends, when it succeeds and what its result depends on. -/
theorem pushImpl_exact (request : PushRequest) (split : Nat → Nat) :
    let run := pushImpl peer service reader content request peer.fresh
    let run' := pushImpl (peer.recut split) service reader content request (peer.recut split).fresh
    let done := doneFrame (effectiveMtime request.modifiedTime request.now)
    (∃ chunks : List Bytes, chunks.flatten = content ∧
      (∀ chunk ∈ chunks, 1 ≤ chunk.length ∧ chunk.length ≤ service.limits.dataChunkBytes) ∧
      let body := sendFrame (modePath request) ++ chunks.flatMap dataFrame
      run.2.sent <+: body ++ done ∧
        (∀ size, run.1 = .ok size ↔
          size = content.length ∧ run.2.sent = body ++ done ∧ OkayFrame run.2.received) ∧
        ((∀ a, (pushBody peer service reader content request peer.fresh).1 ≠ .ok a) →
          run.2.sent <+: body)) ∧
      run'.1 = run.1 ∧ run'.2.sent = run.2.sent ∧ run'.2.received = run.2.received := by
  intro run run' done
  refine ⟨⟨pieces service content 0, ?_, pieces_bounds 0, pushImpl_steps request⟩, ?_⟩
  · rw [pieces_flatten, List.drop_zero]
  · obtain ⟨reads, same⟩ := @pushImpl_recut peer service reader content split request peer.fresh
    have same' : run' = (run.1, { run.2 with reads := reads }) := same
    rw [same']
    exact ⟨rfl, rfl, rfl⟩

end Baas.Adb
