import Mathlib.Algebra.BigOperators.Group.List.Basic
import Mathlib.Algebra.GroupWithZero.Nat
import Baas.Lib.Transition
import Baas.Pipe.ConnectionRun

/-! All the connections of a host together: they share one budget of retained input. -/
namespace Baas.Pipe

open Interaction

/-- A connection with the rest of its loop, and its account. -/
structure Served where
  program : Program Outcome
  account : Account

structure Ledger where
  retained : Nat
  connections : List Served

def tryReserveIngress (host : PipeHost) (retained bytes : Nat) : Bool × Nat :=
  if host.limits.maxTotalIngressRetainedBytes - retained < bytes then (false, retained)
  else (true, retained + bytes)

def releaseIngress (retained bytes : Nat) : Nat := retained - min bytes retained

/-- What an answer may be, and what it makes of the bytes the host has retained: the budget
answers reservations, everything else is up to the peer, the handler and the writer. -/
def Answers (host : PipeHost) (retained : Nat) : (q : PipeQuery) → PipeAnswer q → Nat → Prop
  | .reserveIngress bytes, granted, after => (granted, after) = tryReserveIngress host retained bytes
  | .releaseIngress bytes, _, after => after = releaseIngress retained bytes
  | _, _, after => after = retained

inductive Label
  | accept (turns : List Turn)
  | serve (index : Nat)

inductive Step (host : PipeHost) : Ledger → Label → Ledger → Prop
  | accept {ledger : Ledger} {turns : List Turn} :
      Step host ledger (.accept turns)
        { ledger with
          connections := ledger.connections ++ [⟨connectionLoop host turns, Account.fresh⟩] }
  | serve {ledger : Ledger} {index after : Nat} {q : PipeQuery}
      {next : PipeAnswer q → Program Outcome} {account : Account} {r : PipeAnswer q} :
      ledger.connections[index]? = some ⟨.ask q next, account⟩ →
      Answers host ledger.retained q r after →
      Step host ledger (.serve index)
        ⟨after, ledger.connections.set index ⟨next r, account.after q r⟩⟩

/-- Any number of connections, with any turns, served in any order. -/
def ingress (host : PipeHost) : Transition.System Ledger Label where
  start ledger := ledger = ⟨0, []⟩
  step := Step host

def Ledger.reserved (ledger : Ledger) : Nat :=
  (ledger.connections.map (fun served => served.account.reserved)).sum

def Served.Ended (served : Served) : Prop := ∃ error, served.program = .done (.ended error)

structure Sound (host : PipeHost) (ledger : Ledger) : Prop where
  total : ledger.retained = ledger.reserved
  within : ledger.retained ≤ host.limits.maxTotalIngressRetainedBytes
  obeys : ∀ served ∈ ledger.connections,
    served.program.Obeys Account.may Account.after Settled served.account

theorem sum_set {connections : List Served} {index : Nat} {served : Served} (next : Served)
    (there : connections[index]? = some served) :
    ((connections.set index next).map (fun served => served.account.reserved)).sum +
        served.account.reserved =
      (connections.map (fun served => served.account.reserved)).sum + next.account.reserved := by
  induction connections generalizing index with
  | nil => cases there
  | cons first others ih =>
    cases index with
    | zero =>
      cases Option.some.inj there
      simp only [List.set_cons_zero, List.map_cons, List.sum_cons]
      omega
    | succ index =>
      simp only [List.set_cons_succ, List.map_cons, List.sum_cons]
      have others := @ih index (by simpa using there)
      omega

/-- A reservation that is granted, or given up, moves the account and the total alike. -/
theorem answers_balance {host : PipeHost} {retained after : Nat} {account : Account}
    {q : PipeQuery} {r : PipeAnswer q} (may : account.may q)
    (covered : account.reserved ≤ retained)
    (within : retained ≤ host.limits.maxTotalIngressRetainedBytes)
    (answers : Answers host retained q r after) :
    after + account.reserved = retained + (account.after q r).reserved ∧
      after ≤ host.limits.maxTotalIngressRetainedBytes := by
  cases q with
  | reserveIngress bytes =>
    have free : account.reserved = 0 := may.2
    have answer : (r, after) = tryReserveIngress host retained bytes := answers
    unfold tryReserveIngress at answer
    by_cases short : host.limits.maxTotalIngressRetainedBytes - retained < bytes
    · rw [if_pos short] at answer
      cases answer
      exact ⟨rfl, within⟩
    · rw [if_neg short] at answer
      cases answer
      refine ⟨?_, by omega⟩
      show retained + bytes + account.reserved = retained + bytes
      omega
  | releaseIngress bytes =>
    have held : bytes = account.reserved := may.2
    have answer : after = retained - min bytes retained := answers
    refine ⟨?_, by omega⟩
    show after + account.reserved = retained + 0
    omega
  | retain | create | onOpen | onFrame | onClose | transportPoisoned | write | closeStream =>
    cases answers
    exact ⟨rfl, within⟩

theorem reserved_le_sum {connections : List Served} {index : Nat} {served : Served}
    (there : connections[index]? = some served) :
    served.account.reserved ≤
      (connections.map (fun served => served.account.reserved)).sum := by
  have sum := sum_set ⟨served.program, Account.fresh⟩ there
  have none : (⟨served.program, Account.fresh⟩ : Served).account.reserved = 0 := rfl
  omega

theorem step_sound {host : PipeHost} {ledger next : Ledger} {label : Label}
    (sound : Sound host ledger) (step : Step host ledger label next) : Sound host next := by
  cases step with
  | @accept turns =>
    refine ⟨?_, sound.within, ?_⟩
    · rw [sound.total]
      simp only [Ledger.reserved, List.map_append, List.map_cons, List.map_nil, List.sum_append,
        List.sum_cons, List.sum_nil]
      rfl
    · intro served member
      obtain old | new := List.mem_append.mp member
      · exact sound.obeys served old
      · cases List.mem_singleton.mp new
        exact (connectionLoop_serves host turns).obeys (fun _ _ _ held => held.1)
  | @serve index after q rest account r there answers =>
    have obeys := sound.obeys _ (List.mem_of_getElem? there)
    have covered : account.reserved ≤ ledger.retained := by
      rw [sound.total]
      exact reserved_le_sum there
    have may : account.may q := obeys.1
    obtain ⟨balance, below⟩ := answers_balance may covered sound.within answers
    refine ⟨?_, below, ?_⟩
    · have sum := sum_set ⟨rest r, account.after q r⟩ there
      have total := sound.total
      show after = Ledger.reserved ⟨after, _⟩
      simp only [Ledger.reserved] at total sum ⊢
      omega
    · intro served member
      obtain old | new := List.mem_or_eq_of_mem_set member
      · exact sound.obeys served old
      · rw [new]
        exact obeys.2 r

theorem run_sound {host : PipeHost} {es : List (Transition.Event Ledger Label)}
    {ledger : Ledger} (run : Transition.Run (ingress host) es ledger) : Sound host ledger := by
  refine run.invariant (Sound host) ?_ (fun _ _ _ sound step => step_sound sound step)
  rintro _ rfl
  exact ⟨rfl, Nat.zero_le _, nofun⟩

/-- What holds of the connections and their budget at every moment. -/
structure Accounted (host : PipeHost) (ledger : Ledger) : Prop where
  total : ledger.retained = ledger.reserved
  within : ledger.retained ≤ host.limits.maxTotalIngressRetainedBytes
  /-- Payload that is about to be taken is part of a frame whose whole length is reserved. -/
  covered : ∀ served ∈ ledger.connections, ∀ declared count next,
    served.program = .ask (.retain declared count) next →
      served.account.reserved = declared ∧ served.account.kept + count ≤ declared
  /-- A handler is closed after its creation, and not a second time. -/
  once : ∀ served ∈ ledger.connections, ∀ next, served.program = .ask .onClose next →
    served.account.created = true ∧ served.account.closed = false
  ended : ∀ served ∈ ledger.connections, served.Ended →
    served.account.reserved = 0 ∧ served.account.closed = served.account.created
  returned : (∀ served ∈ ledger.connections, served.Ended) → ledger.retained = 0

theorem Sound.accounted {host : PipeHost} {ledger : Ledger} (sound : Sound host ledger) :
    Accounted host ledger where
  total := sound.total
  within := sound.within
  covered := by
    intro served member declared count next asks
    have obeys := sound.obeys served member
    rw [asks] at obeys
    exact obeys.1
  once := by
    intro served member next asks
    have obeys := sound.obeys served member
    rw [asks] at obeys
    exact obeys.1
  ended := by
    rintro served member ⟨error, failed⟩
    have obeys := sound.obeys served member
    rw [failed] at obeys
    exact obeys error rfl
  returned := by
    intro all
    rw [sound.total, Ledger.reserved, List.sum_eq_zero]
    intro bytes member
    obtain ⟨served, there, rfl⟩ := List.mem_map.mp member
    obtain ⟨error, failed⟩ := all served there
    have obeys := sound.obeys served there
    rw [failed] at obeys
    exact (obeys error rfl).1

/-! Any cut of a stream gives that stream. -/

/-- The reads of a stream that is cut into these pieces, and then at its end. -/
def reads (pieces : List Bytes) : List Turn :=
  pieces.map (fun piece => ⟨false, .bytes piece, false⟩) ++ [⟨false, .eof, false⟩]

theorem received_reads (limits : PipeHostLimits) (stream : Bytes) (pieces : List Bytes)
    (fit : ∀ piece ∈ pieces, piece ≠ [] ∧ piece.length ≤ limits.maxReadChunkBytes) :
    received limits stream (reads pieces) = (stream ++ pieces.flatten, some .eof) := by
  induction pieces generalizing stream with
  | nil =>
    rw [List.flatten_nil, List.append_nil]
    show received limits stream [⟨false, .eof, false⟩] = _
    simp [received]
  | cons piece pieces ih =>
    have first := fit piece List.mem_cons_self
    have fine : ¬ (piece = [] ∨ limits.maxReadChunkBytes < piece.length) := by
      rintro (none | long)
      · exact first.1 none
      · omega
    have others := ih (stream ++ piece)
      (fun other member => fit other (List.mem_cons_of_mem piece member))
    show received limits stream (⟨false, .bytes piece, false⟩ :: reads pieces) = _
    simp only [received, Bool.and_false, Bool.false_eq_true, if_false, if_neg fine]
    rw [others, List.flatten_cons, List.append_assoc]

/-- However its stream is cut and however it ends, a connection comes to what the rules make of
the whole stream; and over all connections the retained bytes are accounted for. -/
theorem connections_follow_rule (host : PipeHost) :
    (∀ turns, (connectionLoop host turns).hush remark = ruledConnection host turns) ∧
    (∀ pieces : List Bytes,
      (∀ piece ∈ pieces, piece ≠ [] ∧ piece.length ≤ host.limits.maxReadChunkBytes) →
      (connectionLoop host (reads pieces)).hush remark =
        ruling host pieces.flatten >>= fun standing => conclude standing (some .eof)) ∧
    ∀ es ledger, Transition.Run (ingress host) es ledger → Accounted host ledger := by
  have follows : ∀ turns, (connectionLoop host turns).hush remark = ruledConnection host turns :=
    fun turns => (connectionLoop_serves host turns).hush_eq (fun _ _ _ held => held.2)
  refine ⟨follows, fun pieces fit => ?_, fun es ledger run => (run_sound run).accounted⟩
  rw [follows, ruledConnection, received_reads host.limits [] pieces fit]
  rfl

/-! The opening frame is judged by its header, before a decoder would have it. -/

/-- The rules applied to whole frames only. -/
def decodedConnection (host : PipeHost) (turns : List Turn) : Program Outcome :=
  let stream := received host.limits [] turns
  let decoded := Decoder.fresh.feed stream.1
  ruleFrames host false decoded.2 decoded.1 >>= fun standing => conclude standing stream.2

def sampleHost : PipeHost where
  limits := ⟨4096, 128, 65536, 75497472, 134217728, 134217728, 16, 256⟩
  valid := by decide

/-- The header of a frame of bytes that never comes. -/
def lonelyHeader : List Turn := reads [[0x42, 0x50, 0x49, 0x50, 1, 2, 5, 0, 0, 0]]

def calm : List (Event PipeQuery PipeAnswer) → (q : PipeQuery) → PipeAnswer q
  | _, .reserveIngress _ => true
  | _, .releaseIngress _ => ()
  | _, .retain _ _ => ()
  | _, .create _ => true
  | _, .onOpen => .returned .continueConnection none
  | _, .onFrame _ => .returned .continueConnection none
  | _, .onClose => ()
  | _, .transportPoisoned => false
  | _, .write _ => none
  | _, .closeStream => ()

theorem header_judged_early : (connectionLoop sampleHost lonelyHeader).hush remark ≠
    decodedConnection sampleHost lonelyHeader := by
  intro same
  have runs := congrArg (fun program => (run calm [] program).2.toOption) same
  revert runs
  decide +kernel

end Baas.Pipe
