import Mathlib.Logic.Function.Basic
import Baas.Lib.Interaction
import Baas.Lib.Transition

/-! Calls that run side by side over one shared state and lock mutexes, and how to reason
about them one call at a time: what a call may do, and what it knows of the shared state, by
the mutexes that it holds and the answers that it got. -/
namespace Threads

open Transition (System Event Run)

/-- What a call does next: it locks or unlocks a mutex, or asks a question. -/
inductive Act (M Q : Type)
  | lock (m : M)
  | unlock (m : M)
  | ask (q : Q)
deriving DecidableEq

abbrev Act.Answer {M Q : Type} (R : Q → Type) : Act M Q → Type
  | lock _ => Unit
  | unlock _ => Unit
  | ask q => R q

abbrev Thread (M Q : Type) (R : Q → Type) (ε α : Type) :=
  Interaction (Act M Q) (Act.Answer R) ε α

section Programs

variable {M Q : Type} {R : Q → Type} {ε α : Type}

def asking (q : Q) : Thread M Q R ε (R q) := Interaction.query (Act.ask q)

def lock (m : M) : Thread M Q R ε Unit := Interaction.query (Act.lock m)

def unlock (m : M) : Thread M Q R ε Unit := Interaction.query (Act.unlock m)

/-- Holds a mutex for the time of the body, however that ends. -/
def locking (m : M) (body : Thread M Q R ε α) : Thread M Q R ε α :=
  lock m >>= fun _ => body.ensuring (unlock m)

end Programs

/-- What the calls run on: the shared state, the program of a request, the answer to a question
under an input of the environment, and what the question does to the shared state. A request
may depend on what earlier calls have returned. -/
structure Machine (M Q : Type) (R : Q → Type) (ε α ρ σ ι : Type) where
  start : σ
  offered : List (Except ε α) → ρ → Bool
  program : ρ → Thread M Q R ε α
  reply : σ → ι → (q : Q) → R q
  effect : σ → (q : Q) → R q → σ

structure Call (M Q : Type) (R : Q → Type) (ε α ρ : Type) where
  request : ρ
  rest : Thread M Q R ε α
  returned : Bool

def Call.result {M Q : Type} {R : Q → Type} {ε α ρ : Type} (call : Call M Q R ε α ρ) :
    Option (Except ε α) :=
  if call.returned then call.rest.ended else none

/-- Calls are named by the order in which they began. -/
structure State (M Q : Type) (R : Q → Type) (ε α ρ σ : Type) where
  shared : σ
  holder : M → Option Nat
  calls : List (Call M Q R ε α ρ)

inductive Label (M Q : Type) (R : Q → Type) (ε α ρ : Type)
  | began (id : Nat) (request : ρ)
  | acted (id : Nat) (act : Act M Q) (answer : act.Answer R)
  | returned (id : Nat) (result : Except ε α)

inductive Choice (ρ ι : Type)
  | begin (request : ρ)
  | act (id : Nat) (input : ι)
  | return (id : Nat)

section System

variable {M Q : Type} {R : Q → Type} {ε α ρ σ ι : Type} [DecidableEq M]

def State.results (w : State M Q R ε α ρ σ) : List (Except ε α) := w.calls.filterMap Call.result

/-- The call goes on. -/
def State.resume (w : State M Q R ε α ρ σ) (id : Nat) (request : ρ) (rest : Thread M Q R ε α) :
    State M Q R ε α ρ σ :=
  { w with calls := w.calls.set id ⟨request, rest, false⟩ }

variable (machine : Machine M Q R ε α ρ σ ι)

/-- One call begins, goes on by one act, or returns. A mutex is locked only when it is free. -/
def State.advance (w : State M Q R ε α ρ σ) :
    Choice ρ ι → Option (Label M Q R ε α ρ × State M Q R ε α ρ σ)
  | .begin request =>
    if machine.offered w.results request then
      some (.began w.calls.length request,
        { w with calls := w.calls ++ [⟨request, machine.program request, false⟩] })
    else none
  | .act id input =>
    match w.calls[id]? with
    | some ⟨request, .ask (.lock m) next, false⟩ =>
      if w.holder m = none then
        some (.acted id (.lock m) (),
          { w with holder := Function.update w.holder m (some id) }.resume id request (next ()))
      else none
    | some ⟨request, .ask (.unlock m) next, false⟩ =>
      some (.acted id (.unlock m) (),
        { w with holder := Function.update w.holder m none }.resume id request (next ()))
    | some ⟨request, .ask (.ask q) next, false⟩ =>
      let r := machine.reply w.shared input q
      some (.acted id (.ask q) r,
        { w with shared := machine.effect w.shared q r }.resume id request (next r))
    | _ => none
  | .return id =>
    match w.calls[id]? with
    | some ⟨request, rest, false⟩ =>
      rest.ended.map (fun result =>
        (.returned id result, { w with calls := w.calls.set id ⟨request, rest, true⟩ }))
    | _ => none

def Machine.initial : State M Q R ε α ρ σ := ⟨machine.start, fun _ => none, []⟩

def Machine.system : System (State M Q R ε α ρ σ) (Label M Q R ε α ρ) where
  start w := w = machine.initial
  step w l t := ∃ choice, w.advance machine choice = some (l, t)

/-- Plays choices one after the other, as long as each can be made. -/
def State.play : State M Q R ε α ρ σ → List (Choice ρ ι) →
    Option (List (Event (State M Q R ε α ρ σ) (Label M Q R ε α ρ)) × State M Q R ε α ρ σ)
  | w, [] => some ([], w)
  | w, choice :: rest =>
    match w.advance machine choice with
    | none => none
    | some (l, t) => (State.play t rest).map (fun (es, u) => (⟨w, l, t⟩ :: es, u))

/-- What a step can be. -/
inductive Move (machine : Machine M Q R ε α ρ σ ι) (w : State M Q R ε α ρ σ) :
    Label M Q R ε α ρ → State M Q R ε α ρ σ → Prop
  | began {request : ρ} : machine.offered w.results request = true →
      Move machine w (.began w.calls.length request)
        { w with calls := w.calls ++ [⟨request, machine.program request, false⟩] }
  | lock {id : Nat} {request : ρ} {m : M} {next : Unit → Thread M Q R ε α} :
      w.calls[id]? = some ⟨request, .ask (.lock m) next, false⟩ → w.holder m = none →
      Move machine w (.acted id (.lock m) ())
        ({ w with holder := Function.update w.holder m (some id) }.resume id request (next ()))
  | unlock {id : Nat} {request : ρ} {m : M} {next : Unit → Thread M Q R ε α} :
      w.calls[id]? = some ⟨request, .ask (.unlock m) next, false⟩ →
      Move machine w (.acted id (.unlock m) ())
        ({ w with holder := Function.update w.holder m none }.resume id request (next ()))
  | ask {id : Nat} {request : ρ} {q : Q} {next : R q → Thread M Q R ε α} (input : ι) :
      w.calls[id]? = some ⟨request, .ask (.ask q) next, false⟩ →
      Move machine w (.acted id (.ask q) (machine.reply w.shared input q))
        ({ w with shared := machine.effect w.shared q (machine.reply w.shared input q) }.resume
          id request (next (machine.reply w.shared input q)))
  | returned {id : Nat} {request : ρ} {rest : Thread M Q R ε α} {result : Except ε α} :
      w.calls[id]? = some ⟨request, rest, false⟩ → rest.ended = some result →
      Move machine w (.returned id result)
        { w with calls := w.calls.set id ⟨request, rest, true⟩ }

variable {machine}

theorem advance_move {w t : State M Q R ε α ρ σ} {l : Label M Q R ε α ρ} {choice : Choice ρ ι}
    (advanced : w.advance machine choice = some (l, t)) : Move machine w l t := by
  cases choice with
  | begin request =>
    simp only [State.advance] at advanced
    split at advanced
    · cases Option.some.inj advanced
      exact .began ‹_›
    · cases advanced
  | act id input =>
    simp only [State.advance] at advanced
    split at advanced
    · rename_i there
      split at advanced
      · cases Option.some.inj advanced
        exact .lock there ‹_›
      · cases advanced
    · rename_i there
      cases Option.some.inj advanced
      exact .unlock there
    · rename_i there
      cases Option.some.inj advanced
      exact .ask input there
    · cases advanced
  | «return» id =>
    simp only [State.advance] at advanced
    split at advanced
    · rename_i there
      simp only [Option.map_eq_some_iff, Prod.mk.injEq] at advanced
      obtain ⟨result, ended, rfl, rfl⟩ := advanced
      exact .returned there ended
    · cases advanced

theorem step_move {w t : State M Q R ε α ρ σ} {l : Label M Q R ε α ρ}
    (step : machine.system.step w l t) : Move machine w l t := by
  obtain ⟨choice, advanced⟩ := step
  exact advance_move advanced

/-- Choices that can be played make a run. -/
theorem run_play {choices : List (Choice ρ ι)} {es new} {w t : State M Q R ε α ρ σ}
    (run : Run machine.system es w) (played : w.play machine choices = some (new, t)) :
    Run machine.system (es ++ new) t := by
  induction choices generalizing es new w with
  | nil =>
    cases Option.some.inj played
    simpa using run
  | cons choice rest ih =>
    simp only [State.play] at played
    split at played
    · cases played
    · rename_i l u advanced
      simp only [Option.map_eq_some_iff, Prod.mk.injEq] at played
      obtain ⟨⟨later, v⟩, further, rfl, rfl⟩ := played
      simpa using ih (run.step ⟨choice, advanced⟩) further

end System

/-! The discipline of a call: what it may do next and what its view of the shared state is, by
what it has done so far. -/

structure Discipline (M Q : Type) (R : Q → Type) (ε α ρ σ V : Type) where
  opening : ρ → V
  may : ρ → List M → V → Q → Prop
  after : V → (q : Q) → R q → V
  locked : V → M → V
  unlocked : V → M → V
  settled : ρ → List M → V → Except ε α → Prop
  whole : σ → Prop
  knows : σ → ρ → List M → V → Prop

structure Account (M V : Type) where
  held : List M
  view : V

namespace Discipline

variable {M Q : Type} {R : Q → Type} {ε α ρ σ ι V : Type} [DecidableEq M]
variable (d : Discipline M Q R ε α ρ σ V)

def allows (request : ρ) (account : Account M V) : Act M Q → Prop
  | .lock _ => True
  | .unlock m => m ∈ account.held
  | .ask q => d.may request account.held account.view q

def follow (account : Account M V) : (act : Act M Q) → act.Answer R → Account M V
  | .lock m, _ => ⟨m :: account.held, d.locked account.view m⟩
  | .unlock m, _ => ⟨account.held.erase m, d.unlocked account.view m⟩
  | .ask q, r => ⟨account.held, d.after account.view q r⟩

/-- A part of a call that starts with this account keeps to the discipline, and ends well. -/
def Guides {β : Type} (request : ρ) (account : Account M V) (part : Thread M Q R ε β)
    (settled : Account M V → Except ε β → Prop) : Prop :=
  part.Follows (d.allows request) d.follow settled account

def keptBy (request : ρ) (account : Account M V) (rest : Thread M Q R ε α) : Prop :=
  d.Guides request account rest
    (fun account result => d.settled request account.held account.view result)

def track (accounts : List (Account M V)) :
    Label M Q R ε α ρ → List (Account M V)
  | .began _ request => accounts ++ [⟨[], d.opening request⟩]
  | .acted id act answer => accounts.modify id (fun account => d.follow account act answer)
  | .returned _ _ => accounts

/-- The accounts of the calls after some events, in the order in which the calls began. -/
def accounts (es : List (Event (State M Q R ε α ρ σ) (Label M Q R ε α ρ))) :
    List (Account M V) :=
  es.foldl (fun accounts e => d.track accounts e.label) []

theorem accounts_step (es : List (Event (State M Q R ε α ρ σ) (Label M Q R ε α ρ)))
    (e : Event (State M Q R ε α ρ σ) (Label M Q R ε α ρ)) :
    d.accounts (es ++ [e]) = d.track (d.accounts es) e.label := by
  simp only [accounts, List.foldl_append, List.foldl_cons, List.foldl_nil]

section Parts

variable {d} {β γ : Type} {request : ρ} {account : Account M V}

theorem guides_pure {settled : Account M V → Except ε β → Prop} {b : β}
    (right : settled account (.ok b)) : d.Guides request account (pure b) settled := right

theorem guides_stop {settled : Account M V → Except ε β → Prop} {e : ε}
    (right : settled account (.error e)) : d.Guides request account (.stop e) settled := right

theorem guides_asking {q : Q} {f : R q → Thread M Q R ε β}
    {settled : Account M V → Except ε β → Prop}
    (right : d.may request account.held account.view q)
    (rest : ∀ r, d.Guides request ⟨account.held, d.after account.view q r⟩ (f r) settled) :
    d.Guides request account (asking q >>= f) settled :=
  Interaction.follows_query right rest

theorem Guides.seq {part : Thread M Q R ε β} {f : β → Thread M Q R ε γ}
    {mid : Account M V → Except ε β → Prop} {settled : Account M V → Except ε γ → Prop}
    (first : d.Guides request account part mid)
    (second : ∀ later b, mid later (.ok b) → d.Guides request later (f b) settled)
    (thrown : ∀ later e, mid later (.error e) → settled later (.error e)) :
    d.Guides request account (part >>= f) settled :=
  Interaction.Follows.seq first second thrown

theorem Guides.weaken {part : Thread M Q R ε β} {mid settled : Account M V → Except ε β → Prop}
    (guides : d.Guides request account part mid)
    (weaker : ∀ later result, mid later result → settled later result) :
    d.Guides request account part settled :=
  Interaction.Follows.weaken guides weaker

/-- A body under a mutex lets that one go at the end. -/
theorem guides_locking {m : M} {body : Thread M Q R ε β}
    {settled : Account M V → Except ε β → Prop}
    (guides : d.Guides request ⟨m :: account.held, d.locked account.view m⟩ body
      (fun later result => m ∈ later.held ∧
        settled ⟨later.held.erase m, d.unlocked later.view m⟩ result)) :
    d.Guides request account (locking m body) settled := by
  refine ⟨trivial, fun _ => ?_⟩
  exact Interaction.Follows.ensuring guides (fun later result ended => ⟨ended.1, fun _ =>
    ⟨rfl, ended.2⟩⟩)

end Parts

/-- What has to be shown of a discipline. A call that asks keeps what it knows itself, and what
any other call knows by mutexes of its own. -/
structure Lawful (machine : Machine M Q R ε α ρ σ ι) : Prop where
  start : d.whole machine.start
  opens : ∀ shared results request, d.whole shared → machine.offered results request = true →
    (∀ result ∈ results, ∃ request held view, d.knows shared request held view ∧
      d.settled request held view result) → d.knows shared request [] (d.opening request)
  follows : ∀ request, d.keptBy request ⟨[], d.opening request⟩ (machine.program request)
  locks : ∀ shared request held view m, d.knows shared request held view →
    d.knows shared request (m :: held) (d.locked view m)
  unlocks : ∀ shared request held view m, d.knows shared request held view → m ∈ held →
    d.knows shared request (held.erase m) (d.unlocked view m)
  keeps : ∀ shared input request held view q, d.whole shared →
    d.knows shared request held view → d.may request held view q →
    d.whole (machine.effect shared q (machine.reply shared input q)) ∧
      d.knows (machine.effect shared q (machine.reply shared input q)) request held
        (d.after view q (machine.reply shared input q))
  spares : ∀ shared input request held view q request' held' view', d.whole shared →
    d.knows shared request held view → d.may request held view q →
    d.knows shared request' held' view' → (∀ m ∈ held, m ∉ held') →
    d.knows (machine.effect shared q (machine.reply shared input q)) request' held' view'

/-- How the calls stand to their accounts. -/
structure Sound (machine : Machine M Q R ε α ρ σ ι)
    (es : List (Event (State M Q R ε α ρ σ) (Label M Q R ε α ρ)))
    (w : State M Q R ε α ρ σ) : Prop where
  whole : d.whole w.shared
  length : (d.accounts es).length = w.calls.length
  kept : ∀ (id : Nat) (call : Call M Q R ε α ρ) (account : Account M V),
    w.calls[id]? = some call → (d.accounts es)[id]? = some account →
    d.keptBy call.request account call.rest ∧
      d.knows w.shared call.request account.held account.view
  holder : ∀ m id, w.holder m = some id ↔
    ∃ account : Account M V, (d.accounts es)[id]? = some account ∧ m ∈ account.held
  nodup : ∀ (id : Nat) (account : Account M V), (d.accounts es)[id]? = some account →
    account.held.Nodup

variable {d} {machine : Machine M Q R ε α ρ σ ι}
  {es : List (Event (State M Q R ε α ρ σ) (Label M Q R ε α ρ))} {w : State M Q R ε α ρ σ}

theorem Sound.account (sound : d.Sound machine es w) {id : Nat} {call : Call M Q R ε α ρ}
    (there : w.calls[id]? = some call) :
    ∃ account, (d.accounts es)[id]? = some account := by
  obtain ⟨short, -⟩ := List.getElem?_eq_some_iff.mp there
  rw [← sound.length] at short
  exact ⟨_, List.getElem?_eq_getElem short⟩

theorem Sound.call (sound : d.Sound machine es w) {id : Nat} {account : Account M V}
    (there : (d.accounts es)[id]? = some account) : ∃ call, w.calls[id]? = some call := by
  obtain ⟨short, -⟩ := List.getElem?_eq_some_iff.mp there
  rw [sound.length] at short
  exact ⟨_, List.getElem?_eq_getElem short⟩

/-- Two calls never hold the same mutex. -/
theorem Sound.apart (sound : d.Sound machine es w) {id other : Nat} {mine its : Account M V}
    (here : (d.accounts es)[id]? = some mine) (there : (d.accounts es)[other]? = some its)
    (different : other ≠ id) : ∀ m ∈ mine.held, m ∉ its.held := by
  intro m ours theirs
  have one := (sound.holder m id).mpr ⟨mine, here, ours⟩
  have two := (sound.holder m other).mpr ⟨its, there, theirs⟩
  rw [one] at two
  exact different (Option.some.inj two).symm

/-- One act of a call, by what it makes of the shared state and of the mutexes. -/
theorem Sound.acted (sound : d.Sound machine es w) {id : Nat} {request : ρ} {act : Act M Q}
    {next : act.Answer R → Thread M Q R ε α} {answer : act.Answer R} {account : Account M V}
    {shared : σ} {holder : M → Option Nat}
    (there : w.calls[id]? = some ⟨request, .ask act next, false⟩)
    (here : (d.accounts es)[id]? = some account) (whole : d.whole shared)
    (knows : d.knows shared request (d.follow account act answer).held
      (d.follow account act answer).view)
    (others : ∀ other call its, other ≠ id → w.calls[other]? = some call →
      (d.accounts es)[other]? = some its → d.knows shared call.request its.held its.view)
    (holds : ∀ m other, holder m = some other ↔
      if other = id then m ∈ (d.follow account act answer).held else w.holder m = some other)
    (nodup : (d.follow account act answer).held.Nodup) {l : Label M Q R ε α ρ}
    (label : l = .acted id act answer) :
    d.Sound machine (es ++ [⟨w, l,
        ⟨shared, holder, w.calls.set id ⟨request, next answer, false⟩⟩⟩])
      ⟨shared, holder, w.calls.set id ⟨request, next answer, false⟩⟩ := by
  subst label
  have mine : (d.accounts (es ++ [⟨w, .acted id act answer,
        ⟨shared, holder, w.calls.set id ⟨request, next answer, false⟩⟩⟩])) =
      (d.accounts es).modify id (fun account => d.follow account act answer) :=
    d.accounts_step es _
  have at_ (other : Nat) : ((d.accounts es).modify id
      (fun account => d.follow account act answer))[other]? =
      if other = id then some (d.follow account act answer) else (d.accounts es)[other]? := by
    rw [List.getElem?_modify]
    by_cases same : other = id
    · subst same
      simp only [here, if_pos, Option.map_eq_map, Option.map_some]
    · simp only [if_neg same, if_neg (Ne.symm same), Option.map_eq_map, Option.map_id']
  refine ⟨whole, ?_, ?_, ?_, ?_⟩
  · rw [mine, List.length_modify, List.length_set]
    exact sound.length
  · intro other call its called counted
    rw [mine, at_] at counted
    by_cases same : other = id
    · subst same
      rw [if_pos rfl] at counted
      cases Option.some.inj counted
      rw [List.getElem?_set_self (List.getElem?_eq_some_iff.mp there).1] at called
      cases Option.some.inj called
      exact ⟨(sound.kept _ _ _ there here).1.2 answer, knows⟩
    · rw [if_neg same] at counted
      rw [List.getElem?_set_ne (Ne.symm same)] at called
      exact ⟨(sound.kept _ _ _ called counted).1, others _ _ _ same called counted⟩
  · intro m other
    rw [holds, mine]
    simp only [at_]
    by_cases same : other = id
    · subst same
      simp only [if_pos, Option.some.injEq, exists_eq_left']
    · simp only [if_neg same]
      exact sound.holder m other
  · intro other its counted
    rw [mine, at_] at counted
    by_cases same : other = id
    · subst same
      rw [if_pos rfl] at counted
      cases Option.some.inj counted
      exact nodup
    · rw [if_neg same] at counted
      exact sound.nodup _ _ counted

/-- The results that earlier calls returned were settled, by views that still hold. -/
theorem Sound.settled (sound : d.Sound machine es w) :
    ∀ result ∈ w.results, ∃ request held view, d.knows w.shared request held view ∧
      d.settled request held view result := by
  intro result member
  obtain ⟨call, called, ended⟩ := List.mem_filterMap.mp member
  obtain ⟨id, there⟩ := List.mem_iff_getElem?.mp called
  obtain ⟨account, here⟩ := sound.account there
  obtain ⟨kept, knows⟩ := sound.kept _ _ _ there here
  refine ⟨call.request, account.held, account.view, knows, ?_⟩
  obtain ⟨request, rest, returned⟩ := call
  simp only [Call.result] at ended
  split at ended
  · cases rest with
    | done a =>
      cases Option.some.inj ended
      exact kept
    | stop e =>
      cases Option.some.inj ended
      exact kept
    | ask act next => cases ended
  · cases ended

theorem Sound.step (lawful : d.Lawful machine) (sound : d.Sound machine es w)
    {l : Label M Q R ε α ρ} {t : State M Q R ε α ρ σ} (move : Move machine w l t) :
    d.Sound machine (es ++ [⟨w, l, t⟩]) t := by
  cases move with
  | @began request offered =>
    have opened : d.knows w.shared request [] (d.opening request) :=
      lawful.opens _ _ _ sound.whole offered sound.settled
    have added : d.accounts (es ++ [⟨w, .began w.calls.length request,
        { w with calls := w.calls ++ [⟨request, machine.program request, false⟩] }⟩]) =
        d.accounts es ++ [⟨[], d.opening request⟩] := d.accounts_step es _
    refine ⟨sound.whole, ?_, ?_, ?_, ?_⟩
    · rw [added, List.length_append, List.length_append, sound.length]
      rfl
    · intro id call account called counted
      rw [added] at counted
      rcases Nat.lt_trichotomy id w.calls.length with before | same | beyond
      · rw [List.getElem?_append_left (by rw [sound.length]; exact before)] at counted
        rw [List.getElem?_append_left before] at called
        exact sound.kept _ _ _ called counted
      · subst same
        rw [List.getElem?_concat_length] at called
        rw [← sound.length, List.getElem?_concat_length] at counted
        cases Option.some.inj called
        cases Option.some.inj counted
        exact ⟨lawful.follows request, opened⟩
      · rw [List.getElem?_eq_none (by simp; omega)] at called
        cases called
    · intro m id
      rw [added, sound.holder]
      constructor
      · rintro ⟨account, counted, held⟩
        exact ⟨account, by
          rw [List.getElem?_append_left (List.getElem?_eq_some_iff.mp counted).1]
          exact counted, held⟩
      · rintro ⟨account, counted, held⟩
        rcases Nat.lt_trichotomy id w.calls.length with before | same | beyond
        · rw [List.getElem?_append_left (by rw [sound.length]; exact before)] at counted
          exact ⟨account, counted, held⟩
        · subst same
          rw [← sound.length, List.getElem?_concat_length] at counted
          cases Option.some.inj counted
          cases held
        · rw [List.getElem?_eq_none (by simp [sound.length]; omega)] at counted
          cases counted
    · intro id account counted
      rw [added] at counted
      rcases List.mem_append.mp (List.mem_of_getElem? counted) with old | new
      · obtain ⟨old, there⟩ := List.mem_iff_getElem?.mp old
        exact sound.nodup old account there
      · cases List.mem_singleton.mp new
        exact List.nodup_nil
  | @lock id request m next there free =>
    obtain ⟨account, here⟩ := sound.account there
    have fresh : m ∉ account.held := fun held => by
      have taken := (sound.holder m id).mpr ⟨account, here, held⟩
      rw [free] at taken
      cases taken
    refine sound.acted there here sound.whole
      (lawful.locks _ _ _ _ m (sound.kept _ _ _ there here).2)
      (fun other call its _ called counted => (sound.kept _ _ _ called counted).2)
      (fun m' other => ?_) (List.nodup_cons.mpr ⟨fresh, sound.nodup _ _ here⟩) rfl
    by_cases same : other = id
    · subst same
      rw [if_pos rfl]
      by_cases this : m' = m
      · subst this
        simp [follow]
      · have mine := sound.holder m' other
        rw [here] at mine
        simp only [Option.some.injEq, exists_eq_left'] at mine
        simp [follow, mine, this]
    · rw [if_neg same]
      by_cases this : m' = m
      · subst this
        simp [free, Ne.symm same]
      · simp [this]
  | @unlock id request m next there =>
    obtain ⟨account, here⟩ := sound.account there
    obtain ⟨kept, knows⟩ := sound.kept _ _ _ there here
    have held : m ∈ account.held := kept.1
    have nodup := sound.nodup _ _ here
    have taken := (sound.holder m id).mpr ⟨account, here, held⟩
    refine sound.acted there here sound.whole (lawful.unlocks _ _ _ _ m knows held)
      (fun other call its _ called counted => (sound.kept _ _ _ called counted).2)
      (fun m' other => ?_) (nodup.erase m) rfl
    by_cases same : other = id
    · subst same
      rw [if_pos rfl]
      show _ ↔ m' ∈ account.held.erase m
      rw [nodup.mem_erase_iff]
      by_cases this : m' = m
      · subst this
        simp
      · have mine := sound.holder m' other
        rw [here] at mine
        simp only [Option.some.injEq, exists_eq_left'] at mine
        simp [mine, this]
    · rw [if_neg same]
      by_cases this : m' = m
      · subst this
        simp [taken, Ne.symm same]
      · simp [this]
  | @ask id request q next input there =>
    obtain ⟨account, here⟩ := sound.account there
    obtain ⟨kept, knows⟩ := sound.kept _ _ _ there here
    have own := lawful.keeps _ input _ _ _ _ sound.whole knows kept.1
    refine sound.acted there here own.1 own.2 (fun other call its different called counted => ?_)
      (fun m other => ?_) (sound.nodup id account here) rfl
    · exact lawful.spares _ input _ _ _ _ _ _ _ sound.whole knows kept.1
        (sound.kept _ _ _ called counted).2 (sound.apart here counted different)
    · by_cases same : other = id
      · subst same
        have mine := sound.holder m other
        rw [here] at mine
        simp only [Option.some.injEq, exists_eq_left'] at mine
        rw [if_pos rfl]
        exact mine
      · rw [if_neg same]
  | @returned id request rest result there ended =>
    have same : d.accounts (es ++ [⟨w, .returned id result,
        { w with calls := w.calls.set id ⟨request, rest, true⟩ }⟩]) = d.accounts es :=
      d.accounts_step es _
    refine ⟨sound.whole, ?_, ?_, ?_, ?_⟩
    · rw [same, List.length_set]
      exact sound.length
    · intro other call its called counted
      rw [same] at counted
      by_cases this : other = id
      · subst this
        rw [List.getElem?_set_self (List.getElem?_eq_some_iff.mp there).1] at called
        cases Option.some.inj called
        exact sound.kept _ ⟨request, rest, false⟩ _ there counted
      · rw [List.getElem?_set_ne (Ne.symm this)] at called
        exact sound.kept _ _ _ called counted
    · rw [same]
      exact sound.holder
    · rw [same]
      exact sound.nodup

theorem Lawful.sound (lawful : d.Lawful machine) (run : Run machine.system es w) :
    d.Sound machine es w := by
  refine run.history (d.Sound machine) ?_ ?_
  · rintro w rfl
    refine ⟨lawful.start, rfl, ?_, ?_, ?_⟩
    · intro id call account called
      cases called
    · intro m id
      constructor
      · intro taken
        cases taken
      · rintro ⟨account, counted, -⟩
        cases counted
    · intro id account counted
      cases counted
  · intro es w l t _ sound step
    exact sound.step lawful (step_move step)

/-- Whether an event is an act of this call. -/
def By (id : Nat) (e : Event (State M Q R ε α ρ σ) (Label M Q R ε α ρ)) : Prop :=
  ∃ act answer, e.label = .acted id act answer

/-- Every call that has acted has begun. -/
theorem acted_begun (run : Run machine.system es w)
    {e : Event (State M Q R ε α ρ σ) (Label M Q R ε α ρ)} (member : e ∈ es) {id : Nat}
    (acted : By id e) : id < w.calls.length := by
  refine run.history (fun es w => ∀ e ∈ es, ∀ id, By id e → id < w.calls.length) nofun ?_
    e member id acted
  intro es w l t _ early step e member id acted
  have grows : w.calls.length ≤ t.calls.length := by
    cases step_move step with
    | began _ => simp
    | lock _ _ => simp [State.resume]
    | unlock _ => simp [State.resume]
    | ask _ _ => simp [State.resume]
    | returned _ _ => simp
  rcases List.mem_append.mp member with old | new
  · exact Nat.lt_of_lt_of_le (early e old id acted) grows
  · cases List.mem_singleton.mp new
    obtain ⟨act, answer, label⟩ := acted
    refine Nat.lt_of_lt_of_le ?_ grows
    cases step_move step with
    | began _ => cases label
    | lock there _ =>
      cases label
      exact (List.getElem?_eq_some_iff.mp there).1
    | unlock there =>
      cases label
      exact (List.getElem?_eq_some_iff.mp there).1
    | ask _ there =>
      cases label
      exact (List.getElem?_eq_some_iff.mp there).1
    | returned _ _ => cases label

/-- What the past of a call has to do with its account: it is kept by the acts of the call, and
does not read those of the others. -/
theorem Lawful.history (lawful : d.Lawful machine)
    (inv : List (Event (State M Q R ε α ρ σ) (Label M Q R ε α ρ)) → Nat → ρ → Account M V → Prop)
    (opens : ∀ es id request, (∀ e ∈ es, ¬ By id e) → inv es id request ⟨[], d.opening request⟩)
    (others : ∀ es e id request account, ¬ By id e → inv es id request account →
      inv (es ++ [e]) id request account)
    (mutexes : ∀ es w t id request account act answer, (∀ q, act ≠ .ask q) →
      t.shared = w.shared → inv es id request account →
      inv (es ++ [⟨w, .acted id act answer, t⟩]) id request (d.follow account act answer))
    (asks : ∀ es w t id request account q input, d.whole w.shared →
      d.knows w.shared request account.held account.view →
      d.may request account.held account.view q →
      t.shared = machine.effect w.shared q (machine.reply w.shared input q) →
      inv es id request account →
      inv (es ++ [⟨w, .acted id (.ask q) (machine.reply w.shared input q), t⟩]) id request
        (d.follow account (.ask q) (machine.reply w.shared input q)))
    (run : Run machine.system es w) {id : Nat} {call : Call M Q R ε α ρ} {account : Account M V}
    (there : w.calls[id]? = some call) (here : (d.accounts es)[id]? = some account) :
    inv es id call.request account := by
  refine run.history (fun es w => ∀ (id : Nat) (call : Call M Q R ε α ρ) (account : Account M V),
    w.calls[id]? = some call → (d.accounts es)[id]? = some account →
    inv es id call.request account) ?_ ?_ id call account there here
  · rintro w rfl id call account there
    cases there
  intro es w l t run held step id call account there here
  have sound := lawful.sound run
  have resumed {act : Act M Q} {answer : act.Answer R} {other : Nat} {u : State M Q R ε α ρ σ}
      {request : ρ} {next : act.Answer R → Thread M Q R ε α}
      (asked : w.calls[other]? = some ⟨request, .ask act next, false⟩)
      (after : u.calls = w.calls.set other ⟨request, next answer, false⟩)
      (there : u.calls[id]? = some call)
      (here : (d.accounts (es ++ [⟨w, .acted other act answer, u⟩]))[id]? = some account)
      (own : ∀ before, (d.accounts es)[other]? = some before → inv es other request before →
        inv (es ++ [⟨w, .acted other act answer, u⟩]) other request
          (d.follow before act answer)) :
      inv (es ++ [⟨w, .acted other act answer, u⟩]) id call.request account := by
    rw [d.accounts_step] at here
    change (List.modify _ other _)[id]? = _ at here
    rw [List.getElem?_modify] at here
    rw [after] at there
    by_cases same : other = id
    · subst same
      rw [List.getElem?_set_self (List.getElem?_eq_some_iff.mp asked).1] at there
      cases Option.some.inj there
      obtain ⟨before, counted⟩ := sound.account asked
      rw [counted] at here
      simp only [if_pos, Option.map_eq_map, Option.map_some] at here
      cases Option.some.inj here
      exact own before counted (held _ _ _ asked counted)
    · rw [List.getElem?_set_ne same] at there
      simp only [if_neg same, Option.map_eq_map, Option.map_id'] at here
      refine others es _ id _ account ?_ (held _ _ _ there here)
      rintro ⟨act', answer', label⟩
      cases label
      exact same rfl
  cases step_move step with
  | @began request offered =>
    rw [d.accounts_step] at here
    change (d.accounts es ++ [⟨[], d.opening request⟩])[id]? = _ at here
    rcases Nat.lt_trichotomy id w.calls.length with before | same | beyond
    · rw [List.getElem?_append_left (by rw [sound.length]; exact before)] at here
      change (w.calls ++ [_])[id]? = _ at there
      rw [List.getElem?_append_left before] at there
      refine others es _ id _ account ?_ (held _ _ _ there here)
      rintro ⟨act, answer, label⟩
      cases label
    · subst same
      change (w.calls ++ [_])[_]? = _ at there
      rw [List.getElem?_concat_length] at there
      rw [← sound.length, List.getElem?_concat_length] at here
      cases Option.some.inj there
      cases Option.some.inj here
      refine opens _ _ _ (fun e member => ?_)
      rintro ⟨act, answer, label⟩
      rcases List.mem_append.mp member with old | new
      · exact Nat.lt_irrefl _ (acted_begun run old ⟨act, answer, label⟩)
      · cases List.mem_singleton.mp new
        cases label
    · change (w.calls ++ [_])[id]? = _ at there
      rw [List.getElem?_eq_none (by simp; omega)] at there
      cases there
  | lock asked free =>
    exact resumed asked rfl there here (fun before _ => mutexes es _ _ _ _ before _ _
      (fun _ no => by cases no) rfl)
  | unlock asked =>
    exact resumed asked rfl there here (fun before _ => mutexes es _ _ _ _ before _ _
      (fun _ no => by cases no) rfl)
  | ask input asked =>
    refine resumed asked rfl there here (fun before counted inv => ?_)
    obtain ⟨kept, knows⟩ := sound.kept _ _ _ asked counted
    exact asks es w _ _ _ before _ input sound.whole knows kept.1 rfl inv
  | @returned other request rest result asked ended =>
    rw [d.accounts_step] at here
    change (w.calls.set other _)[id]? = _ at there
    have before : ∃ old, w.calls[id]? = some old ∧ old.request = call.request := by
      by_cases same : other = id
      · subst same
        rw [List.getElem?_set_self (List.getElem?_eq_some_iff.mp asked).1] at there
        cases Option.some.inj there
        exact ⟨_, asked, rfl⟩
      · rw [List.getElem?_set_ne same] at there
        exact ⟨call, there, rfl⟩
    obtain ⟨old, there, same⟩ := before
    rw [← same]
    refine others es _ id _ account ?_ (held _ _ _ there here)
    rintro ⟨act, answer, label⟩
    cases label

/-- What is known where a call asks a question. -/
theorem Lawful.asked (lawful : d.Lawful machine)
    {before after : List (Event (State M Q R ε α ρ σ) (Label M Q R ε α ρ))}
    {e : Event (State M Q R ε α ρ σ) (Label M Q R ε α ρ)}
    (run : Run machine.system (before ++ e :: after) w) {id : Nat} {q : Q} {answer : R q}
    (label : e.label = .acted id (.ask q) answer) :
    ∃ call held view input, e.source.calls[id]? = some call ∧
      d.knows e.source.shared call.request held view ∧ d.may call.request held view q ∧
      answer = machine.reply e.source.shared input q ∧
      e.target.shared = machine.effect e.source.shared q answer := by
  obtain ⟨prior, step⟩ := run.upto
  have sound := lawful.sound prior
  obtain ⟨source, l, target⟩ := e
  simp only at label prior step sound ⊢
  subst label
  cases step_move step with
  | ask input there =>
    obtain ⟨account, here⟩ := sound.account there
    obtain ⟨kept, knows⟩ := sound.kept _ _ _ there here
    exact ⟨_, _, _, input, there, knows, kept.1, rfl, rfl⟩

/-- What is known where a call returns. -/
theorem Lawful.ended (lawful : d.Lawful machine)
    {before after : List (Event (State M Q R ε α ρ σ) (Label M Q R ε α ρ))}
    {e : Event (State M Q R ε α ρ σ) (Label M Q R ε α ρ)}
    (run : Run machine.system (before ++ e :: after) w) {id : Nat} {result : Except ε α}
    (label : e.label = .returned id result) :
    ∃ call account, e.source.calls[id]? = some call ∧ (d.accounts before)[id]? = some account ∧
      d.knows e.source.shared call.request account.held account.view ∧
      d.settled call.request account.held account.view result := by
  obtain ⟨prior, step⟩ := run.upto
  have sound := lawful.sound prior
  obtain ⟨source, l, target⟩ := e
  simp only at label prior step sound ⊢
  subst label
  cases step_move step with
  | @returned _ request rest _ there ended =>
    obtain ⟨account, here⟩ := sound.account there
    obtain ⟨kept, knows⟩ := sound.kept _ _ _ there here
    refine ⟨_, account, there, here, knows, ?_⟩
    cases rest with
    | done a =>
      cases Option.some.inj ended
      exact kept
    | stop e =>
      cases Option.some.inj ended
      exact kept
    | ask act next => cases ended

/-- A step leaves the shared state alone or is a question of some call. -/
theorem Lawful.moved (lawful : d.Lawful machine) (run : Run machine.system es w)
    {l : Label M Q R ε α ρ} {t : State M Q R ε α ρ σ} (step : machine.system.step w l t) :
    t.shared = w.shared ∨ ∃ request held view q input, d.knows w.shared request held view ∧
      d.may request held view q ∧
      t.shared = machine.effect w.shared q (machine.reply w.shared input q) := by
  have sound := lawful.sound run
  cases step_move step with
  | ask input there =>
    obtain ⟨account, here⟩ := sound.account there
    obtain ⟨kept, knows⟩ := sound.kept _ _ _ there here
    exact .inr ⟨_, _, _, _, input, knows, kept.1, rfl⟩
  | began _ => exact .inl rfl
  | lock _ _ => exact .inl rfl
  | unlock _ => exact .inl rfl
  | returned _ _ => exact .inl rfl

/-- A preorder of the shared states that every question follows is followed by whole runs. -/
theorem Lawful.later (lawful : d.Lawful machine) {later : σ → σ → Prop}
    (refl : ∀ s, later s s) (trans : ∀ s t u, later s t → later t u → later s u)
    (follows : ∀ shared request held view q input, d.whole shared →
      d.knows shared request held view → d.may request held view q →
      later shared (machine.effect shared q (machine.reply shared input q)))
    (run : Run machine.system es w) {e : Event (State M Q R ε α ρ σ) (Label M Q R ε α ρ)}
    (member : e ∈ es) : later e.source.shared e.target.shared ∧ later e.target.shared w.shared := by
  refine run.history (fun es w => ∀ e ∈ es, later e.source.shared e.target.shared ∧
    later e.target.shared w.shared) nofun ?_ e member
  intro es w l t run held step e member
  have onward : later w.shared t.shared := by
    rcases lawful.moved run step with same | ⟨request, held, view, q, input, knows, may, same⟩
    · rw [same]
      exact refl _
    · rw [same]
      exact follows _ _ _ _ _ _ (lawful.sound run).whole knows may
  rcases List.mem_append.mp member with old | new
  · obtain ⟨first, second⟩ := held e old
    exact ⟨first, trans _ _ _ second onward⟩
  · cases List.mem_singleton.mp new
    exact ⟨onward, refl _⟩

/-- A step keeps the request of every call, and what has returned stays returned. -/
theorem call_step {w t : State M Q R ε α ρ σ} {l : Label M Q R ε α ρ}
    (step : machine.system.step w l t) {id : Nat} {call : Call M Q R ε α ρ}
    (there : w.calls[id]? = some call) :
    ∃ call' : Call M Q R ε α ρ, t.calls[id]? = some call' ∧ call'.request = call.request ∧
      (call.returned = true → call'.returned = true ∧
        ∀ act answer, l ≠ .acted id act answer) := by
  have set {other : Nat} {old new : Call M Q R ε α ρ} (asked : w.calls[other]? = some old)
      (same : new.request = old.request) (going : old.returned = false)
      (label : other ≠ id → ∀ act answer, l ≠ .acted id act answer) :
      ∃ call' : Call M Q R ε α ρ, (w.calls.set other new)[id]? = some call' ∧
        call'.request = call.request ∧ (call.returned = true → call'.returned = true ∧
          ∀ act answer, l ≠ .acted id act answer) := by
    by_cases this : other = id
    · subst this
      rw [asked] at there
      cases Option.some.inj there
      refine ⟨new, List.getElem?_set_self (List.getElem?_eq_some_iff.mp asked).1, same, ?_⟩
      intro returned
      rw [going] at returned
      cases returned
    · refine ⟨call, by rw [List.getElem?_set_ne this]; exact there, rfl, fun returned => ?_⟩
      exact ⟨returned, label this⟩
  cases step_move step with
  | began _ =>
    refine ⟨call, ?_, rfl, fun returned => ⟨returned, nofun⟩⟩
    show (w.calls ++ _)[id]? = _
    rw [List.getElem?_append_left (List.getElem?_eq_some_iff.mp there).1]
    exact there
  | lock asked _ =>
    exact set asked rfl rfl (fun apart act answer label => by cases label; exact apart rfl)
  | unlock asked =>
    exact set asked rfl rfl (fun apart act answer label => by cases label; exact apart rfl)
  | ask _ asked =>
    exact set asked rfl rfl (fun apart act answer label => by cases label; exact apart rfl)
  | returned asked _ => exact set asked rfl rfl (fun _ act answer label => by cases label)

/-- A call keeps its request. -/
theorem request_kept (run : Run machine.system es w)
    {e : Event (State M Q R ε α ρ σ) (Label M Q R ε α ρ)} (member : e ∈ es) {id : Nat}
    {call : Call M Q R ε α ρ} (there : e.source.calls[id]? = some call) :
    ∃ call', w.calls[id]? = some call' ∧ call'.request = call.request := by
  refine run.history (fun es w => ∀ e ∈ es, ∀ id (call : Call M Q R ε α ρ),
    e.source.calls[id]? = some call →
    ∃ call' : Call M Q R ε α ρ, w.calls[id]? = some call' ∧ call'.request = call.request) nofun ?_
    e member id call there
  intro es w l t _ held step e member id call there
  rcases List.mem_append.mp member with old | new
  · obtain ⟨middle, here, same⟩ := held e old id call there
    obtain ⟨call', later, kept, -⟩ := call_step step here
    exact ⟨call', later, kept.trans same⟩
  · cases List.mem_singleton.mp new
    obtain ⟨call', later, kept, -⟩ := call_step step there
    exact ⟨call', later, kept⟩

/-- A call has the request that it began with. -/
theorem began_request (run : Run machine.system es w)
    {e : Event (State M Q R ε α ρ σ) (Label M Q R ε α ρ)} (member : e ∈ es) {id : Nat}
    {request : ρ} (label : e.label = .began id request) :
    ∃ call, w.calls[id]? = some call ∧ call.request = request := by
  refine run.history (fun es w => ∀ e ∈ es, ∀ id request, e.label = .began id request →
    ∃ call : Call M Q R ε α ρ, w.calls[id]? = some call ∧ call.request = request) nofun ?_
    e member id request label
  intro es w l t _ held step e member id request label
  rcases List.mem_append.mp member with old | new
  · obtain ⟨call, there, same⟩ := held e old id request label
    obtain ⟨call', later, kept, -⟩ := call_step step there
    exact ⟨call', later, kept.trans same⟩
  · cases List.mem_singleton.mp new
    cases step_move step with
    | began offered =>
      cases label
      exact ⟨_, List.getElem?_concat_length, rfl⟩
    | lock _ _ => cases label
    | unlock _ => cases label
    | ask _ _ => cases label
    | returned _ _ => cases label

/-- The request of a call that has begun is the same wherever the call is met. -/
theorem request_same {before after : List (Event (State M Q R ε α ρ σ) (Label M Q R ε α ρ))}
    {e b : Event (State M Q R ε α ρ σ) (Label M Q R ε α ρ)}
    (run : Run machine.system (before ++ e :: after) w) (member : b ∈ before ++ e :: after)
    {id : Nat} {request : ρ} (label : b.label = .began id request) {call : Call M Q R ε α ρ}
    (there : e.source.calls[id]? = some call) : call.request = request := by
  obtain ⟨one, here, same⟩ := request_kept run (by simp) there
  obtain ⟨two, found, is⟩ := began_request run member label
  rw [here] at found
  cases Option.some.inj found
  exact same.symm.trans is

/-- A call does not act before it begins. -/
theorem began_fresh {before after : List (Event (State M Q R ε α ρ σ) (Label M Q R ε α ρ))}
    {b : Event (State M Q R ε α ρ σ) (Label M Q R ε α ρ)}
    (run : Run machine.system (before ++ b :: after) w) {id : Nat} {request : ρ}
    (label : b.label = .began id request) : ∀ x ∈ before ++ [b], ¬ By id x := by
  intro x member acted
  obtain ⟨prior, step⟩ := run.upto
  obtain ⟨source, l, target⟩ := b
  simp only at label prior step
  subst label
  rcases List.mem_append.mp member with old | new
  · have early := acted_begun prior old acted
    cases step_move step with
    | began _ => exact Nat.lt_irrefl _ early
  · cases List.mem_singleton.mp new
    obtain ⟨act, answer, same⟩ := acted
    cases same

/-- A call does not act after it has returned. -/
theorem returned_silent {before after : List (Event (State M Q R ε α ρ σ) (Label M Q R ε α ρ))}
    {e : Event (State M Q R ε α ρ σ) (Label M Q R ε α ρ)}
    (run : Run machine.system (before ++ e :: after) w) {id : Nat} {result : Except ε α}
    (label : e.label = .returned id result) : ∀ x ∈ e :: after, ¬ By id x := by
  have first : ∃ call : Call M Q R ε α ρ, e.target.calls[id]? = some call ∧
      call.returned = true := by
    have step := run.upto.2
    obtain ⟨source, l, target⟩ := e
    simp only at label step ⊢
    subst label
    cases step_move step with
    | returned there _ =>
      exact ⟨_, List.getElem?_set_self (List.getElem?_eq_some_iff.mp there).1, rfl⟩
  have rest := run.since (fun _ => True) (fun after w => (∀ x ∈ after, ¬ By id x) ∧
    ∃ call : Call M Q R ε α ρ, w.calls[id]? = some call ∧ call.returned = true) ?_
    ⟨nofun, first⟩ (fun _ _ => trivial)
  · intro x member
    rcases List.mem_cons.mp member with rfl | later
    · rintro ⟨act, answer, acted⟩
      rw [label] at acted
      cases acted
    · exact rest.1 x later
  · rintro es w l t ⟨quiet, call, there, done⟩ step -
    obtain ⟨call', later, -, stays⟩ := call_step step there
    refine ⟨fun x member => ?_, call', later, (stays done).1⟩
    rcases List.mem_append.mp member with old | new
    · exact quiet x old
    · cases List.mem_singleton.mp new
      rintro ⟨act, answer, acted⟩
      exact (stays done).2 act answer acted

end Discipline

end Threads
