import Mathlib.Data.List.Basic
import Mathlib.Logic.Relation

/-! Programs over a durable medium, which a crash may cut between any two writes. -/
namespace Durable

/-- Each write answers whether it succeeded. A read looks at the medium as it is. -/
inductive Prog (σ O α : Type*)
  | done (a : α)
  | read (next : σ → Prog σ O α)
  | write (o : O) (next : Bool → Prog σ O α)

variable {σ O α β : Type*}

namespace Prog

def bind : Prog σ O α → (α → Prog σ O β) → Prog σ O β
  | done a, f => f a
  | read next, f => read (fun s => (next s).bind f)
  | write o next, f => write o (fun ok => (next ok).bind f)

/-- Runs one program after the other, unless the first answers no. -/
def andThen (p q : Prog σ O Bool) : Prog σ O Bool :=
  p.bind (fun ok => if ok then q else done false)

/-- Goes through a list until a program answers no. -/
def forAll (f : β → Prog σ O Bool) : List β → Prog σ O Bool
  | [] => done true
  | b :: rest => (f b).andThen (forAll f rest)

/-- Writes one after the other, whatever they answer. -/
def writeAll : List O → Prog σ O α → Prog σ O α
  | [], p => p
  | o :: rest, p => write o (fun _ => writeAll rest p)

end Prog

/-- What a write can do to the medium and answer. -/
structure Medium (σ O : Type*) where
  effect : O → σ → Bool → σ → Prop
  total : ∀ o s, ∃ ok t, effect o s ok t

/-- The executions of a program, with `none` for one that a crash has cut. -/
inductive Exec (m : Medium σ O) : Prog σ O α → σ → Option α → σ → Prop
  | crash {p : Prog σ O α} {s : σ} : Exec m p s none s
  | done {a : α} {s : σ} : Exec m (.done a) s (some a) s
  | read {next : σ → Prog σ O α} {s t : σ} {r : Option α} :
      Exec m (next s) s r t → Exec m (.read next) s r t
  | write {o : O} {next : Bool → Prog σ O α} {s t u : σ} {ok : Bool} {r : Option α} :
      m.effect o s ok t → Exec m (next ok) t r u → Exec m (.write o next) s r u

/-- From `s`, the program ends in `after`, and a crash on the way leaves `crashed`. -/
def Holds (m : Medium σ O) (crashed : σ → Prop) :
    Prog σ O α → (α → σ → Prop) → σ → Prop
  | .done a, after, s => crashed s ∧ after a s
  | .read next, after, s => Holds m crashed (next s) after s
  | .write o next, after, s =>
    crashed s ∧ ∀ ok t, m.effect o s ok t → Holds m crashed (next ok) after t

variable {m : Medium σ O} {crashed crashed' : σ → Prop} {p : Prog σ O α}
  {after after' : α → σ → Prop} {s t : σ}

theorem Holds.now (h : Holds m crashed p after s) : crashed s := by
  induction p with
  | done a => exact h.1
  | read next ih => exact ih s h
  | write o next ih => exact h.1

theorem Holds.read {next : σ → Prog σ O α} (h : Holds m crashed (next s) after s) :
    Holds m crashed (.read next) after s := h

theorem Holds.weaken (h : Holds m crashed p after s) (cut : ∀ s, crashed s → crashed' s)
    (post : ∀ a s, after a s → after' a s) : Holds m crashed' p after' s := by
  induction p generalizing s with
  | done a => exact ⟨cut s h.1, post a s h.2⟩
  | read next ih => exact ih s h
  | write o next ih => exact ⟨cut s h.1, fun ok t effect => ih ok (h.2 ok t effect)⟩

theorem Holds.post (h : Holds m crashed p after s) (post : ∀ a s, after a s → after' a s) :
    Holds m crashed p after' s := h.weaken (fun _ cut => cut) post

theorem Holds.bind {f : α → Prog σ O β} {last : β → σ → Prop}
    (h : Holds m crashed p (fun a t => Holds m crashed (f a) last t) s) :
    Holds m crashed (p.bind f) last s := by
  induction p generalizing s with
  | done a => exact h.2
  | read next ih => exact ih s h
  | write o next ih => exact ⟨h.1, fun ok t effect => ih ok (h.2 ok t effect)⟩

/-- The rule of `andThen` for a first program that answers yes. -/
theorem Holds.andThen {p q : Prog σ O Bool} {after : Bool → σ → Prop}
    (h : Holds m crashed p (fun ok t => ok = true ∧ Holds m crashed q after t) s) :
    Holds m crashed (p.andThen q) after s := by
  apply Holds.bind
  apply h.post
  rintro ok t ⟨rfl, rest⟩
  exact rest

/-- The rule of a loop: `inv` speaks about the part of the list that is behind. -/
theorem Holds.forAll {f : β → Prog σ O Bool} (inv : List β → σ → Prop) {all : List β}
    (body : ∀ behind b ahead s, all = behind ++ b :: ahead → inv behind s →
      Holds m crashed (f b) (fun ok t => ok = true ∧ inv (behind ++ [b]) t) s)
    (final : ∀ s, inv all s → crashed s) (start : inv [] s) :
    Holds m crashed (Prog.forAll f all) (fun ok t => ok = true ∧ inv all t) s := by
  suffices from_ : ∀ ahead behind s, all = behind ++ ahead → inv behind s →
      Holds m crashed (Prog.forAll f ahead) (fun ok t => ok = true ∧ inv all t) s by
    exact from_ all [] s rfl start
  intro ahead
  induction ahead with
  | nil =>
    intro behind s split held
    rw [List.append_nil] at split
    subst split
    exact ⟨final s held, rfl, held⟩
  | cons b rest ih =>
    intro behind s split held
    apply Holds.andThen
    apply (body behind b rest s split held).post
    rintro ok t ⟨yes, next⟩
    exact ⟨yes, ih (behind ++ [b]) t (by simpa using split) next⟩

theorem Prog.writeAll_append (first second : List O) (p : Prog σ O α) :
    Prog.writeAll (first ++ second) p = Prog.writeAll first (Prog.writeAll second p) := by
  induction first with
  | nil => rfl
  | cons o rest ih => simp [Prog.writeAll, ih]

/-- The rule of writes in a row, one for each element of a list: `inv` speaks about the
elements that are behind. -/
theorem Holds.writeAll {write : β → O} (inv : List β → σ → Prop) {all : List β}
    (cut : ∀ behind b ahead s, all = behind ++ b :: ahead → inv behind s → crashed s)
    (effect : ∀ behind b ahead s ok t, all = behind ++ b :: ahead → inv behind s →
      m.effect (write b) s ok t → inv (behind ++ [b]) t)
    (start : inv [] s) (rest : ∀ t, inv all t → Holds m crashed p after t) :
    Holds m crashed (Prog.writeAll (all.map write) p) after s := by
  suffices from_ : ∀ ahead behind s, all = behind ++ ahead → inv behind s →
      Holds m crashed (Prog.writeAll (ahead.map write) p) after s by
    exact from_ all [] s rfl start
  intro ahead
  induction ahead with
  | nil =>
    intro behind s split held
    rw [List.append_nil] at split
    subst split
    exact rest s held
  | cons o later ih =>
    intro behind s split held
    refine ⟨cut behind o later s split held, fun ok t step => ?_⟩
    exact ih (behind ++ [o]) t (by simpa using split) (effect behind o later s ok t split held step)

theorem Holds.exec {r : Option α} (h : Holds m crashed p after s) (run : Exec m p s r t) :
    crashed t ∧ ∀ a, r = some a → after a t := by
  induction run with
  | crash => exact ⟨h.now, nofun⟩
  | done =>
    refine ⟨h.1, ?_⟩
    intro a same
    cases same
    exact h.2
  | read _ ih => exact ih h
  | write effect _ ih => exact ih (h.2 _ _ effect)

/-- Without a crash every program comes to its end. -/
theorem Exec.completes (m : Medium σ O) (p : Prog σ O α) (s : σ) :
    ∃ a t, Exec m p s (some a) t := by
  induction p generalizing s with
  | done a => exact ⟨a, s, .done⟩
  | read next ih =>
    obtain ⟨a, t, run⟩ := ih s s
    exact ⟨a, t, .read run⟩
  | write o next ih =>
    obtain ⟨ok, t, effect⟩ := m.total o s
    obtain ⟨a, u, run⟩ := ih ok t
    exact ⟨a, u, .write effect run⟩

/-- The media that crashed executions of a program can leave, one after the other. -/
def Restarts (m : Medium σ O) (p : Prog σ O α) : σ → σ → Prop :=
  Relation.ReflTransGen (fun s t => Exec m p s none t)

/-- A program whose crashes lead back to where it may start keeps its guarantee over any
number of restarts. -/
theorem Restarts.holds (stable : ∀ s, crashed s → Holds m crashed p after s)
    (start : crashed s) (restarts : Restarts m p s t) : crashed t := by
  induction restarts with
  | refl => exact start
  | tail _ run ih => exact ((stable _ ih).exec run).1

/-! Programs that may throw. -/

/-- `none` stands for an exception. -/
def Action (σ O : Type) (α : Type) := Prog σ O (Option α)

namespace Action

variable {σ O α β : Type}

instance : Monad (Action σ O) where
  pure a := Prog.done (some a)
  bind p f := Prog.bind p (fun
    | none => Prog.done none
    | some a => f a)

/-- A write that throws when it fails. -/
def op (o : O) : Action σ O Unit :=
  Prog.write o (fun ok => Prog.done (if ok then some () else none))

def check (condition : Bool) : Action σ O Unit :=
  Prog.done (if condition then some () else none)

def ofOption (a : Option α) : Action σ O α := Prog.done a

def look : Action σ O σ := Prog.read (fun s => Prog.done (some s))

end Action

/-- From `s`, the action ends in `after` or throws in `thrown`. -/
def Runs {σ O α : Type} (m : Medium σ O) (crashed : σ → Prop) (p : Action σ O α)
    (after : α → σ → Prop) (thrown : σ → Prop) (s : σ) : Prop :=
  Holds m crashed (show Prog σ O (Option α) from p) (fun
    | none, t => thrown t
    | some a, t => after a t) s

section Actions

variable {σ O α β : Type} {m : Medium σ O} {crashed : σ → Prop} {p : Action σ O α}
  {f : α → Action σ O β} {after : α → σ → Prop} {last : β → σ → Prop}
  {thrown thrown' : σ → Prop} {s : σ}

theorem Runs.now (h : Runs m crashed p after thrown s) : crashed s := Holds.now h

theorem Runs.pure {a : α} (cut : crashed s) (h : after a s) :
    Runs m crashed (pure a) after thrown s := ⟨cut, h⟩

theorem Runs.seq (h : Runs m crashed p (fun a t => Runs m crashed (f a) last thrown t) thrown s) :
    Runs m crashed (p >>= f) last thrown s := by
  unfold Runs at h
  revert h
  change Prog σ O (Option α) at p
  induction p generalizing s with
  | done a =>
    intro h
    cases a with
    | none => exact h
    | some a => exact h.2
  | read next ih =>
    intro h
    exact ih s h
  | write o next ih =>
    intro h
    exact ⟨h.1, fun ok t effect => ih ok (h.2 ok t effect)⟩

theorem Runs.weaken {after' : α → σ → Prop} (h : Runs m crashed p after thrown s)
    (post : ∀ a t, after a t → after' a t) (failed : ∀ t, thrown t → thrown' t) :
    Runs m crashed p after' thrown' s := by
  apply Holds.post h
  rintro (_ | a) t held
  · exact failed t held
  · exact post a t held

theorem Runs.cut {crashed' : σ → Prop} (h : Runs m crashed p after thrown s)
    (cut : ∀ t, crashed t → crashed' t) : Runs m crashed' p after thrown s :=
  Holds.weaken h cut (fun _ _ held => held)

theorem Runs.op {o : O} {after : Unit → σ → Prop} (cut : crashed s)
    (step : ∀ ok t, m.effect o s ok t → crashed t ∧ if ok then after () t else thrown t) :
    Runs m crashed (Action.op o) after thrown s := by
  refine ⟨cut, fun ok t effect => ?_⟩
  obtain ⟨now, held⟩ := step ok t effect
  cases ok with
  | false => exact ⟨now, held⟩
  | true => exact ⟨now, held⟩

theorem Runs.check {condition : Bool} {after : Unit → σ → Prop} (cut : crashed s)
    (no : condition = false → thrown s) (yes : condition = true → after () s) :
    Runs m crashed (Action.check condition) after thrown s := by
  cases condition with
  | false => exact ⟨cut, no rfl⟩
  | true => exact ⟨cut, yes rfl⟩

theorem Runs.ofOption {a : Option α} (cut : crashed s) (no : a = none → thrown s)
    (yes : ∀ x, a = some x → after x s) :
    Runs m crashed (Action.ofOption a) after thrown s := by
  cases a with
  | none => exact ⟨cut, no rfl⟩
  | some x => exact ⟨cut, yes x rfl⟩

theorem Runs.look {after : σ → σ → Prop} (cut : crashed s) (h : after s s) :
    Runs m crashed (Action.look : Action σ O σ) after thrown s := ⟨cut, h⟩

/-- The rule of an action whose exception is caught. -/
theorem Runs.caught {g : Option α → Prog σ O β} {final : β → σ → Prop}
    (h : Runs m crashed p (fun a t => Holds m crashed (g (some a)) final t)
      (fun t => Holds m crashed (g none) final t) s) :
    Holds m crashed (Prog.bind (show Prog σ O (Option α) from p) g) final s := by
  apply Holds.bind
  apply Holds.post h
  rintro (_ | a) t held
  · exact held
  · exact held

end Actions

/-! Programs whose writes are all of one kind. -/

def Prog.Only (kind : O → Prop) : Prog σ O α → Prop
  | done _ => True
  | read next => ∀ s, Only kind (next s)
  | write o next => kind o ∧ ∀ ok, Only kind (next ok)

/-- What the writes of one kind keep, a program of such writes keeps. -/
theorem Holds.only {kind : O → Prop} {inv : σ → Prop} (only : p.Only kind)
    (keeps : ∀ o s ok t, kind o → m.effect o s ok t → inv s → inv t)
    (start : inv s) : Holds m inv p (fun _ => inv) s := by
  induction p generalizing s with
  | done a => exact ⟨start, start⟩
  | read next ih => exact ih s (only s) start
  | write o next ih =>
    exact ⟨start, fun ok t effect => ih ok (only.2 ok) (keeps o s ok t only.1 effect start)⟩

end Durable
