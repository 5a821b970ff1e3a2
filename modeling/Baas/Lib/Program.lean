import Mathlib.Init

/-! Stateful programs that may fail, and their pre- and postconditions.
A failure keeps the state reached so far, as an exception does. -/

def Program (σ ε α : Type) := σ → Except ε α × σ

namespace Program

variable {σ ε α β : Type}

def done (a : α) : Program σ ε α := fun s => (.ok a, s)

def andThen (m : Program σ ε α) (next : α → Program σ ε β) : Program σ ε β := fun s =>
  match m s with
  | (.ok a, t) => next a t
  | (.error e, t) => (.error e, t)

instance : Monad (Program σ ε) where
  pure := done
  bind := andThen

def raise (e : ε) : Program σ ε α := fun s => (.error e, s)

def read : Program σ ε σ := fun s => (.ok s, s)

def modify (f : σ → σ) : Program σ ε Unit := fun s => (.ok (), f s)

/-- Fails when the condition holds. -/
def refuseIf (c : Prop) [Decidable c] (e : ε) : Program σ ε Unit :=
  if c then raise e else pure ()

def runIf (c : Prop) [Decidable c] (m : Program σ ε Unit) : Program σ ε Unit :=
  if c then m else pure ()

/-- A computation that only reads. -/
def query (f : σ → Except ε α) : Program σ ε α := fun s => (f s, s)

/-- Runs a handler on failure, from the state the failure left. -/
def catching (m : Program σ ε α) (handler : ε → Program σ ε α) : Program σ ε α := fun s =>
  match m s with
  | (.ok a, t) => (.ok a, t)
  | (.error e, t) => handler e t

/-- Runs a cleanup on every way out, as a destructor does. -/
def ensuring (m : Program σ ε α) (cleanup : σ → σ) : Program σ ε α := fun s =>
  ((m s).1, cleanup (m s).2)

theorem bind_of_ok {m : Program σ ε α} {next : α → Program σ ε β} {s t : σ} {a : α}
    (ran : m s = (.ok a, t)) : (m >>= next) s = next a t := by
  have same : (m >>= next) s = andThen m next s := rfl
  rw [same, andThen, ran]

theorem bind_of_error {m : Program σ ε α} {next : α → Program σ ε β} {s t : σ} {e : ε}
    (ran : m s = (.error e, t)) : (m >>= next) s = (.error e, t) := by
  have same : (m >>= next) s = andThen m next s := rfl
  rw [same, andThen, ran]

/-- From `before`, a normal result satisfies `after` and a failure satisfies `failed`. -/
def Meets (before : σ → Prop) (m : Program σ ε α) (after : α → σ → Prop)
    (failed : σ → Prop) : Prop :=
  ∀ s, before s → match m s with
    | (.ok a, t) => after a t
    | (.error _, t) => failed t

variable {before before' : σ → Prop} {after after' : α → σ → Prop} {failed failed' : σ → Prop}
  {m : Program σ ε α}

theorem Meets.weaken (h : Meets before m after failed) (pre : ∀ s, before' s → before s)
    (post : ∀ a s, after a s → after' a s) (err : ∀ s, failed s → failed' s) :
    Meets before' m after' failed' := by
  intro s hs
  have result := h s (pre s hs)
  split at result
  · rename_i a t eq
    exact post a t result
  · rename_i e t eq
    exact err t result

theorem meets_pure (a : α) (h : ∀ s, before s → after a s) :
    Meets before (pure a : Program σ ε α) after failed :=
  fun s hs => h s hs

theorem meets_raise (e : ε) (h : ∀ s, before s → failed s) :
    Meets before (raise e : Program σ ε α) after failed :=
  fun s hs => h s hs

theorem Meets.bind {middle : α → σ → Prop} {last : β → σ → Prop}
    {next : α → Program σ ε β} (first : Meets before m middle failed)
    (rest : ∀ a, Meets (middle a) (next a) last failed) :
    Meets before (m >>= next) last failed := by
  intro s hs
  have result := first s hs
  show match andThen m next s with
    | (.ok b, t) => last b t
    | (.error _, t) => failed t
  unfold andThen
  split at result
  · rename_i a t eq
    exact rest a t result
  · rename_i e t eq
    exact result

theorem meets_modify (f : σ → σ) {after : Unit → σ → Prop} (h : ∀ s, before s → after () (f s)) :
    Meets before (modify f : Program σ ε Unit) after failed :=
  fun s hs => h s hs

theorem meets_read {after : σ → σ → Prop} (h : ∀ s, before s → after s s) :
    Meets before (read : Program σ ε σ) after failed :=
  fun s hs => h s hs

theorem meets_query {f : σ → Except ε α} (ok : ∀ s a, before s → f s = .ok a → after a s)
    (err : ∀ s, before s → failed s) : Meets before (query f) after failed := by
  intro s hs
  unfold query
  cases eq : f s with
  | ok a => exact ok s a hs eq
  | error e => exact err s hs

theorem Meets.catching {handler : ε → Program σ ε α} {broken : σ → Prop}
    (body : Meets before m after broken)
    (rescue : ∀ e, Meets broken (handler e) after failed) :
    Meets before (m.catching handler) after failed := by
  intro s hs
  have result := body s hs
  unfold Program.catching
  split at result
  · rename_i a t eq
    exact result
  · rename_i e t eq
    exact rescue e t result

theorem Meets.ensuring {cleanup : σ → σ} (body : Meets before m after' failed')
    (ok : ∀ a s, after' a s → after a (cleanup s)) (err : ∀ s, failed' s → failed (cleanup s)) :
    Meets before (m.ensuring cleanup) after failed := by
  intro s hs
  have result := body s hs
  unfold Program.ensuring
  cases outcome : m s with
  | mk value t =>
    rw [outcome] at result
    cases value with
    | ok a => exact ok a t result
    | error e => exact err t result

theorem meets_ite {c : Prop} [Decidable c] {m' : Program σ ε α}
    (yes : c → Meets before m after failed) (no : ¬c → Meets before m' after failed) :
    Meets before (if c then m else m') after failed := by
  split
  · exact yes ‹_›
  · exact no ‹_›

/-- What follows a refusal may assume that its condition is false. -/
theorem meets_refuseIf {c : Prop} [Decidable c] {e : ε} {after : Unit → σ → Prop}
    (err : ∀ s, before s → failed s) (ok : ¬c → ∀ s, before s → after () s) :
    Meets before (refuseIf c e : Program σ ε Unit) after failed :=
  meets_ite (fun _ => meets_raise e err) (fun h => meets_pure () (ok h))

theorem meets_runIf {c : Prop} [Decidable c] {m : Program σ ε Unit} {after : Unit → σ → Prop}
    (yes : c → Meets before m after failed) (no : ¬c → ∀ s, before s → after () s) :
    Meets before (runIf c m) after failed :=
  meets_ite yes (fun h => meets_pure () (no h))

/-- Facts that do not mention the state can be pulled out of a precondition. -/
theorem meets_of_fact {p : Prop} (fact : ∀ s, before s → p)
    (h : p → Meets before m after failed) : Meets before m after failed :=
  fun s hs => h (fact s hs) s hs

theorem Meets.forget {extra : σ → Prop} (h : Meets before m after failed) :
    Meets (fun s => before s ∧ extra s) m after failed :=
  h.weaken (fun _ both => both.1) (fun _ _ h => h) (fun _ h => h)

/-- What follows a reading may assume that nothing has changed since. -/
theorem meets_reading {next : σ → Program σ ε α}
    (h : ∀ s, before s → Meets (fun t => t = s) (next s) after failed) :
    Meets before (read >>= next) after failed :=
  fun s hs => h s hs s rfl

theorem Meets.both {before₂ failed₂ : σ → Prop} {after₂ : α → σ → Prop}
    (first : Meets before m after failed) (second : Meets before₂ m after₂ failed₂) :
    Meets (fun s => before s ∧ before₂ s) m (fun a s => after a s ∧ after₂ a s)
      (fun s => failed s ∧ failed₂ s) := by
  intro s hs
  have one := first s hs.1
  have two := second s hs.2
  split at one
  · rename_i a t eq
    rw [eq] at two
    exact ⟨one, two⟩
  · rename_i e t eq
    rw [eq] at two
    exact ⟨one, two⟩

/-! Programs that keep an invariant however they end. -/

abbrev Keeps (inv : σ → Prop) (m : Program σ ε α) : Prop := Meets inv m (fun _ => inv) inv

section Keeps

variable {inv : σ → Prop}

theorem keeps_pure (a : α) : Keeps inv (pure a : Program σ ε α) := meets_pure a (fun _ h => h)

theorem keeps_raise (e : ε) : Keeps inv (raise e : Program σ ε α) := meets_raise e (fun _ h => h)

theorem keeps_read : Keeps inv (read : Program σ ε σ) := meets_read (fun _ h => h)

theorem keeps_query (f : σ → Except ε α) : Keeps inv (query f) :=
  meets_query (fun _ _ h _ => h) (fun _ h => h)

theorem keeps_modify {f : σ → σ} (h : ∀ s, inv s → inv (f s)) :
    Keeps inv (modify f : Program σ ε Unit) := meets_modify f h

theorem Keeps.andThen {next : α → Program σ ε β} (first : Keeps inv m)
    (rest : ∀ a, Keeps inv (next a)) : Keeps inv (m >>= next) := first.bind rest

theorem keeps_refuseIf (c : Prop) [Decidable c] (e : ε) :
    Keeps inv (refuseIf c e : Program σ ε Unit) :=
  meets_refuseIf (fun _ h => h) (fun _ _ h => h)

theorem keeps_runIf {c : Prop} [Decidable c] {m : Program σ ε Unit} (h : Keeps inv m) :
    Keeps inv (runIf c m) :=
  meets_runIf (fun _ => h) (fun _ _ h => h)

theorem Keeps.rescue {handler : ε → Program σ ε α} (body : Keeps inv m)
    (recovery : ∀ e, Keeps inv (handler e)) : Keeps inv (m.catching handler) :=
  body.catching recovery

theorem keeps_forM {γ : Type} (f : γ → Program σ ε Unit) (l : List γ)
    (each : ∀ c ∈ l, Keeps inv (f c)) : Keeps inv (l.forM f) := by
  induction l with
  | nil => exact keeps_pure ()
  | cons c l ih =>
    exact (each c List.mem_cons_self).andThen
      (fun _ => ih (fun d hd => each d (List.mem_cons_of_mem _ hd)))

end Keeps

end Program
