import Baas.Lib.Program

/-! Programs that repeat a body and use something up in every round, so that some number of
rounds always suffices. -/
namespace Program

variable {σ ε α β γ : Type}

/-- How one round ends. -/
inductive Round (β α : Type)
  | again (b : β)
  | last (a : α)

/-- Repeats a body until it ends, for at most so many rounds. -/
def rounds (spent : ε) (body : β → Program σ ε (Round β α)) : Nat → β → Program σ ε α
  | 0, _ => raise spent
  | n + 1, b => do
    match ← body b with
    | .again b => rounds spent body n b
    | .last a => pure a

/-- Runs between two changes of the state, the second of which is made on every way out and
knows the state before the first. -/
def between (enter : σ → σ) (leave : σ → σ → σ) (m : Program σ ε α) : Program σ ε α := fun s =>
  ((m (enter s)).1, leave s (m (enter s)).2)

/-- What is left to use up, the states in which it is counted, how the states of a run are
related, and the failures that are expected. -/
structure Meter (σ ε : Type) where
  left : σ → Nat
  sound : σ → Prop
  leads : σ → σ → Prop
  expected : ε → Prop
  refl : ∀ s, leads s s
  trans : ∀ {s t u}, leads s t → leads t u → leads s u
  falls : ∀ {s t}, leads s t → left t ≤ left s

/-- The same count for other failures. -/
def Meter.expecting (M : Meter σ ε) (expected : ε → Prop) : Meter σ ε :=
  { M with expected }

variable {M : Meter σ ε} {m : Program σ ε α} {next : α → Program σ ε β} {b c n : Nat}

/-- From less than `b`, the program ends with what is expected of it. A result has used up at
least what it is worth. -/
def Spends (M : Meter σ ε) (b : Nat) (m : Program σ ε α) (worth : α → Nat) : Prop :=
  ∀ s, M.sound s → M.left s < b → match m s with
    | (.ok a, t) => M.sound t ∧ M.leads s t ∧ M.left t + worth a ≤ M.left s
    | (.error e, t) => M.expected e ∧ M.sound t ∧ M.leads s t

/-- Ends as expected. -/
abbrev Ends (M : Meter σ ε) (b : Nat) (m : Program σ ε α) : Prop := Spends M b m fun _ => 0

/-- Ends as expected, and a result has used up something. -/
abbrev Moves (M : Meter σ ε) (b : Nat) (m : Program σ ε α) : Prop := Spends M b m fun _ => 1

variable {worth worth' : α → Nat} {value : β → Nat}

theorem Spends.weaken (spends : Spends M b m worth) (bound : c ≤ b)
    (less : ∀ a, worth' a ≤ worth a) : Spends M c m worth' := by
  intro s sound below
  have result := spends s sound (Nat.lt_of_lt_of_le below bound)
  split at result
  · obtain ⟨sound', leads, paid⟩ := result
    exact ⟨sound', leads, Nat.le_trans (Nat.add_le_add_left (less _) _) paid⟩
  · exact result

theorem Spends.within (spends : Spends M b m worth) (bound : c ≤ b) : Spends M c m worth :=
  spends.weaken bound fun _ => Nat.le_refl _

theorem Spends.ends (spends : Spends M b m worth) : Ends M b m :=
  spends.weaken (Nat.le_refl b) fun _ => Nat.zero_le _

theorem ends_pure (a : α) : Ends M b (pure a : Program σ ε α) :=
  fun s sound _ => ⟨sound, M.refl s, Nat.le_refl _⟩

theorem spends_raise {e : ε} (expected : M.expected e) :
    Spends M b (raise e : Program σ ε α) worth :=
  fun s sound _ => ⟨expected, sound, M.refl s⟩

theorem Spends.bind (first : Spends M b m worth)
    (rest : ∀ a, Spends M (b - worth a) (next a) fun c => value c - worth a) :
    Spends M b (m >>= next) value := by
  intro s sound below
  have result := first s sound below
  cases ran : m s with
  | mk outcome t =>
    rw [ran] at result
    cases outcome with
    | error e =>
      rw [bind_of_error ran]
      exact result
    | ok a =>
      obtain ⟨sound', leads, paid⟩ := result
      have below' : M.left t < b - worth a := by omega
      have later := rest a t sound' below'
      rw [bind_of_ok ran]
      split at later
      · obtain ⟨sound'', leads', paid'⟩ := later
        dsimp only at paid'
        exact ⟨sound'', M.trans leads leads', by omega⟩
      · exact ⟨later.1, later.2.1, M.trans leads later.2.2⟩

/-- What follows may still use as much as there was. -/
theorem Spends.then (first : Spends M b m worth) (rest : ∀ a, Spends M b (next a) value) :
    Spends M b (m >>= next) value :=
  Spends.bind first.ends rest

theorem Ends.then (first : Ends M b m) (rest : ∀ a, Spends M b (next a) value) :
    Spends M b (m >>= next) value :=
  Spends.then first rest

/-- What follows a move has less to use, and need not move. -/
theorem Moves.step (first : Moves M b m) (bound : b - 1 ≤ c) (small : ∀ x, value x ≤ 1)
    (rest : ∀ a, Ends M c (next a)) : Spends M b (m >>= next) value :=
  Spends.bind first fun a => (rest a).weaken bound fun x => Nat.sub_le_of_le_add (small x)

/-- As `Moves.step`, for a move that a program may leave out. -/
theorem Spends.branch {flag : Program σ ε Bool} {next : Bool → Program σ ε β}
    (first : Spends M b flag Bool.toNat) (bound : b - 1 ≤ c) (small : ∀ x, value x ≤ 1)
    (yes : Ends M c (next true)) (no : Spends M b (next false) value) :
    Spends M b (flag >>= next) value := by
  refine Spends.bind first fun found => ?_
  cases found with
  | true => exact yes.weaken bound fun x => Nat.sub_le_of_le_add (small x)
  | false => exact no

theorem spends_ite {p : Prop} [Decidable p] {m' : Program σ ε α}
    (yes : Spends M b m worth) (no : Spends M b m' worth) :
    Spends M b (if p then m else m') worth := by
  split
  · exact yes
  · exact no

theorem ends_query {f : σ → α} : Ends M b (query fun s => .ok (f s) : Program σ ε α) :=
  fun s sound _ => ⟨sound, M.refl s, Nat.le_refl _⟩

theorem ends_read : Ends M b (read : Program σ ε σ) :=
  fun s sound _ => ⟨sound, M.refl s, Nat.le_refl _⟩

theorem ends_modify {f : σ → σ} (h : ∀ s, M.sound s → M.sound (f s) ∧ M.leads s (f s)) :
    Ends M b (modify f : Program σ ε Unit) :=
  fun s sound _ => ⟨(h s sound).1, (h s sound).2, M.falls (h s sound).2⟩

theorem Ends.catching {handler : ε → Program σ ε α} {p : ε → Prop}
    (body : Ends (M.expecting p) b m) (rescue : ∀ e, p e → Ends M b (handler e)) :
    Ends M b (m.catching handler) := by
  intro s sound below
  have result := body s sound below
  unfold Program.catching
  cases ran : m s with
  | mk outcome t =>
    rw [ran] at result
    cases outcome with
    | ok a => exact result
    | error e =>
      obtain ⟨expected, sound', leads⟩ := result
      have later := rescue e expected t sound' (Nat.lt_of_le_of_lt (M.falls leads) below)
      dsimp only
      split at later
      · obtain ⟨sound'', leads', paid⟩ := later
        exact ⟨sound'', M.trans leads leads', M.falls (M.trans leads leads')⟩
      · exact ⟨later.1, later.2.1, M.trans leads later.2.2⟩

theorem Spends.between {enter : σ → σ} {leave : σ → σ → σ} (body : Spends M b m worth)
    (entered : ∀ s, M.sound s → M.sound (enter s) ∧ M.left (enter s) = M.left s)
    (left : ∀ s t, M.sound t → M.leads (enter s) t →
      M.sound (leave s t) ∧ M.leads s (leave s t) ∧ M.left (leave s t) = M.left t) :
    Spends M b (m.between enter leave) worth := by
  intro s sound below
  obtain ⟨inside, same⟩ := entered s sound
  have result := body (enter s) inside (same ▸ below)
  unfold Program.between
  cases ran : m (enter s) with
  | mk outcome t =>
    rw [ran] at result
    cases outcome with
    | ok a =>
      obtain ⟨sound', leads, paid⟩ := result
      obtain ⟨outside, back, kept⟩ := left s t sound' leads
      exact ⟨outside, back, by rw [kept, ← same]; exact paid⟩
    | error e =>
      obtain ⟨expected, sound', leads⟩ := result
      obtain ⟨outside, back, -⟩ := left s t sound' leads
      exact ⟨expected, outside, back⟩

/-- A round that goes on is worth one. -/
def Round.price : Round β α → Nat
  | .again _ => 1
  | .last _ => 0

theorem Round.price_le (round : Round β α) : round.price ≤ 1 := by
  cases round with
  | again b => exact Nat.le_refl 1
  | last a => exact Nat.zero_le 1

theorem spends_last (a : α) :
    Spends M b (pure (.last a) : Program σ ε (Round β α)) Round.price :=
  fun s sound _ => ⟨sound, M.refl s, Nat.le_refl _⟩

theorem rounds_end (spent : ε) {body : γ → Program σ ε (Round γ α)}
    (each : ∀ x, Spends M b (body x) Round.price) (fuel : Nat) (x : γ) :
    ∀ s, M.sound s → M.left s < b → M.left s < fuel → match rounds spent body fuel x s with
      | (.ok _, t) => M.sound t ∧ M.leads s t
      | (.error e, t) => M.expected e ∧ M.sound t ∧ M.leads s t := by
  induction fuel generalizing x with
  | zero => exact fun s _ _ none => absurd none (Nat.not_lt_zero _)
  | succ fuel ih =>
    intro s sound below enough
    have result := each x s sound below
    unfold rounds
    cases ran : body x s with
    | mk outcome t =>
      rw [ran] at result
      cases outcome with
      | error e =>
        rw [bind_of_error ran]
        exact result
      | ok round =>
        rw [bind_of_ok ran]
        obtain ⟨sound', leads, paid⟩ := result
        cases round with
        | last a => exact ⟨sound', leads⟩
        | again y =>
          change M.left t + 1 ≤ M.left s at paid
          have later := ih y t sound' (by omega) (by omega)
          dsimp only
          split at later
          · exact ⟨later.1, M.trans leads later.2⟩
          · exact ⟨later.1, later.2.1, M.trans leads later.2.2⟩

/-- What every last round ends in holds at the end. -/
theorem rounds_last {spent : ε} {body : γ → Program σ ε (Round γ α)} {after : α → σ → Prop}
    (ending : ∀ x s a t, body x s = (.ok (.last a), t) → after a t) {fuel : Nat} {x : γ} {s t : σ}
    {a : α} (ran : rounds spent body fuel x s = (.ok a, t)) : after a t := by
  induction fuel generalizing x s with
  | zero => cases ran
  | succ fuel ih =>
    unfold rounds at ran
    cases once : body x s with
    | mk outcome u =>
      cases outcome with
      | error e =>
        rw [bind_of_error once] at ran
        cases ran
      | ok round =>
        rw [bind_of_ok once] at ran
        cases round with
        | again y => exact ih ran
        | last c =>
          cases ran
          exact ending x s a t once

end Program
