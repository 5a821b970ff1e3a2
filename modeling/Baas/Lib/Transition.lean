import Mathlib.Data.List.Induction

/-! Labelled transition systems and their finite runs.
A run lists its events oldest first. Each event keeps the state it left and the
state it reached, so a property of the history can read both. -/
namespace Transition

structure System (S L : Type*) where
  start : S → Prop
  step : S → L → S → Prop

structure Event (S L : Type*) where
  source : S
  label : L
  target : S

variable {S L : Type*}

/-- Every finite run of a system, with the state it ends in. -/
inductive Run (m : System S L) : List (Event S L) → S → Prop where
  | start {s : S} : m.start s → Run m [] s
  | step {es : List (Event S L)} {s t : S} {l : L} :
      Run m es s → m.step s l t → Run m (es ++ [⟨s, l, t⟩]) t

def Reachable (m : System S L) (s : S) : Prop := ∃ es, Run m es s

/-- An invariant that may also mention the history that led to the state. -/
theorem Run.history {m : System S L} (inv : List (Event S L) → S → Prop)
    (initial : ∀ s, m.start s → inv [] s)
    (preserved : ∀ es s l t, Run m es s → inv es s → m.step s l t →
      inv (es ++ [⟨s, l, t⟩]) t)
    {es : List (Event S L)} {s : S} (run : Run m es s) : inv es s := by
  induction run with
  | start h => exact initial _ h
  | step prior h ih => exact preserved _ _ _ _ prior ih h

theorem Run.invariant {m : System S L} (inv : S → Prop)
    (initial : ∀ s, m.start s → inv s)
    (preserved : ∀ s l t, inv s → m.step s l t → inv t)
    {es : List (Event S L)} {s : S} (run : Run m es s) : inv s :=
  run.history (fun _ s => inv s) initial
    (fun _ s l t _ h step => preserved s l t h step)

/-- A history invariant that only the steps satisfying a guard have to keep. -/
theorem Run.history_while {m : System S L} (guard : Event S L → Prop)
    (inv : List (Event S L) → S → Prop)
    (initial : ∀ s, m.start s → inv [] s)
    (preserved : ∀ es s l t, Run m es s → inv es s → m.step s l t → guard ⟨s, l, t⟩ →
      inv (es ++ [⟨s, l, t⟩]) t)
    {es : List (Event S L)} {s : S} (run : Run m es s) (met : ∀ e ∈ es, guard e) :
    inv es s := by
  induction run with
  | start h => exact initial _ h
  | step prior h ih =>
    have before := ih (fun e he => met e (List.mem_append_left _ he))
    exact preserved _ _ _ _ prior before h (met _ (List.mem_append_right _ (List.mem_singleton_self _)))

theorem Run.invariant_while {m : System S L} (guard : Event S L → Prop) (inv : S → Prop)
    (initial : ∀ s, m.start s → inv s)
    (preserved : ∀ s l t, inv s → m.step s l t → guard ⟨s, l, t⟩ → inv t)
    {es : List (Event S L)} {s : S} (run : Run m es s) (met : ∀ e ∈ es, guard e) : inv s :=
  run.history_while guard (fun _ s => inv s) initial
    (fun _ s l t _ h step g => preserved s l t h step g) met

/-- Every event of a run is a step taken from a reachable state. -/
theorem Run.of_mem {m : System S L} {es : List (Event S L)} {s : S} (run : Run m es s)
    {e : Event S L} (member : e ∈ es) : m.step e.source e.label e.target ∧ Reachable m e.source := by
  induction run with
  | start _ => cases member
  | step prior h ih =>
    rcases List.mem_append.mp member with old | new
    · exact ih old
    · cases List.mem_singleton.mp new
      exact ⟨h, _, prior⟩

theorem Run.last {m : System S L} {es : List (Event S L)} {e : Event S L} {s : S}
    (run : Run m (es ++ [e]) s) :
    Run m es e.source ∧ m.step e.source e.label e.target ∧ s = e.target := by
  generalize whole : es ++ [e] = all at run
  cases run with
  | start _ => simp at whole
  | step prior h =>
    obtain ⟨rfl, same⟩ := List.append_inj' whole rfl
    cases List.cons.inj same |>.1
    exact ⟨prior, h, rfl⟩

/-- A run up to one of its events. -/
theorem Run.upto {m : System S L} {before after : List (Event S L)} {e : Event S L} {s : S}
    (run : Run m (before ++ e :: after) s) :
    Run m before e.source ∧ m.step e.source e.label e.target := by
  induction after using List.reverseRecOn generalizing s with
  | nil => exact ⟨run.last.1, run.last.2.1⟩
  | append_singleton after e' ih =>
    have split : Run m ((before ++ e :: after) ++ [e']) s := by simpa using run
    exact ih split.last.1

/-- What holds after an event and is kept by every later step that satisfies a guard. The
invariant reads the events since. -/
theorem Run.since {m : System S L} (guard : Event S L → Prop)
    (inv : List (Event S L) → S → Prop)
    (preserved : ∀ es s l t, inv es s → m.step s l t → guard ⟨s, l, t⟩ →
      inv (es ++ [⟨s, l, t⟩]) t)
    {before after : List (Event S L)} {first : Event S L} {s : S}
    (run : Run m (before ++ first :: after) s) (initial : inv [] first.target)
    (met : ∀ e ∈ after, guard e) : inv after s := by
  induction after using List.reverseRecOn generalizing s with
  | nil =>
    rw [run.last.2.2]
    exact initial
  | append_singleton after e ih =>
    have split : Run m ((before ++ first :: after) ++ [e]) s := by simpa using run
    obtain ⟨prior, step, rfl⟩ := split.last
    have held := ih prior (fun e' member => met e' (List.mem_append_left _ member))
    exact preserved _ _ _ _ held step (met e (by simp))

/-- Plays a list of inputs through a deterministic step, collecting the events. -/
def play {I : Type*} (next : S → I → L × S) : S → List I → List (Event S L) × S
  | s, [] => ([], s)
  | s, i :: is =>
    (⟨s, (next s i).1, (next s i).2⟩ :: (play next (next s i).2 is).1,
      (play next (next s i).2 is).2)

theorem Run.extend {I : Type*} {m : System S L} {next : S → I → L × S}
    (steps : ∀ s i, m.step s (next s i).1 (next s i).2) (is : List I)
    {es : List (Event S L)} {s : S} (run : Run m es s) :
    Run m (es ++ (play next s is).1) (play next s is).2 := by
  induction is generalizing es s with
  | nil => simpa [play] using run
  | cons i is ih => simpa [play] using ih (run.step (steps s i))

theorem run_play {I : Type*} {m : System S L} {next : S → I → L × S}
    (steps : ∀ s i, m.step s (next s i).1 (next s i).2) (is : List I) {s : S}
    (initial : m.start s) : Run m (play next s is).1 (play next s is).2 := by
  simpa using (Run.start initial).extend steps is

end Transition
