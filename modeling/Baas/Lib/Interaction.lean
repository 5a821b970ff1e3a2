import Mathlib.Init

/-! Programs that ask their environment, and when two of them cannot be told apart.
A program ends with a value, stops early, or asks a question and goes on with the answer. -/

inductive Interaction (Q : Type) (R : Q → Type) (ε α : Type)
  | done (a : α)
  | stop (e : ε)
  | ask (q : Q) (next : R q → Interaction Q R ε α)

namespace Interaction

variable {Q : Type} {R : Q → Type} {ε α β γ δ : Type}

def andThen : Interaction Q R ε α → (α → Interaction Q R ε β) → Interaction Q R ε β
  | done a, f => f a
  | stop e, _ => stop e
  | ask q next, f => ask q (fun r => (next r).andThen f)

instance : Monad (Interaction Q R ε) where
  pure := done
  bind := andThen

/-- Asks one question. -/
def query (q : Q) : Interaction Q R ε (R q) := ask q done

theorem bind_assoc (p : Interaction Q R ε α) (f : α → Interaction Q R ε β)
    (g : β → Interaction Q R ε γ) : p >>= f >>= g = p >>= fun a => f a >>= g := by
  show (p.andThen f).andThen g = p.andThen (fun a => (f a).andThen g)
  induction p with
  | done a => rfl
  | stop e => rfl
  | ask q next ih =>
    simp only [andThen, ask.injEq, heq_eq_eq, true_and]
    funext r
    exact ih r

theorem bind_pure (p : Interaction Q R ε α) : (p >>= pure) = p := by
  show p.andThen done = p
  induction p with
  | done a => rfl
  | stop e => rfl
  | ask q next ih =>
    simp only [andThen, ask.injEq, heq_eq_eq, true_and]
    funext r
    exact ih r

/-- The body of a loop, so many times. -/
def repeated (body : α → Interaction Q R ε α) : Nat → α → Interaction Q R ε α
  | 0, a => pure a
  | n + 1, a => body a >>= repeated body n

/-! Two programs that ask the same questions and stop alike, as long as the answers are
allowed; what is allowed may depend on the answers so far. -/

section Alike

variable {σ : Type} (allowed : σ → (q : Q) → R q → σ → Prop)

inductive Alike (post : σ → α → β → Prop) :
    σ → Interaction Q R ε α → Interaction Q R ε β → Prop
  | done {s : σ} {a : α} {b : β} : post s a b → Alike post s (.done a) (.done b)
  | stop {s : σ} {e : ε} : Alike post s (.stop e) (.stop e)
  | ask {s : σ} {q : Q} {next : R q → Interaction Q R ε α} {next' : R q → Interaction Q R ε β} :
      (∀ r t, allowed s q r t → Alike post t (next r) (next' r)) →
      Alike post s (.ask q next) (.ask q next')

variable {allowed}

theorem Alike.weaken {post post' : σ → α → β → Prop} {s : σ} {p : Interaction Q R ε α}
    {p' : Interaction Q R ε β} (alike : Alike allowed post s p p')
    (weaker : ∀ t a b, post t a b → post' t a b) : Alike allowed post' s p p' := by
  induction alike with
  | done held => exact .done (weaker _ _ _ held)
  | stop => exact .stop
  | ask _ ih => exact .ask ih

theorem Alike.seq {mid : σ → α → β → Prop} {post : σ → γ → δ → Prop} {s : σ}
    {p : Interaction Q R ε α} {p' : Interaction Q R ε β} {f : α → Interaction Q R ε γ}
    {f' : β → Interaction Q R ε δ} (first : Alike allowed mid s p p')
    (second : ∀ t a b, mid t a b → Alike allowed post t (f a) (f' b)) :
    Alike allowed post s (p >>= f) (p' >>= f') := by
  show Alike allowed post s (p.andThen f) (p'.andThen f')
  induction first with
  | done held => exact second _ _ _ held
  | stop => exact .stop
  | ask _ ih => exact .ask ih

/-- A program is like itself; the state only moves along a preorder. -/
theorem Alike.same {later : σ → σ → Prop} (refl : ∀ s, later s s)
    (step : ∀ s q r t u, allowed s q r t → later t u → later s u) (p : Interaction Q R ε α)
    (s : σ) : Alike allowed (fun t a b => later s t ∧ a = b) s p p := by
  induction p generalizing s with
  | done a => exact .done ⟨refl s, rfl⟩
  | stop e => exact .stop
  | ask q next ih =>
    refine .ask (fun r t may => (ih r t).weaken ?_)
    rintro u a b ⟨after, same⟩
    exact ⟨step s q r t u may after, same⟩

theorem Alike.repeated {body : α → Interaction Q R ε α} {body' : β → Interaction Q R ε β}
    {inv : σ → α → β → Prop}
    (once : ∀ s a b, inv s a b → Alike allowed inv s (body a) (body' b)) (n : Nat) {s : σ}
    {a : α} {b : β} (held : inv s a b) :
    Alike allowed inv s (repeated body n a) (repeated body' n b) := by
  induction n generalizing s a b with
  | zero => exact .done held
  | succ n ih => exact (once s a b held).seq (fun t a b => ih)

end Alike

/-! Running against an environment that answers by what was asked and answered before. -/

abbrev Event (Q : Type) (R : Q → Type) := (q : Q) × R q

def run (env : List (Event Q R) → (q : Q) → R q) (past : List (Event Q R)) :
    Interaction Q R ε α → List (Event Q R) × Except ε α
  | done a => (past, .ok a)
  | stop e => (past, .error e)
  | ask q next => run env (past ++ [⟨q, env past q⟩]) (next (env past q))

/-- Programs that are alike have the same run in an environment that keeps to what is
allowed. -/
theorem Alike.run {σ : Type} {allowed : σ → (q : Q) → R q → σ → Prop}
    {env : List (Event Q R) → (q : Q) → R q} {matching : σ → List (Event Q R) → Prop}
    (keeps : ∀ s past q, matching s past →
      ∃ t, allowed s q (env past q) t ∧ matching t (past ++ [⟨q, env past q⟩]))
    {post : σ → α → β → Prop} {s : σ} {p : Interaction Q R ε α} {p' : Interaction Q R ε β}
    (alike : Alike allowed post s p p') {past : List (Event Q R)} (start : matching s past) :
    (run env past p).1 = (run env past p').1 ∧
      ((∃ e, (run env past p).2 = .error e ∧ (run env past p').2 = .error e) ∨
        ∃ t a b, (run env past p).2 = .ok a ∧ (run env past p').2 = .ok b ∧ post t a b) := by
  induction alike generalizing past with
  | @done s a b held => exact ⟨rfl, .inr ⟨s, a, b, rfl, rfl, held⟩⟩
  | stop => exact ⟨rfl, .inl ⟨_, rfl, rfl⟩⟩
  | @ask s q next next' _ ih =>
    obtain ⟨t, may, matching⟩ := keeps s past q start
    exact ih (env past q) t may matching

/-! A program that never ends well once an answer was bad. -/

/-- No way through the program ends with a value, and every early end is a bad one. -/
def Doomed (bad : ε → Prop) : Interaction Q R ε α → Prop
  | done _ => False
  | stop e => bad e
  | ask _ next => ∀ r, (next r).Doomed bad

def Heeds (fine : (q : Q) → R q → Prop) (bad : ε → Prop) : Interaction Q R ε α → Prop
  | done _ => True
  | stop _ => True
  | ask q next => ∀ r, (next r).Heeds fine bad ∧ (¬ fine q r → (next r).Doomed bad)

section Heeding

variable {fine : (q : Q) → R q → Prop} {bad : ε → Prop}

theorem Doomed.seq {p : Interaction Q R ε α} (doomed : p.Doomed bad)
    (f : α → Interaction Q R ε β) : (p >>= f).Doomed bad := by
  show (p.andThen f).Doomed bad
  induction p with
  | done a => exact doomed.elim
  | stop e => exact doomed
  | ask q next ih => exact fun r => ih r (doomed r)

theorem Heeds.seq {p : Interaction Q R ε α} {f : α → Interaction Q R ε β}
    (first : p.Heeds fine bad) (second : ∀ a, (f a).Heeds fine bad) :
    (p >>= f).Heeds fine bad := by
  show (p.andThen f).Heeds fine bad
  induction p with
  | done a => exact second a
  | stop e => trivial
  | ask q next ih =>
    exact fun r => ⟨ih r (first r).1, fun unfit => ((first r).2 unfit).seq f⟩

theorem Heeds.repeated {body : α → Interaction Q R ε α} (once : ∀ a, (body a).Heeds fine bad)
    (n : Nat) (a : α) : (repeated body n a).Heeds fine bad := by
  induction n generalizing a with
  | zero => trivial
  | succ n ih => exact (once a).seq ih

theorem Doomed.run {env : List (Event Q R) → (q : Q) → R q} {p : Interaction Q R ε α}
    (doomed : p.Doomed bad) (past : List (Event Q R)) :
    ∃ e, (run env past p).2 = .error e ∧ bad e := by
  induction p generalizing past with
  | done a => exact doomed.elim
  | stop e => exact ⟨e, rfl, doomed⟩
  | ask q next ih => exact ih (env past q) (doomed (env past q)) _

/-- In a run that does not end badly every answer was fine. -/
theorem Heeds.run {env : List (Event Q R) → (q : Q) → R q} {p : Interaction Q R ε α}
    (heeds : p.Heeds fine bad) (past : List (Event Q R))
    (well : ∀ e, (run env past p).2 = .error e → ¬ bad e) :
    ∀ event ∈ (run env past p).1, event ∈ past ∨ fine event.1 event.2 := by
  induction p generalizing past with
  | done a => exact fun event there => .inl there
  | stop e => exact fun event there => .inl there
  | ask q next ih =>
    have good : fine q (env past q) := by
      refine Classical.byContradiction (fun unfit => ?_)
      obtain ⟨e, ended, ill⟩ := Doomed.run ((heeds (env past q)).2 unfit)
        (past ++ [⟨q, env past q⟩])
      exact well e ended ill
    intro event there
    obtain earlier | held := ih (env past q) (heeds (env past q)).1 _ well event there
    · obtain before | now := List.mem_append.mp earlier
      · exact .inl before
      · cases List.mem_singleton.mp now
        exact .inr good
    · exact .inr held

end Heeding

/-! What a program keeps to, whatever the answers. -/

section Keeping

variable {σ : Type} (may : σ → Q → Prop) (after : σ → (q : Q) → R q → σ)

/-- Every question is one that may be asked where the account stands, and the account is
settled at the end; the account moves with each question and its answer. -/
def Obeys (settled : σ → α → Prop) : σ → Interaction Q R ε α → Prop
  | s, done a => settled s a
  | _, stop _ => True
  | s, ask q next => may s q ∧ ∀ r, (next r).Obeys settled (after s q r)

variable (remark : (q : Q) → Option (R q))

/-- The program without its remarks: questions that have one answer and do not count. -/
def hush : Interaction Q R ε α → Interaction Q R ε α
  | done a => done a
  | stop e => stop e
  | ask q next =>
    match remark q with
    | some r => (next r).hush
    | none => ask q (fun r => (next r).hush)

/-- The first program is the second with remarks added, and it obeys. -/
inductive Adds (post : σ → α → β → Prop) :
    σ → Interaction Q R ε α → Interaction Q R ε β → Prop
  | done {s : σ} {a : α} {b : β} : post s a b → Adds post s (.done a) (.done b)
  | stop {s : σ} {e : ε} : Adds post s (.stop e) (.stop e)
  | ask {s : σ} {q : Q} {next : R q → Interaction Q R ε α} {next' : R q → Interaction Q R ε β} :
      remark q = none → may s q → (∀ r, Adds post (after s q r) (next r) (next' r)) →
      Adds post s (.ask q next) (.ask q next')
  | remark {s : σ} {q : Q} {r : R q} {next : R q → Interaction Q R ε α}
      {p : Interaction Q R ε β} :
      remark q = some r → may s q → (∀ r, Adds post (after s q r) (next r) p) →
      Adds post s (.ask q next) p

variable {may after remark}

theorem Adds.weaken {post post' : σ → α → β → Prop} {s : σ} {p : Interaction Q R ε α}
    {p' : Interaction Q R ε β} (adds : Adds may after remark post s p p')
    (weaker : ∀ s a b, post s a b → post' s a b) : Adds may after remark post' s p p' := by
  induction adds with
  | done held => exact .done (weaker _ _ _ held)
  | stop => exact .stop
  | ask loud right _ ih => exact .ask loud right ih
  | remark quiet right _ ih => exact .remark quiet right ih

theorem Adds.seq {mid : σ → α → β → Prop} {post : σ → γ → δ → Prop} {s : σ}
    {p : Interaction Q R ε α} {p' : Interaction Q R ε β} {f : α → Interaction Q R ε γ}
    {f' : β → Interaction Q R ε δ} (first : Adds may after remark mid s p p')
    (second : ∀ t a b, mid t a b → Adds may after remark post t (f a) (f' b)) :
    Adds may after remark post s (p >>= f) (p' >>= f') := by
  show Adds may after remark post s (p.andThen f) (p'.andThen f')
  induction first with
  | done held => exact second _ _ _ held
  | stop => exact .stop
  | ask loud right _ ih => exact .ask loud right ih
  | remark quiet right _ ih => exact .remark quiet right ih

theorem Adds.hush_eq {post : σ → α → α → Prop} {s : σ} {p p' : Interaction Q R ε α}
    (adds : Adds may after remark post s p p') (same : ∀ s a b, post s a b → a = b) :
    p.hush remark = p' := by
  induction adds with
  | done held => rw [same _ _ _ held]; rfl
  | stop => rfl
  | @ask s q next next' loud _ _ ih =>
    simp only [hush, loud, ask.injEq, heq_eq_eq, true_and]
    funext r
    exact ih r
  | @remark s q r next p quiet _ _ ih => simpa only [hush, quiet] using ih r

theorem Adds.obeys {post : σ → α → β → Prop} {settled : σ → α → Prop} {s : σ}
    {p : Interaction Q R ε α} {p' : Interaction Q R ε β}
    (adds : Adds may after remark post s p p') (enough : ∀ s a b, post s a b → settled s a) :
    p.Obeys may after settled s := by
  induction adds with
  | done held => exact enough _ _ _ held
  | stop => trivial
  | ask _ right _ ih => exact ⟨right, ih⟩
  | remark _ right _ ih => exact ⟨right, ih⟩

/-- Every value the program can end with is one of these. -/
def Yields (good : α → Prop) : Interaction Q R ε α → Prop
  | done a => good a
  | stop _ => True
  | ask _ next => ∀ r, (next r).Yields good

theorem Yields.seq {mid : α → Prop} {good : β → Prop} {p : Interaction Q R ε α}
    {f : α → Interaction Q R ε β} (first : p.Yields mid)
    (second : ∀ a, mid a → (f a).Yields good) : (p >>= f).Yields good := by
  show (p.andThen f).Yields good
  induction p with
  | done a => exact second a first
  | stop e => trivial
  | ask q next ih => exact fun r => ih r (first r)

theorem yields_any (p : Interaction Q R ε α) : p.Yields (fun _ => True) := by
  induction p with
  | done a => trivial
  | stop e => trivial
  | ask q next ih => exact ih

theorem Adds.also {post : σ → α → β → Prop} {good : β → Prop} {s : σ}
    {p : Interaction Q R ε α} {p' : Interaction Q R ε β}
    (adds : Adds may after remark post s p p') (yields : p'.Yields good) :
    Adds may after remark (fun s a b => post s a b ∧ good b) s p p' := by
  induction adds with
  | done held => exact .done ⟨held, yields⟩
  | stop => exact .stop
  | ask loud right _ ih => exact .ask loud right (fun r => ih r (yields r))
  | remark quiet right _ ih => exact .remark quiet right (fun r => ih r yields)

/-- A program without remarks, beside itself. -/
theorem Adds.same {settled : σ → α → Prop} {s : σ} {p : Interaction Q R ε α}
    (obeys : p.Obeys (fun s q => remark q = none ∧ may s q) after settled s) :
    Adds may after remark (fun s a b => settled s a ∧ a = b) s p p := by
  induction p generalizing s with
  | done a => exact .done ⟨obeys, rfl⟩
  | stop e => exact .stop
  | ask q next ih => exact .ask obeys.1.1 obeys.1.2 (fun r => ih r (obeys.2 r))

end Keeping

/-! Ways out: a program stops early as one that throws does. -/

section Ways

variable {σ : Type} {ε' : Type}

/-- Runs a cleanup on every way out, as a destructor does. -/
def ensuring : Interaction Q R ε α → Interaction Q R ε Unit → Interaction Q R ε α
  | done a, cleanup => cleanup.andThen (fun _ => done a)
  | stop e, cleanup => cleanup.andThen (fun _ => stop e)
  | ask q next, cleanup => ask q (fun r => (next r).ensuring cleanup)

def catching : Interaction Q R ε α → (ε → Interaction Q R ε' α) → Interaction Q R ε' α
  | done a, _ => done a
  | stop e, handler => handler e
  | ask q next, handler => ask q (fun r => (next r).catching handler)

/-- How the program has ended, if it has. -/
def ended : Interaction Q R ε α → Option (Except ε α)
  | done a => some (.ok a)
  | stop e => some (.error e)
  | ask _ _ => none

variable (may : σ → Q → Prop) (after : σ → (q : Q) → R q → σ)

/-- As `Obeys`, with the account settled on every way out. -/
def Follows (settled : σ → Except ε α → Prop) : σ → Interaction Q R ε α → Prop
  | s, done a => settled s (.ok a)
  | s, stop e => settled s (.error e)
  | s, ask q next => may s q ∧ ∀ r, (next r).Follows settled (after s q r)

variable {may after}

theorem Follows.weaken {settled settled' : σ → Except ε α → Prop} {s : σ}
    {p : Interaction Q R ε α} (follows : p.Follows may after settled s)
    (weaker : ∀ t result, settled t result → settled' t result) :
    p.Follows may after settled' s := by
  induction p generalizing s with
  | done a => exact weaker s _ follows
  | stop e => exact weaker s _ follows
  | ask q next ih => exact ⟨follows.1, fun r => ih r (follows.2 r)⟩

theorem Follows.seq {mid : σ → Except ε α → Prop} {settled : σ → Except ε β → Prop} {s : σ}
    {p : Interaction Q R ε α} {f : α → Interaction Q R ε β}
    (first : p.Follows may after mid s)
    (second : ∀ t a, mid t (.ok a) → (f a).Follows may after settled t)
    (thrown : ∀ t e, mid t (.error e) → settled t (.error e)) :
    (p >>= f).Follows may after settled s := by
  show (p.andThen f).Follows may after settled s
  induction p generalizing s with
  | done a => exact second s a first
  | stop e => exact thrown s e first
  | ask q next ih => exact ⟨first.1, fun r => ih r (first.2 r)⟩

theorem follows_query {settled : σ → Except ε β → Prop} {s : σ} {q : Q}
    {f : R q → Interaction Q R ε β} (right : may s q)
    (rest : ∀ r, (f r).Follows may after settled (after s q r)) :
    (query q >>= f).Follows may after settled s :=
  ⟨right, rest⟩

theorem Follows.ensuring {mid settled : σ → Except ε α → Prop} {s : σ}
    {p : Interaction Q R ε α} {cleanup : Interaction Q R ε Unit}
    (body : p.Follows may after mid s)
    (clean : ∀ t result, mid t result →
      cleanup.Follows may after (fun u out => out = .ok () ∧ settled u result) t) :
    (p.ensuring cleanup).Follows may after settled s := by
  induction p generalizing s with
  | done a =>
    exact (clean s _ body).seq (fun t _ h => h.2) (fun t e h => by cases h.1)
  | stop e =>
    exact (clean s _ body).seq (fun t _ h => h.2) (fun t e h => by cases h.1)
  | ask q next ih => exact ⟨body.1, fun r => ih r (body.2 r)⟩

theorem Follows.catching {mid : σ → Except ε α → Prop} {settled : σ → Except ε' α → Prop} {s : σ}
    {p : Interaction Q R ε α} {handler : ε → Interaction Q R ε' α}
    (body : p.Follows may after mid s) (good : ∀ t a, mid t (.ok a) → settled t (.ok a))
    (rescue : ∀ t e, mid t (.error e) → (handler e).Follows may after settled t) :
    (p.catching handler).Follows may after settled s := by
  induction p generalizing s with
  | done a => exact good s a body
  | stop e => exact rescue s e body
  | ask q next ih => exact ⟨body.1, fun r => ih r (body.2 r)⟩

theorem Follows.repeated {body : α → Interaction Q R ε α} {inv : σ → Except ε α → Prop}
    (once : ∀ s a, inv s (.ok a) → (body a).Follows may after inv s) (n : Nat) {s : σ} {a : α}
    (held : inv s (.ok a)) : (repeated body n a).Follows may after inv s := by
  induction n generalizing s a with
  | zero => exact held
  | succ n ih => exact (once s a held).seq (fun t b => ih) (fun t e h => h)

end Ways

end Interaction
