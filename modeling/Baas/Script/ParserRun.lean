import Baas.Script.Parser

/-! The parser reads its tokens to the end, whatever they are. -/
namespace Baas.Parser

open Baas.Script (Bytes)
open Baas.Lexer (Token TokenKind)
open Baas.Ast (Expression Parameter CallArgument Block Statement BinaryOperator)
open Program

/-- The engine stands on a token, and the last token is the end of the file. -/
structure Sound (e : Engine) : Prop where
  ends : ∃ init last, e.tokens = init ++ [last] ∧ last.kind = .endOfFile
  inside : e.current < e.tokens.length

/-- The engine has moved on from `s` to `t`, past no end of the file, and is in the same
context. -/
structure Leads (s t : Engine) : Prop where
  tokens : t.tokens = s.tokens
  forward : s.current ≤ t.current
  passed : ∀ i, s.current ≤ i → i < t.current → (s.tokenAt i).kind ≠ .endOfFile
  loopDepth : t.loopDepth = s.loopDepth
  functionDepth : t.functionDepth = s.functionDepth
  inAsyncFunction : t.inAsyncFunction = s.inAsyncFunction

theorem Leads.refl (s : Engine) : Leads s s :=
  ⟨rfl, Nat.le_refl _, fun _ from_ below => absurd from_ (Nat.not_le.mpr below), rfl, rfl, rfl⟩

theorem Leads.trans {s t u : Engine} (first : Leads s t) (second : Leads t u) : Leads s u := by
  refine ⟨second.tokens.trans first.tokens, Nat.le_trans first.forward second.forward, ?_,
    second.loopDepth.trans first.loopDepth, second.functionDepth.trans first.functionDepth,
    second.inAsyncFunction.trans first.inAsyncFunction⟩
  intro i from_ below
  by_cases early : i < t.current
  · exact first.passed i from_ early
  · have later := second.passed i (Nat.not_lt.mp early) below
    unfold Engine.tokenAt at later ⊢
    rwa [first.tokens] at later

def Engine.left (e : Engine) : Nat := e.tokens.length - e.current

theorem Leads.falls {s t : Engine} (leads : Leads s t) : t.left ≤ s.left := by
  have forward := leads.forward
  unfold Engine.left
  rw [leads.tokens]
  omega

/-- The tokens that are left. -/
def meter (expected : Stop → Prop) : Meter Engine Stop where
  left := Engine.left
  sound := Sound
  leads := Leads
  expected := expected
  refl := Leads.refl
  trans := Leads.trans
  falls := Leads.falls

/-- For a construct, which may fail. -/
abbrev reading : Meter Engine Stop := meter fun stop => stop = .parseFailure

variable {α β γ : Type} {e s t : Engine} {b n : Nat} {p : Stop → Prop}

theorem Sound.peek (sound : Sound e) : e.peek = e.tokenAt e.current := by
  have inside := sound.inside
  rw [Engine.peek, Engine.peekAt, Nat.add_zero, Nat.min_eq_left (by omega)]

/-- There is another token behind one that is not the end. -/
theorem Sound.next (sound : Sound e) (more : e.atEnd = false) :
    e.current + 1 < e.tokens.length := by
  obtain ⟨init, last, shape, kind⟩ := sound.ends
  have inside := sound.inside
  have here := sound.peek
  rw [Engine.atEnd, here] at more
  refine Nat.lt_of_le_of_ne inside fun final => ?_
  have place : e.current = init.length := by
    rw [shape, List.length_append, List.length_singleton] at final
    omega
  rw [Engine.tokenAt, shape, place] at more
  simp [kind] at more

theorem Sound.congr (sound : Sound s) (tokens : t.tokens = s.tokens)
    (current : t.current = s.current) : Sound t := by
  obtain ⟨ends, inside⟩ := sound
  rw [← tokens] at ends inside
  rw [← current] at inside
  exact ⟨ends, inside⟩

/-- One token further. -/
theorem stepped (sound : Sound e) (more : e.atEnd = false) :
    Sound { e with current := e.current + 1 } ∧ Leads e { e with current := e.current + 1 } ∧
      Engine.left { e with current := e.current + 1 } + 1 ≤ Engine.left e := by
  have next := sound.next more
  refine ⟨⟨sound.ends, next⟩, ⟨rfl, Nat.le_succ _, fun i from_ below => ?_, rfl, rfl, rfl⟩, ?_⟩
  · have same : i = e.current := by
      change i < e.current + 1 at below
      omega
    rw [Engine.atEnd, sound.peek] at more
    rw [same]
    exact of_decide_eq_false more
  · change e.tokens.length - (e.current + 1) + 1 ≤ e.tokens.length - e.current
    omega

theorem advance_sound (sound : Sound e) : Sound e.advance ∧ Leads e e.advance := by
  unfold Engine.advance
  cases ended : e.atEnd with
  | true => exact ⟨sound, Leads.refl e⟩
  | false => exact ⟨(stepped sound ended).1, (stepped sound ended).2.1⟩

theorem check_more {kind : TokenKind} (found : e.check kind = true)
    (proper : kind ≠ .endOfFile) : e.atEnd = false := by
  rw [Engine.check, decide_eq_true_eq] at found
  rw [Engine.atEnd, found]
  exact decide_eq_false proper

theorem advance_moved (sound : Sound e) (more : e.atEnd = false) :
    Engine.left e.advance + 1 ≤ Engine.left e := by
  rw [Engine.advance, more]
  exact (stepped sound more).2.2

theorem advance_ends : Ends (meter p) b advance :=
  (ends_modify fun _ sound => advance_sound sound).then fun _ => ends_query

theorem error_ends (code message : String) (span : Script.SourceSpan) :
    Ends (meter p) b (error code message span) :=
  ends_modify fun _ sound => ⟨sound.congr rfl rfl, ⟨rfl, Nat.le_refl _,
    fun _ from_ below => absurd from_ (Nat.not_le.mpr below), rfl, rfl, rfl⟩⟩

theorem errorIf_ends {c : Prop} [Decidable c] (code message : String) (span : Script.SourceSpan) :
    Ends (meter p) b (runIf c (error code message span)) :=
  spends_ite (error_ends code message span) (ends_pure ())

theorem matchKind_spends {kind : TokenKind} (proper : kind ≠ .endOfFile) :
    Spends (meter p) b (matchKind kind) Bool.toNat := by
  intro s sound _
  unfold matchKind
  cases found : s.check kind with
  | true =>
    rw [bind_of_ok (show check kind s = (.ok true, s) by rw [check, query, found])]
    have more := check_more found proper
    exact ⟨(advance_sound sound).1, (advance_sound sound).2, advance_moved sound more⟩
  | false =>
    rw [bind_of_ok (show check kind s = (.ok false, s) by rw [check, query, found])]
    exact ⟨sound, Leads.refl s, Nat.le_refl _⟩

theorem consume_moves {kind : TokenKind} (proper : kind ≠ .endOfFile) (message : String) :
    Moves reading b (consume kind message) := by
  intro s sound _
  unfold consume
  cases found : s.check kind with
  | true =>
    rw [bind_of_ok (show check kind s = (.ok true, s) by rw [check, query, found])]
    have more := check_more found proper
    exact ⟨(advance_sound sound).1, (advance_sound sound).2, advance_moved sound more⟩
  | false =>
    rw [bind_of_ok (show check kind s = (.ok false, s) by rw [check, query, found])]
    exact ⟨rfl, sound.congr rfl rfl, ⟨rfl, Nat.le_refl _,
      fun _ from_ below => absurd from_ (Nat.not_le.mpr below), rfl, rfl, rfl⟩⟩

theorem loop_ends {body : β → Parse (Round β α)}
    (each : ∀ x, Spends (meter p) b (body x) Round.price) (x : β) : Ends (meter p) b (loop body x) := by
  intro s sound below
  have ended := rounds_end Stop.outOfFuel each (s.tokens.length + 1) x s sound below
    (show s.tokens.length - s.current < s.tokens.length + 1 by omega)
  have unfolded : loop body x s = rounds Stop.outOfFuel body (s.tokens.length + 1) x s := rfl
  rw [unfolded]
  split at ended
  · exact ⟨ended.1, ended.2, ended.2.falls⟩
  · exact ended

/-! Recovery. -/

theorem synchronizeRound_spends (x : Unit) :
    Spends (meter p) b (synchronizeRound x) Round.price := by
  intro s sound _
  unfold synchronizeRound
  rw [bind_of_ok (show read s = (.ok s, s) from rfl)]
  cases ended : s.atEnd with
  | true => exact ⟨sound, Leads.refl s, Nat.le_refl _⟩
  | false =>
    have moved := advance_moved sound ended
    obtain ⟨sound', leads⟩ := advance_sound sound
    have still := (⟨sound, Leads.refl s, Nat.le_refl _⟩ : Sound s ∧ Leads s s ∧
      Engine.left s + 0 ≤ Engine.left s)
    simp only [Bool.false_eq_true, if_false]
    by_cases brace : s.check .rightBrace = true
    · rw [if_pos brace]
      exact still
    · by_cases starts : startsStatement s.peek.kind = true
      · rw [if_neg brace, if_pos starts]
        exact still
      · rw [if_neg brace, if_neg starts]
        rw [bind_of_ok (show advance s = (.ok s.advance.previous, s.advance) from rfl)]
        by_cases close : s.advance.previous.kind = .semicolon
        · rw [if_pos close]
          exact ⟨sound', leads, leads.falls⟩
        · rw [if_neg close]
          exact ⟨sound', leads, moved⟩

theorem synchronize_ends : Ends (meter p) b synchronize :=
  ends_read.then fun _ => spends_ite (ends_pure ()) (spends_ite (ends_pure ())
    (loop_ends synchronizeRound_spends ()))

theorem recovering_ends {statement : Parse Statement} (ends : Ends reading b statement)
    (statements : List Statement) : Ends (meter p) b (recovering statement statements) := by
  refine Ends.catching (p := fun stop => stop = .parseFailure)
    (ends.then fun _ => ends_pure _) fun stop expected => ?_
  cases (expected : stop = .parseFailure)
  exact synchronize_ends.then fun _ => ends_pure _

/-- A guard that looks at the next token only, and holds at the end. -/
structure Guards (stops : Engine → Bool) : Prop where
  peeks : ∀ {s t : Engine}, t.tokens = s.tokens → t.current = s.current → stops t = stops s
  ends : ∀ {e : Engine}, stops e = false → e.atEnd = false

theorem peek_congr (tokens : t.tokens = s.tokens) (current : t.current = s.current) :
    t.peek = s.peek := by
  unfold Engine.peek Engine.peekAt Engine.tokenAt
  rw [tokens, current]

theorem guards_atEnd : Guards Engine.atEnd where
  peeks tokens current := by
    unfold Engine.atEnd
    rw [peek_congr tokens current]
  ends more := more

theorem guards_endsBlock : Guards endsBlock where
  peeks tokens current := by
    unfold endsBlock Engine.check Engine.atEnd
    rw [peek_congr tokens current]
  ends more := (Bool.or_eq_false_iff.mp more).2

/-- Whatever a statement did, the engine has moved on behind `force`. -/
theorem force_moves {stops : Engine → Bool} (guards : Guards stops) (more : stops s = false)
    (sound : Sound t) (leads : Leads s t) :
    ∃ u, force s.current stops t = (.ok (), u) ∧ Sound u ∧ Leads s u ∧
      Engine.left u + 1 ≤ Engine.left s := by
  refine ⟨_, rfl, ?_⟩
  dsimp only
  by_cases still : t.current = s.current
  · have again : stops t = false := (guards.peeks leads.tokens still).trans more
    rw [if_pos ⟨still, again⟩]
    obtain ⟨sound', leads', moved⟩ := stepped sound (guards.ends again)
    exact ⟨sound', leads.trans leads', Nat.le_trans moved (leads.falls)⟩
  · rw [if_neg fun both => still both.1]
    refine ⟨sound, leads, ?_⟩
    have forward := leads.forward
    have inside := sound.inside
    change t.tokens.length - t.current + 1 ≤ s.tokens.length - s.current
    rw [leads.tokens] at inside ⊢
    omega

/-- The rounds of the loops over statements. -/
theorem statements_spends {statement : Parse Statement} (ends : Ends reading b statement)
    {stops : Engine → Bool} (guards : Guards stops) (statements : List Statement) :
    Spends (meter p) b (do
      let before ← read
      if stops before then pure (.last statements)
      else
        let statements ← recovering statement statements
        force before.current stops
        pure (.again statements) : Parse (Round (List Statement) (List Statement)))
      Round.price := by
  intro s sound below
  rw [bind_of_ok (show read s = (.ok s, s) from rfl)]
  cases more : stops s with
  | true => exact ⟨sound, Leads.refl s, Nat.le_refl _⟩
  | false =>
    simp only [Bool.false_eq_true, if_false]
    have recovered := recovering_ends ends statements s sound below
    cases ran : recovering statement statements s with
    | mk outcome t =>
      rw [ran] at recovered
      cases outcome with
      | error e =>
        rw [bind_of_error ran]
        exact recovered
      | ok statements =>
        obtain ⟨sound', leads, -⟩ := recovered
        obtain ⟨u, forced, after⟩ := force_moves guards more sound' leads
        rw [bind_of_ok ran, bind_of_ok forced]
        exact after

/-! Every construct. -/

/-- Calls that read on from where less than `n` is left, and fail in no other way. -/
structure Good (r : Calls) (n : Nat) : Prop where
  statement : Moves reading n r.statement
  expression : Moves reading n r.expression
  unary : Moves reading n r.unary

variable {strtod : Bytes → Binary64 × Nat} {r : Calls}

/-- A choice by the next token, which is read then. -/
theorem choose {kind : TokenKind} {next : Bool → Parse β} {value : β → Nat} {c : Nat}
    (proper : kind ≠ .endOfFile) (bound : b - 1 ≤ c) (small : ∀ x, value x ≤ 1)
    (yes : Ends reading c (next true)) (no : Spends reading b (next false) value) :
    Spends reading b (matchKind kind >>= next) value :=
  (matchKind_spends proper).branch bound small yes no

/-- A choice that needs not move. -/
theorem choose_ends {kind : TokenKind} {next : Bool → Parse β} (proper : kind ≠ .endOfFile)
    (yes : Ends reading b (next true)) (no : Ends reading b (next false)) :
    Ends reading b (matchKind kind >>= next) :=
  choose proper (Nat.sub_le b 1) (fun _ => Nat.zero_le 1) yes no

theorem another_ends {close : TokenKind} : Ends reading b (another close) :=
  choose_ends (by decide) (ends_query.then fun _ => ends_pure _) (ends_pure _)

theorem expressionUnless_ends (good : Good r n) (kinds : List TokenKind) :
    Ends reading n (expressionUnless r kinds) :=
  ends_read.then fun _ => spends_ite (ends_pure _) (good.expression.then fun _ => ends_pure _)

theorem block_ends (good : Good r n) (start : Token) : Ends reading n (block r start) :=
  (loop_ends (statements_spends good.statement.ends guards_endsBlock) []).then fun _ =>
    (consume_moves (by decide) _).then fun _ => ends_pure _

theorem requiredBlock_ends (good : Good r n) (message : String) :
    Ends reading n (requiredBlock r message) :=
  (consume_moves (by decide) _).then fun start => block_ends good start

theorem parameterRound_spends (good : Good r n) (so : Parameters) :
    Spends reading n (parameterRound r so) Round.price := by
  refine (consume_moves (by decide) _).step (Nat.sub_le n 1) Round.price_le fun name => ?_
  refine Ends.then ?_ fun given => ?_
  · refine choose_ends (by decide) (good.expression.then fun _ => ends_pure _) ?_
    exact (errorIf_ends _ _ _).then fun _ => ends_pure _
  · refine (errorIf_ends _ _ _).then fun _ => another_ends.then fun more => ?_
    exact spends_ite (ends_pure _) (ends_pure _)

/-- A list that may be empty. -/
theorem items_ends {close : TokenKind} {body : β → Parse (Round β (List α))}
    (each : ∀ x, Spends reading b (body x) Round.price) (x : β) {next : List α → Parse γ}
    (rest : ∀ items, Ends reading b (next items)) :
    Ends reading b (do
      let items ← if ← check close then pure [] else loop body x
      next items) :=
  ends_query.then fun _ =>
    spends_ite ((ends_pure _).then rest) ((loop_ends each x).then rest)

theorem parameters_ends (good : Good r n) : Ends reading n (parameters r) :=
  (consume_moves (by decide) _).then fun _ => items_ends (parameterRound_spends good) _
    fun _ => (consume_moves (by decide) _).then fun _ => ends_pure _

theorem loopContext_ends {m : Parse α} (ends : Ends reading b m) : Ends reading b (loopContext m) := by
  refine Spends.between ends (fun s sound => ⟨sound.congr rfl rfl, rfl⟩) fun s t sound leads => ?_
  refine ⟨sound.congr rfl rfl, ⟨leads.tokens, leads.forward, leads.passed, ?_,
    leads.functionDepth, leads.inAsyncFunction⟩, rfl⟩
  have depth : t.loopDepth = s.loopDepth + 1 := leads.loopDepth
  change t.loopDepth - 1 = s.loopDepth
  omega

theorem functionContext_ends {m : Parse α} (isAsync : Bool) (ends : Ends reading b m) :
    Ends reading b (functionContext isAsync m) := by
  refine Spends.between ends (fun s sound => ⟨sound.congr rfl rfl, rfl⟩) fun s t sound leads => ?_
  refine ⟨sound.congr rfl rfl, ⟨leads.tokens, leads.forward, leads.passed, rfl, ?_, rfl⟩, rfl⟩
  have depth : t.functionDepth = s.functionDepth + 1 := leads.functionDepth
  change t.functionDepth - 1 = s.functionDepth
  omega

theorem functionBody_ends (good : Good r n) (isAsync : Bool) :
    Ends reading n (functionBody r isAsync) :=
  (consume_moves (by decide) _).then fun start => functionContext_ends isAsync (block_ends good start)

theorem argumentRound_spends (good : Good r n) (so : Arguments) :
    Spends reading n (argumentRound r so) Round.price := by
  refine ends_query.then fun start => ?_
  refine Ends.then ?_ fun named => ?_
  · refine ends_query.then fun _ => ends_query.then fun _ => spends_ite ?_ ?_
    · exact advance_ends.then fun name => advance_ends.then fun _ =>
        (errorIf_ends _ _ _).then fun _ => ends_pure _
    · exact ends_query.then fun _ => (errorIf_ends _ _ _).then fun _ => ends_pure _
  · refine good.expression.step (Nat.sub_le n 1) Round.price_le fun value => ?_
    exact another_ends.then fun more => spends_ite (ends_pure _) (ends_pure _)

theorem finishCall_ends (good : Good r n) (callee : Expression) :
    Ends reading n (finishCall r callee) :=
  items_ends (argumentRound_spends good) _ fun _ =>
    (consume_moves (by decide) _).then fun _ => ends_pure _

theorem finishIndex_ends (object : Expression) (first : Option Expression) :
    Ends reading b (finishIndex object first) := by
  cases first with
  | none => exact ends_query.then fun _ => (error_ends _ _ _).then fun _ => spends_raise rfl
  | some position => exact (consume_moves (by decide) _).then fun _ => ends_pure _

theorem finishSubscript_ends (good : Good r n) (object : Expression) :
    Ends reading n (finishSubscript r object) := by
  refine (expressionUnless_ends good _).then fun first => ?_
  refine choose_ends (by decide) ?_ (finishIndex_ends object first)
  refine (expressionUnless_ends good _).then fun stop => ?_
  have close (step : Option Expression) : Ends reading n (do
      let close ← consume .rightBracket "expected ']' after slice"
      pure (Expression.slice (joined object.span close.span) object first stop step)) :=
    (consume_moves (by decide) _).then fun _ => ends_pure _
  refine choose_ends (by decide) ?_ ?_
  · exact (expressionUnless_ends good _).then close
  · exact (ends_pure none).then close

theorem elementRound_spends (good : Good r n) (elements : List Expression) :
    Spends reading n (elementRound r elements) Round.price := by
  refine good.expression.step (Nat.sub_le n 1) Round.price_le fun element => ?_
  exact another_ends.then fun more => spends_ite (ends_pure _) (ends_pure _)

theorem listLiteral_ends (good : Good r n) (start : Token) : Ends reading n (listLiteral r start) :=
  items_ends (elementRound_spends good) _ fun _ =>
    (consume_moves (by decide) _).then fun _ => ends_pure _

theorem entryRound_spends (good : Good r n) (entries : List Ast.MapEntry) :
    Spends reading n (entryRound r entries) Round.price := by
  refine good.expression.step (Nat.sub_le n 1) Round.price_le fun key => ?_
  refine (consume_moves (by decide) _).then fun _ => good.expression.then fun value => ?_
  exact another_ends.then fun more => spends_ite (ends_pure _) (ends_pure _)

theorem mapLiteral_ends (good : Good r n) (start : Token) : Ends reading n (mapLiteral r start) :=
  items_ends (entryRound_spends good) _ fun _ =>
    (consume_moves (by decide) _).then fun _ => ends_pure _

theorem functionExpression_ends (good : Good r n) (start : Token) (isAsync : Bool) :
    Ends reading n (functionExpression r start isAsync) :=
  (parameters_ends good).then fun _ => (functionBody_ends good isAsync).then fun _ => ends_pure _

theorem grouped_ends (good : Good r n) : Ends reading n (grouped r) :=
  good.expression.then fun _ => (consume_moves (by decide) _).then fun _ => ends_pure _

theorem integerLiteral_ends (token : Token) : Ends reading b (integerLiteral token) :=
  (errorIf_ends _ _ _).then fun _ => ends_pure _

theorem floatLiteral_ends (token : Token) : Ends reading b (floatLiteral strtod token) :=
  (errorIf_ends _ _ _).then fun _ => ends_pure _

/-- One of the alternatives at the start of a construct: behind its token there is less left. -/
theorem start_choice {kind : TokenKind} {next : Bool → Parse β} (proper : kind ≠ .endOfFile)
    (yes : Ends reading n (next true)) (no : Moves reading (n + 1) (next false)) :
    Moves reading (n + 1) (matchKind kind >>= next) :=
  choose proper (Nat.le_refl n) (fun _ => Nat.le_refl 1) yes no

theorem primary_moves (good : Good r n) : Moves reading (n + 1) (primary strtod r) := by
  have literal {f : Token → Expression} : Ends reading n (do pure (f (← previous))) :=
    ends_query.then fun _ => ends_pure _
  refine start_choice (by decide) literal ?_
  refine start_choice (by decide) literal ?_
  refine start_choice (by decide) literal ?_
  refine start_choice (by decide) literal ?_
  refine start_choice (by decide) (ends_query.then integerLiteral_ends) ?_
  refine start_choice (by decide) (ends_query.then floatLiteral_ends) ?_
  refine start_choice (by decide) literal ?_
  refine start_choice (by decide) (grouped_ends good) ?_
  refine start_choice (by decide) (ends_query.then (listLiteral_ends good)) ?_
  refine start_choice (by decide) (ends_query.then (mapLiteral_ends good)) ?_
  refine start_choice (by decide)
    (ends_query.then fun start => functionExpression_ends good start false) ?_
  refine start_choice (by decide) ?_ ?_
  · exact ends_query.then fun start => (consume_moves (by decide) _).then fun _ =>
      functionExpression_ends good start true
  · exact ends_query.then fun _ => (error_ends _ _ _).then fun _ => spends_raise rfl

theorem postfixRound_spends (good : Good r n) (result : Expression) :
    Spends reading n (postfixRound r result) Round.price := by
  refine choose (by decide) (Nat.sub_le n 1) Round.price_le ?_ ?_
  · exact (consume_moves (by decide) _).then fun _ => ends_pure _
  refine choose (by decide) (Nat.sub_le n 1) Round.price_le ?_ ?_
  · exact (finishCall_ends good result).then fun _ => ends_pure _
  refine choose (by decide) (Nat.sub_le n 1) Round.price_le ?_ (spends_last _)
  exact (finishSubscript_ends good result).then fun _ => ends_pure _

theorem postfixed_moves (good : Good r n) : Moves reading (n + 1) (postfixed strtod r) :=
  (primary_moves good).step (Nat.le_refl n) (fun _ => Nat.le_refl 1) fun result =>
    loop_ends (postfixRound_spends good) result

theorem power_moves (good : Good r n) : Moves reading (n + 1) (power strtod r) := by
  refine (postfixed_moves good).step (Nat.le_refl n) (fun _ => Nat.le_refl 1) fun left => ?_
  exact choose_ends (by decide) (good.unary.then fun _ => ends_pure _) (ends_pure _)

theorem matchAny_spends {kinds : List TokenKind} (proper : ∀ kind ∈ kinds, kind ≠ .endOfFile) :
    Spends reading b (matchAny kinds) Bool.toNat := by
  induction kinds with
  | nil => exact ends_pure false
  | cons kind kinds ih =>
    refine Spends.bind (matchKind_spends (proper kind List.mem_cons_self)) fun found => ?_
    cases found with
    | true => exact ends_pure true
    | false => exact ih fun kind known => proper kind (List.mem_cons_of_mem _ known)

theorem unary_moves (good : Good r n) : Moves reading (n + 1) (unary strtod r) := by
  refine (matchAny_spends (by decide)).branch (Nat.le_refl n) (fun _ => Nat.le_refl 1) ?_ ?_
  · exact ends_query.then fun _ => good.unary.then fun _ => ends_pure _
  · refine start_choice (by decide) ?_ (power_moves good)
    exact ends_query.then fun _ => ends_read.then fun _ => (errorIf_ends _ _ _).then fun _ =>
      good.unary.then fun _ => ends_pure _

theorem matchOperator_ends {operators : List (TokenKind × α)}
    (proper : ∀ operator ∈ operators, operator.1 ≠ .endOfFile) :
    Ends reading b (matchOperator operators) := by
  induction operators with
  | nil => exact ends_pure none
  | cons operator operators ih =>
    exact choose_ends (proper operator List.mem_cons_self) (ends_pure _)
      (ih fun operator known => proper operator (List.mem_cons_of_mem _ known))

theorem matchOrNot_ends {operators : List (TokenKind × BinaryOperator)}
    (proper : ∀ operator ∈ operators, operator.1 ≠ .endOfFile) (word : TokenKind)
    (negated : BinaryOperator) : Ends reading b (matchOrNot operators word negated) := by
  refine (matchOperator_ends proper).then fun found => ?_
  cases found with
  | some operation => exact ends_pure _
  | none =>
    refine ends_query.then fun _ => ends_query.then fun _ => spends_ite ?_ (ends_pure _)
    exact advance_ends.then fun _ => advance_ends.then fun _ => ends_pure _

theorem binaryRound_spends {operation : Parse (Option BinaryOperator)} {next : Parse Expression}
    (operator : Ends reading b operation) (operand : Moves reading b next) (left : Expression) :
    Spends reading b (binaryRound operation next left) Round.price := by
  refine operator.then fun found => ?_
  cases found with
  | none => exact spends_last _
  | some operation =>
    exact operand.step (Nat.sub_le b 1) Round.price_le fun right => ends_pure _

theorem binaryLoop_moves {operation : Parse (Option BinaryOperator)} {next : Parse Expression}
    (operator : Ends reading n operation) (operand : Moves reading (n + 1) next) :
    Moves reading (n + 1) (binaryLoop operation next) :=
  operand.step (Nat.le_refl n) (fun _ => Nat.le_refl 1) fun left =>
    loop_ends (binaryRound_spends operator (operand.within (Nat.le_succ n))) left

theorem multiplicative_moves (good : Good r n) :
    Moves reading (n + 1) (multiplicative strtod r) :=
  binaryLoop_moves (matchOperator_ends (by decide)) (unary_moves good)

theorem additive_moves (good : Good r n) : Moves reading (n + 1) (additive strtod r) :=
  binaryLoop_moves (matchOperator_ends (by decide)) (multiplicative_moves good)

theorem ordering_moves (good : Good r n) : Moves reading (n + 1) (ordering strtod r) :=
  binaryLoop_moves (matchOrNot_ends (by decide) _ _) (additive_moves good)

theorem equality_moves (good : Good r n) : Moves reading (n + 1) (equality strtod r) :=
  binaryLoop_moves (matchOrNot_ends (by decide) _ _) (ordering_moves good)

theorem logicalAnd_moves (good : Good r n) : Moves reading (n + 1) (logicalAnd strtod r) :=
  binaryLoop_moves (matchOperator_ends (by decide)) (equality_moves good)

theorem logicalOr_moves (good : Good r n) : Moves reading (n + 1) (logicalOr strtod r) :=
  binaryLoop_moves (matchOperator_ends (by decide)) (logicalAnd_moves good)

theorem expression_moves (good : Good r n) : Moves reading (n + 1) (expression strtod r) := by
  refine (logicalOr_moves good).step (Nat.le_refl n) (fun _ => Nat.le_refl 1) fun target => ?_
  refine (matchOperator_ends (by decide)).then fun found => ?_
  cases found with
  | none => exact ends_pure _
  | some operation =>
    exact ends_query.then fun _ => good.expression.then fun _ =>
      (errorIf_ends _ _ _).then fun _ => ends_pure _

theorem letStatement_ends (good : Good r n) (start : Token) :
    Ends reading n (letStatement r start) :=
  (consume_moves (by decide) _).then fun _ => (consume_moves (by decide) _).then fun _ =>
    good.expression.then fun _ => (consume_moves (by decide) _).then fun _ => ends_pure _

theorem parenthesizedCondition_ends (good : Good r n) (construct : String) :
    Ends reading n (parenthesizedCondition r construct) :=
  (consume_moves (by decide) _).then fun _ => good.expression.then fun _ =>
    (consume_moves (by decide) _).then fun _ => ends_pure _

theorem ifStatement_ends (good : Good r n) (start : Token) :
    Ends reading n (ifStatement r start) := by
  refine (parenthesizedCondition_ends good _).then fun condition => ?_
  refine good.statement.then fun consequent => choose_ends (by decide) ?_ (ends_pure _)
  exact (good.statement.then fun _ => ends_pure _).then fun _ => ends_pure _

theorem whileStatement_ends (good : Good r n) (start : Token) :
    Ends reading n (whileStatement r start) :=
  (parenthesizedCondition_ends good _).then fun _ =>
    (loopContext_ends good.statement.ends).then fun _ => ends_pure _

theorem forStatement_ends (good : Good r n) (start : Token) :
    Ends reading n (forStatement r start) :=
  (consume_moves (by decide) _).then fun _ => (consume_moves (by decide) _).then fun _ =>
    (consume_moves (by decide) _).then fun _ => good.expression.then fun _ =>
      (consume_moves (by decide) _).then fun _ =>
        (loopContext_ends good.statement.ends).then fun _ => ends_pure _

theorem functionDeclaration_moves (good : Good r n) (start : Token) (isAsync : Bool) :
    Moves reading (n + 1) (functionDeclaration r start isAsync) :=
  (consume_moves (by decide) _).step (Nat.le_refl n) (fun _ => Nat.le_refl 1) fun _ =>
    (parameters_ends good).then fun _ => (functionBody_ends good isAsync).then fun _ => ends_pure _

theorem returnStatement_ends (good : Good r n) (start : Token) :
    Ends reading n (returnStatement r start) :=
  ends_read.then fun _ => (errorIf_ends _ _ _).then fun _ =>
    (expressionUnless_ends good _).then fun _ =>
      (consume_moves (by decide) _).then fun _ => ends_pure _

theorem loopExit_ends (code outside incomplete : String) (start : Token) :
    Ends reading b (loopExit code outside incomplete start) :=
  ends_read.then fun _ => (errorIf_ends _ _ _).then fun _ =>
    (consume_moves (by decide) _).then fun _ => ends_pure _

theorem importStatement_ends (start : Token) : Ends reading b (importStatement start) :=
  (consume_moves (by decide) _).then fun _ => (consume_moves (by decide) _).then fun _ =>
    (consume_moves (by decide) _).then fun _ => (consume_moves (by decide) _).then fun _ =>
      ends_pure _

theorem throwStatement_ends (good : Good r n) (start : Token) :
    Ends reading n (throwStatement r start) :=
  good.expression.then fun _ => (consume_moves (by decide) _).then fun _ => ends_pure _

theorem tryStatement_ends (good : Good r n) (start : Token) :
    Ends reading n (tryStatement r start) := by
  refine (requiredBlock_ends good _).then fun tryBlock => ?_
  refine (consume_moves (by decide) _).then fun _ => ?_
  refine (matchKind_spends (by decide)).then fun parenthesized => ?_
  refine (consume_moves (by decide) _).then fun binding => ?_
  have rest {f : Block → Statement} : Ends reading n (do
      let catchBlock ← requiredBlock r "expected '\x7b' after catch binding"
      pure (f catchBlock)) :=
    (requiredBlock_ends good _).then fun _ => ends_pure _
  exact spends_ite ((consume_moves (by decide) _).then fun _ => rest) rest

theorem deferStatement_ends (good : Good r n) (start : Token) :
    Ends reading n (deferStatement r start) :=
  ends_read.then fun _ => (errorIf_ends _ _ _).then fun _ =>
    good.statement.then fun _ => ends_pure _

theorem expressionStatement_moves (good : Good r n) :
    Moves reading (n + 1) (expressionStatement strtod r) :=
  (expression_moves good).step (Nat.le_refl n) (fun _ => Nat.le_refl 1) fun _ =>
    (consume_moves (by decide) _).then fun _ => ends_pure _

theorem otherStatement_moves (good : Good r n) :
    Moves reading (n + 1) (otherStatement strtod r) := by
  have exit {code outside incomplete : String} {f : Script.SourceSpan → Statement} :
      Ends reading n (do pure (f (← loopExit code outside incomplete (← previous)))) :=
    ends_query.then fun start => (loopExit_ends _ _ _ start).then fun _ => ends_pure _
  refine start_choice (by decide) (ends_query.then (returnStatement_ends good)) ?_
  refine start_choice (by decide) exit ?_
  refine start_choice (by decide) exit ?_
  refine start_choice (by decide) (ends_query.then importStatement_ends) ?_
  refine start_choice (by decide) (ends_query.then (throwStatement_ends good)) ?_
  refine start_choice (by decide) (ends_query.then (tryStatement_ends good)) ?_
  refine start_choice (by decide) (ends_query.then (deferStatement_ends good)) ?_
  exact expressionStatement_moves good

theorem statement_moves (good : Good r n) : Moves reading (n + 1) (statement strtod r) := by
  refine start_choice (by decide) ?_ ?_
  · exact ends_query.then fun start => (block_ends good start).then fun _ => ends_pure _
  refine start_choice (by decide) (ends_query.then (letStatement_ends good)) ?_
  refine start_choice (by decide) (ends_query.then (ifStatement_ends good)) ?_
  refine start_choice (by decide) (ends_query.then (whileStatement_ends good)) ?_
  refine start_choice (by decide) (ends_query.then (forStatement_ends good)) ?_
  refine ends_read.then fun _ => spends_ite ?_ ?_
  · exact advance_ends.then fun start => advance_ends.then fun _ =>
      functionDeclaration_moves good start true
  refine ends_read.then fun _ => spends_ite ?_ (otherStatement_moves good)
  exact advance_ends.then fun start => functionDeclaration_moves good start false

/-- Calls nested so deep read every program with fewer tokens. -/
theorem calls_good (strtod : Bytes → Binary64 × Nat) : ∀ n, Good (calls strtod n) n
  | 0 => ⟨fun _ _ none => absurd none (Nat.not_lt_zero _),
      fun _ _ none => absurd none (Nat.not_lt_zero _),
      fun _ _ none => absurd none (Nat.not_lt_zero _)⟩
  | n + 1 =>
    have good := calls_good strtod n
    ⟨statement_moves good, expression_moves good, unary_moves good⟩

/-! Programs. -/

theorem runRound_last {statements last : List Statement}
    (ran : runRound r statements s = (.ok (.last last), t)) : t.atEnd = true := by
  unfold runRound at ran
  rw [bind_of_ok (show read s = (.ok s, s) from rfl)] at ran
  cases ended : s.atEnd with
  | true =>
    rw [ended] at ran
    cases ran
    exact ended
  | false =>
    rw [ended] at ran
    simp only [Bool.false_eq_true, if_false] at ran
    cases once : recovering r.statement statements s with
    | mk outcome u =>
      cases outcome with
      | error e =>
        rw [bind_of_error once] at ran
        cases ran
      | ok more =>
        rw [bind_of_ok once] at ran
        cases ran

theorem run_reads (sound : Sound e) (good : Good r n) (below : e.left < n) :
    ∃ program t, run r e = (.ok program, t) ∧ Sound t ∧ Leads e t ∧ t.atEnd = true := by
  have ended : Ends (meter fun _ => False) n (loop (runRound r) []) :=
    loop_ends (statements_spends good.statement.ends guards_atEnd) []
  have ended := ended e sound below
  cases ran : loop (runRound r) [] e with
  | mk outcome t =>
    rw [ran] at ended
    cases outcome with
    | error stop => exact ended.1.elim
    | ok statements =>
      refine ⟨_, t, bind_of_ok ran, ended.1, ended.2.1, ?_⟩
      have counted : rounds Stop.outOfFuel (runRound r) (e.tokens.length + 1) [] e =
          (.ok statements, t) := ran
      exact rounds_last (fun _ _ _ _ => runRound_last) counted

theorem ended_sound (tokens : List Token) (diagnostics : List Lexer.Diagnostic) :
    Sound (initial (ended tokens) diagnostics) := by
  have ends : ∃ init last, ended tokens = init ++ [last] ∧ last.kind = .endOfFile := by
    unfold ended
    cases shape : tokens.getLast? with
    | none => exact ⟨[], noToken, rfl, rfl⟩
    | some last =>
      dsimp only
      by_cases kind : last.kind = .endOfFile
      · rw [if_pos kind]
        obtain ⟨init, whole⟩ := List.getLast?_eq_some_iff.mp shape
        exact ⟨init, last, whole, kind⟩
      · rw [if_neg kind]
        exact ⟨tokens, _, rfl, rfl⟩
  refine ⟨ends, ?_⟩
  obtain ⟨init, last, whole, -⟩ := ends
  change 0 < (ended tokens).length
  rw [whole, List.length_append, List.length_singleton]
  exact Nat.succ_pos _

/-- A round ends normally, and when the loop goes on it has read a token. -/
def Progresses (body : β → Parse (Round β α)) (s : Engine) : Prop :=
  ∀ x, ∃ round t, body x s = (.ok round, t) ∧ ∀ y, round = .again y → s.current < t.current

theorem progresses {body : β → Parse (Round β α)}
    (each : ∀ x, Spends (meter fun _ => False) b (body x) Round.price) (sound : Sound s)
    (below : s.left < b) : Progresses body s := by
  intro x
  have result := each x s sound below
  cases ran : body x s with
  | mk outcome t =>
    rw [ran] at result
    cases outcome with
    | error stop => exact result.1.elim
    | ok round =>
      refine ⟨round, t, rfl, ?_⟩
      rintro y rfl
      obtain ⟨-, leads, paid⟩ := result
      change t.left + 1 ≤ s.left at paid
      unfold Engine.left at paid
      rw [leads.tokens] at paid
      omega

/-- Every way out of a construct, a failure included, is in the context it began in. -/
structure SameContext (s t : Engine) : Prop where
  loopDepth : t.loopDepth = s.loopDepth
  functionDepth : t.functionDepth = s.functionDepth
  inAsyncFunction : t.inAsyncFunction = s.inAsyncFunction

theorem Leads.context (leads : Leads s t) : SameContext s t :=
  ⟨leads.loopDepth, leads.functionDepth, leads.inAsyncFunction⟩

theorem moves_context {m : Parse α} (moves : Moves reading b m) (sound : Sound s)
    (below : s.left < b) : (m s).1 ≠ .error .outOfFuel ∧ SameContext s (m s).2 := by
  have result := moves s sound below
  cases ran : m s with
  | mk outcome t =>
    rw [ran] at result
    cases outcome with
    | ok a => exact ⟨(fun no => by cases no), result.2.1.context⟩
    | error stop =>
      obtain ⟨rfl, -, leads⟩ := result
      exact ⟨(fun no => by cases no), leads.context⟩

/-- `parse_program` ends on every list of tokens: at the first end of the file and in the context
it began in. Wherever the engine stands, the loops over statements and the recovery read a token
in every round, and a statement leaves the context as it found it, also when it fails. -/
theorem parse_program_reads (strtod : Bytes → Binary64 × Nat) (tokens : List Token) :
    (∃ program e, parseProgram strtod tokens = (.ok program, e) ∧ e.tokens = ended tokens ∧
      e.peek.kind = .endOfFile ∧ (∀ i < e.current, (e.tokenAt i).kind ≠ .endOfFile) ∧
      e.loopDepth = 0 ∧ e.functionDepth = 0 ∧ e.inAsyncFunction = false) ∧
    ∀ s, s.tokens = ended tokens → s.current < s.tokens.length →
      let r := calls strtod ((ended tokens).length + 1)
      Progresses (runRound r) s ∧ Progresses (blockRound r) s ∧ Progresses synchronizeRound s ∧
        (r.statement s).1 ≠ .error .outOfFuel ∧ SameContext s (r.statement s).2 := by
  have start := ended_sound tokens []
  have good := calls_good strtod ((ended tokens).length + 1)
  have below {s : Engine} (same : s.tokens = ended tokens) :
      s.left < (ended tokens).length + 1 := by
    unfold Engine.left
    rw [same]
    omega
  constructor
  · obtain ⟨program, e, ran, sound, leads, finished⟩ := run_reads start good (below rfl)
    refine ⟨program, e, ran, leads.tokens, of_decide_eq_true finished, fun i before => ?_,
      leads.loopDepth, leads.functionDepth, leads.inAsyncFunction⟩
    have passed := leads.passed i (Nat.zero_le i) before
    unfold Engine.tokenAt at passed ⊢
    rwa [leads.tokens]
  · intro s same inside r
    have sound : Sound s := ⟨same ▸ start.ends, inside⟩
    obtain ⟨moved, context⟩ := moves_context good.statement sound (below same)
    exact ⟨progresses (statements_spends good.statement.ends guards_atEnd) sound (below same),
      progresses (statements_spends good.statement.ends guards_endsBlock) sound (below same),
      progresses synchronizeRound_spends sound (below same), moved, context⟩

/-- `fn f() { while (x) { ) return` fails inside a loop inside a function. -/
example : let kinds : List TokenKind := [.kwFn, .identifier, .leftParen, .rightParen, .leftBrace,
      .kwWhile, .leftParen, .identifier, .rightParen, .leftBrace, .rightParen, .kwReturn]
    let e := (parseProgram (fun _ => (⟨0⟩, 0))
      (kinds.map fun kind => ⟨kind, [], [], ⟨Lexer.origin, Lexer.origin⟩⟩)).2
    (e.diagnostics.map fun d => d.code, e.current, e.loopDepth, e.functionDepth) =
      (["PAR002", "PAR002", "PAR001", "PAR001"], 12, 0, 0) := by
  decide +kernel

/-- `parse` ends on every source. -/
theorem parse_reads (strtod : Bytes → Binary64 × Nat) (source : Bytes) :
    ∃ program e, parse strtod source = (.ok program, e) ∧
      e.tokens = (Lexer.lex source).tokens ∧ e.peek.kind = .endOfFile := by
  have ends : ended (Lexer.lex source).tokens = (Lexer.lex source).tokens := by
    simp [ended, Lexer.lex]
  have start := ended_sound (Lexer.lex source).tokens (Lexer.lex source).diagnostics
  rw [ends] at start
  obtain ⟨program, e, ran, -, leads, finished⟩ := run_reads start
    (calls_good strtod ((Lexer.lex source).tokens.length + 1)) (Nat.lt_succ_of_le (Nat.sub_le _ _))
  exact ⟨program, e, ran, leads.tokens, of_decide_eq_true finished⟩

end Baas.Parser
