import Baas.WebSocket.Handshake

/-! Lists of extensions as a grammar. Spaces and tabs may stand between its words and its
separators, and no element of a list is empty. -/
namespace Baas.WebSocket

def Ows (text : Bytes) : Prop := ∀ c ∈ text, isOws c = true

structure Token (text : Bytes) : Prop where
  some : text ≠ []
  each : ∀ c ∈ text, isTchar c = true

/-- The inside of a quoted string, as it is written and as it is read. -/
inductive Quoted : Bytes → Bytes → Prop
  | nil : Quoted [] []
  | plain {c : UInt8} {written content : Bytes} :
      c ≠ 34 → c ≠ 92 → Quoted written content → Quoted (c :: written) (c :: content)
  | escaped {c : UInt8} {written content : Bytes} :
      Quoted written content → Quoted (92 :: c :: written) (c :: content)

/-- A quoted string that reads as a token. -/
def QuotedToken (text : Bytes) : Prop :=
  ∃ written content, Quoted written content ∧ Token content ∧ text = 34 :: (written ++ [34])

/-- Nothing, or an equals sign and a value. -/
def ParameterValue (text : Bytes) : Prop :=
  text = [] ∨ ∃ before value after, Ows before ∧ (Token value ∨ QuotedToken value) ∧ Ows after ∧
    text = 61 :: (before ++ (value ++ after))

inductive Parameters : Bytes → Prop
  | none : Parameters []
  | more {before name after value rest : Bytes} :
      Ows before → Token name → Ows after → ParameterValue value → Parameters rest →
        Parameters (59 :: (before ++ (name ++ (after ++ (value ++ rest)))))

def Extension (text : Bytes) : Prop :=
  ∃ name after parameters, Token name ∧ Ows after ∧ Parameters parameters ∧
    text = name ++ (after ++ parameters)

inductive Extensions : Bytes → Prop
  | one {text : Bytes} : Extension text → Extensions text
  | more {text before rest : Bytes} :
      Extension text → Ows before → Extensions rest → Extensions (text ++ 44 :: (before ++ rest))

def ExtensionOffer (text : Bytes) : Prop :=
  ∃ before extensions, Ows before ∧ Extensions extensions ∧ text = before ++ extensions

/-! What the parts of the scanner leave. -/

theorem skipOws_spec (value : Bytes) : ∃ before, Ows before ∧ value = before ++ skipOws value := by
  refine ⟨value.takeWhile isOws, ?_, (List.takeWhile_append_dropWhile).symm⟩
  exact fun c there => List.mem_takeWhile_imp there

theorem skipOws_append {before rest : Bytes} (ows : Ows before)
    (dark : ∀ c, rest.head? = some c → isOws c = false) : skipOws (before ++ rest) = rest := by
  unfold skipOws
  rw [List.dropWhile_append_of_pos ows]
  cases rest with
  | nil => rfl
  | cons c rest => rw [List.dropWhile_cons_of_neg]; simpa using dark c rfl

theorem consumeToken_spec {value rest : Bytes} (taken : consumeToken value = some rest) :
    ∃ token, Token token ∧ value = token ++ rest := by
  unfold consumeToken at taken
  dsimp only at taken
  split at taken
  · cases taken
  next moved =>
  cases taken
  have whole : value = value.takeWhile isTchar ++ value.dropWhile isTchar :=
    List.takeWhile_append_dropWhile.symm
  refine ⟨value.takeWhile isTchar, ⟨?_, fun c there => List.mem_takeWhile_imp there⟩, whole⟩
  intro empty
  rw [empty, List.nil_append] at whole
  exact moved (congrArg List.length whole.symm)

theorem consumeToken_append {token rest : Bytes} (word : Token token)
    (breaks : ∀ c, rest.head? = some c → isTchar c = false) :
    consumeToken (token ++ rest) = some rest := by
  have left : (token ++ rest).dropWhile isTchar = rest := by
    rw [List.dropWhile_append_of_pos word.each]
    cases rest with
    | nil => rfl
    | cons c rest => rw [List.dropWhile_cons_of_neg]; simpa using breaks c rfl
  have some := List.length_pos_of_ne_nil word.some
  unfold consumeToken
  rw [left]
  refine if_neg ?_
  rw [List.length_append]
  omega

theorem quotedTail_cons (seen : Bool) (c : UInt8) (rest : Bytes) :
    quotedTail seen (c :: rest) =
      if c = 34 then (if seen then some rest else none)
      else if c = 92 then
        match rest with
        | [] => none
        | escaped :: rest => if !isTchar escaped then none else quotedTail true rest
      else if !isTchar c then none
      else quotedTail true rest := by
  rw [quotedTail.eq_def]
  rfl

theorem quotedTail_spec {value rest : Bytes} {seen : Bool}
    (taken : quotedTail seen value = some rest) :
    ∃ written content, Quoted written content ∧ (∀ c ∈ content, isTchar c = true) ∧
      (seen = true ∨ content ≠ []) ∧ value = written ++ 34 :: rest := by
  induction length : value.length using Nat.strongRecOn generalizing value seen with
  | _ size ih =>
    subst length
    unfold quotedTail at taken
    split at taken
    · cases taken
    next c tail =>
    split at taken
    · next quote =>
      split at taken
      · next some =>
        cases taken
        exact ⟨[], [], .nil, fun _ none => absurd none List.not_mem_nil, .inl some,
          by rw [quote]; rfl⟩
      · cases taken
    next plain =>
    split at taken
    · next backslash =>
      split at taken
      · cases taken
      next escaped tail =>
      split at taken
      · cases taken
      next tchar =>
      have shorter : tail.length < (c :: escaped :: tail).length := by
        rw [List.length_cons, List.length_cons]
        omega
      obtain ⟨written, content, inner, each, _, rfl⟩ := ih tail.length shorter taken rfl
      refine ⟨92 :: escaped :: written, escaped :: content, .escaped inner, ?_,
        .inr (List.cons_ne_nil _ _), by rw [backslash]; rfl⟩
      exact List.forall_mem_cons.mpr ⟨by simpa using tchar, each⟩
    · next other =>
      split at taken
      · cases taken
      next tchar =>
      obtain ⟨written, content, inner, each, _, rfl⟩ := ih tail.length (by simp) taken rfl
      refine ⟨c :: written, c :: content, .plain plain other inner, ?_,
        .inr (List.cons_ne_nil _ _), rfl⟩
      exact List.forall_mem_cons.mpr ⟨by simpa using tchar, each⟩

theorem quotedTail_append {written content rest : Bytes} {seen : Bool}
    (inner : Quoted written content) (each : ∀ c ∈ content, isTchar c = true)
    (some : seen = true ∨ content ≠ []) :
    quotedTail seen (written ++ 34 :: rest) = Option.some rest := by
  induction inner generalizing seen with
  | nil =>
    have seen := some.resolve_right (fun other => other rfl)
    rw [List.nil_append, quotedTail_cons, if_pos rfl, if_pos seen]
  | @plain c written content plain other _ ih =>
    rw [List.forall_mem_cons] at each
    rw [List.cons_append, quotedTail_cons, if_neg plain, if_neg other]
    rw [if_neg (by simpa using each.1)]
    exact ih each.2 (.inl rfl)
  | @escaped c written content _ ih =>
    rw [List.forall_mem_cons] at each
    rw [List.cons_append, quotedTail_cons, if_neg (by decide), if_pos rfl, List.cons_append]
    dsimp only
    rw [if_neg (by simpa using each.1)]
    exact ih each.2 (.inl rfl)

theorem consumeQuotedString_spec {value rest : Bytes}
    (taken : consumeQuotedString value = some rest) :
    ∃ text, QuotedToken text ∧ value = text ++ rest := by
  unfold consumeQuotedString at taken
  split at taken
  · cases taken
  next c tail =>
  split at taken
  · next quote =>
    obtain ⟨written, content, inner, each, some, rfl⟩ := quotedTail_spec taken
    have filled := some.resolve_left (by decide)
    refine ⟨34 :: (written ++ [34]), ⟨written, content, inner, ⟨filled, each⟩, rfl⟩, ?_⟩
    rw [quote]
    simp
  · cases taken

theorem consumeQuotedString_append {text rest : Bytes} (quoted : QuotedToken text) :
    consumeQuotedString (text ++ rest) = some rest := by
  obtain ⟨written, content, inner, word, rfl⟩ := quoted
  rw [List.cons_append, consumeQuotedString, if_pos rfl, List.append_assoc]
  exact quotedTail_append inner word.each (.inr word.some)

theorem consumeParameterValue_spec {value rest : Bytes}
    (taken : consumeParameterValue value = some rest) :
    ∃ text, ParameterValue text ∧ value = text ++ rest := by
  unfold consumeParameterValue at taken
  split at taken
  · next tail =>
    obtain ⟨before, ows, whole⟩ := skipOws_spec tail
    have valued {word left : Bytes} (one : Token word ∨ QuotedToken word)
        (same : skipOws tail = word ++ left) (skipped : skipOws left = rest) :
        ∃ text, ParameterValue text ∧ 61 :: tail = text ++ rest := by
      obtain ⟨after, ows', whole'⟩ := skipOws_spec left
      refine ⟨_, .inr ⟨before, word, after, ows, one, ows', rfl⟩, ?_⟩
      rw [whole, same, whole', skipped]
      simp
    dsimp only at taken
    split at taken
    · cases taken
    split at taken
    · obtain ⟨left, consumed, skipped⟩ := Option.map_eq_some_iff.mp taken
      obtain ⟨word, quoted, same⟩ := consumeQuotedString_spec consumed
      exact valued (.inr quoted) same skipped
    · obtain ⟨left, consumed, skipped⟩ := Option.map_eq_some_iff.mp taken
      obtain ⟨word, token, same⟩ := consumeToken_spec consumed
      exact valued (.inl token) same skipped
  · cases taken
    exact ⟨[], .inl rfl, rfl⟩

theorem extensionParameters_spec {fuel : Nat} {value rest : Bytes}
    (taken : extensionParameters fuel value = some rest) :
    ∃ text, Parameters text ∧ value = text ++ rest := by
  induction fuel generalizing value with
  | zero => cases taken
  | succ fuel ih =>
    unfold extensionParameters at taken
    split at taken
    · next tail =>
      split at taken
      · cases taken
      next left consumed =>
      obtain ⟨named, token, valued⟩ := Option.bind_eq_some_iff.mp consumed
      obtain ⟨before, ows, whole⟩ := skipOws_spec tail
      obtain ⟨name, word, same⟩ := consumeToken_spec token
      obtain ⟨after, ows', whole'⟩ := skipOws_spec named
      obtain ⟨text, parameter, same'⟩ := consumeParameterValue_spec valued
      obtain ⟨parameters, more, rfl⟩ := ih taken
      refine ⟨_, .more ows word ows' parameter more, ?_⟩
      rw [whole, same, whole', same']
      simp
    · cases taken
      exact ⟨[], .none, rfl⟩

theorem extensionList_spec {fuel : Nat} {value : Bytes}
    (valid : extensionList fuel value = true) : Extensions value := by
  induction fuel generalizing value with
  | zero => cases valid
  | succ fuel ih =>
    unfold extensionList at valid
    have parsed {left : Bytes} (consumed : (consumeToken value).bind
        (fun rest => extensionParameters (rest.length + 1) (skipOws rest)) = some left) :
        ∃ text, Extension text ∧ value = text ++ left := by
      obtain ⟨named, token, list⟩ := Option.bind_eq_some_iff.mp consumed
      obtain ⟨name, word, rfl⟩ := consumeToken_spec token
      obtain ⟨after, ows, whole⟩ := skipOws_spec named
      obtain ⟨parameters, more, same⟩ := extensionParameters_spec list
      refine ⟨_, ⟨name, after, parameters, word, ows, more, rfl⟩, ?_⟩
      rw [whole, same]
      simp
    split at valid
    · cases valid
    · next consumed =>
      obtain ⟨text, extension, rfl⟩ := parsed consumed
      rw [List.append_nil]
      exact .one extension
    · next c left consumed =>
      obtain ⟨text, extension, rfl⟩ := parsed consumed
      split at valid
      · cases valid
      next comma =>
      dsimp only at valid
      split at valid
      · cases valid
      obtain ⟨before, ows, whole⟩ := skipOws_spec left
      rw [Decidable.not_not.mp comma, whole]
      exact .more extension ows (ih valid)

/-! What the scanner takes of a list. -/

/-- What a word may have behind it once the spaces are gone. -/
def Separated (text : Bytes) : Prop :=
  ∀ c, text.head? = some c → c = 44 ∨ c = 59 ∨ c = 61

theorem Separated.dark {text : Bytes} (separated : Separated text) :
    ∀ c, text.head? = some c → isOws c = false := by
  intro c there
  obtain rfl | rfl | rfl := separated c there <;> decide

theorem Separated.breaks {text before : Bytes} (separated : Separated text) (ows : Ows before) :
    ∀ c, (before ++ text).head? = some c → isTchar c = false := by
  intro c there
  cases before with
  | nil => obtain rfl | rfl | rfl := separated c there <;> decide
  | cons d before =>
    cases there
    have space := ows _ List.mem_cons_self
    simp only [isOws, Bool.or_eq_true, decide_eq_true_eq] at space
    obtain rfl | rfl := space <;> decide

theorem Token.dark {text rest : Bytes} (word : Token text) :
    ∀ c, (text ++ rest).head? = Option.some c → isOws c = false := by
  intro c there
  cases text with
  | nil => exact absurd rfl word.some
  | cons d text =>
    cases there
    have tchar := word.each _ List.mem_cons_self
    have all := JsonText.byte_forall (p := fun c => !isTchar c || !isOws c) (by decide +kernel) c
    simpa [tchar] using all

theorem QuotedToken.head {text rest : Bytes} (quoted : QuotedToken text) :
    (text ++ rest).head? = some 34 := by
  obtain ⟨written, content, _, _, rfl⟩ := quoted
  rfl

theorem Token.unquoted {text rest : Bytes} (word : Token text) :
    (text ++ rest).head? ≠ Option.some 34 := by
  intro there
  cases text with
  | nil => exact word.some rfl
  | cons c text =>
    cases there
    exact absurd (word.each 34 List.mem_cons_self) (by decide)

theorem consumeParameterValue_append {text rest : Bytes} (valued : ParameterValue text)
    (separated : Separated rest) (other : rest.head? ≠ some 61) :
    consumeParameterValue (text ++ rest) = some rest := by
  obtain rfl | ⟨before, value, after, ows, word, ows', rfl⟩ := valued
  · rw [List.nil_append]
    unfold consumeParameterValue
    split
    · exact absurd rfl other
    · rfl
  · have word_dark : ∀ c, (value ++ (after ++ rest)).head? = some c → isOws c = false := by
      obtain token | quoted := word
      · exact token.dark
      · intro c there
        rw [quoted.head] at there
        cases there
        decide
    have filled : value ++ (after ++ rest) ≠ [] := by
      obtain token | ⟨_, _, _, _, rfl⟩ := word
      · exact List.append_ne_nil_of_left_ne_nil token.some _
      · exact List.cons_ne_nil _ _
    have skipped : skipOws (after ++ rest) = rest := skipOws_append ows' separated.dark
    have whole : 61 :: (before ++ (value ++ after)) ++ rest =
        61 :: (before ++ (value ++ (after ++ rest))) := by simp
    rw [whole, consumeParameterValue]
    rw [skipOws_append ows word_dark, if_neg filled]
    obtain token | quoted := word
    · rw [if_neg token.unquoted, consumeToken_append token (separated.breaks ows'),
        Option.map_some, skipped]
    · rw [if_pos quoted.head, consumeQuotedString_append quoted, Option.map_some, skipped]

theorem Parameters.separated {text rest : Bytes} (list : Parameters text)
    (separated : Separated rest) : Separated (text ++ rest) := by
  cases list with
  | none => exact separated
  | more =>
    intro c there
    cases there
    exact .inr (.inl rfl)

theorem ParameterValue.separated {text rest : Bytes} (valued : ParameterValue text)
    (separated : Separated rest) : Separated (text ++ rest) := by
  obtain rfl | ⟨_, _, _, _, _, _, rfl⟩ := valued
  · exact separated
  · intro c there
    cases there
    exact .inr (.inr rfl)

/-- What stands behind an extension: nothing, or a comma. -/
def Behind (text : Bytes) : Prop := ∀ c, text.head? = some c → c = 44

theorem Behind.separated {text : Bytes} (behind : Behind text) : Separated text :=
  fun c there => .inl (behind c there)

theorem Parameters.unequal {text rest : Bytes} (list : Parameters text) (behind : Behind rest) :
    (text ++ rest).head? ≠ some 61 := by
  cases list with
  | none =>
    intro there
    exact absurd (behind 61 there) (by decide)
  | more =>
    intro there
    cases there

theorem extensionParameters_append {text rest : Bytes} {fuel : Nat} (list : Parameters text)
    (behind : Behind rest) (enough : text.length < fuel) :
    extensionParameters fuel (text ++ rest) = some rest := by
  obtain ⟨fuel, rfl⟩ := Nat.exists_eq_add_one_of_ne_zero (Nat.ne_of_gt (Nat.zero_lt_of_lt enough))
  induction list generalizing fuel with
  | none =>
    rw [List.nil_append]
    unfold extensionParameters
    split
    · next tail => exact absurd (behind 59 rfl) (by decide)
    · rfl
  | @more before name after value later ows word ows' valued list ih =>
    have tail : Separated (later ++ rest) := list.separated behind.separated
    have whole : 59 :: (before ++ (name ++ (after ++ (value ++ later)))) ++ rest =
        59 :: (before ++ (name ++ (after ++ (value ++ (later ++ rest))))) := by simp
    have skipped : skipOws (before ++ (name ++ (after ++ (value ++ (later ++ rest))))) =
        name ++ (after ++ (value ++ (later ++ rest))) := skipOws_append ows word.dark
    have skipped' : skipOws (after ++ (value ++ (later ++ rest))) = value ++ (later ++ rest) :=
      skipOws_append ows' (valued.separated tail).dark
    simp only [List.length_cons, List.length_append] at enough
    obtain ⟨fuel, rfl⟩ := Nat.exists_eq_add_one_of_ne_zero (n := fuel) (by omega)
    rw [whole, extensionParameters]
    simp only [skipped, consumeToken_append word ((valued.separated tail).breaks ows'),
      Option.bind_some, skipped', consumeParameterValue_append valued tail (list.unequal behind)]
    exact ih fuel (by omega)

theorem Extension.head {text rest : Bytes} (extension : Extension text) :
    ∀ c, (text ++ rest).head? = some c → isOws c = false := by
  obtain ⟨name, after, parameters, word, _, _, rfl⟩ := extension
  rw [List.append_assoc]
  exact word.dark

theorem Extensions.head {text : Bytes} (list : Extensions text) :
    ∀ c, text.head? = some c → isOws c = false := by
  cases list with
  | one extension =>
    have dark : ∀ c, (text ++ []).head? = Option.some c → isOws c = false := extension.head
    rwa [List.append_nil] at dark
  | more extension _ _ => exact extension.head

theorem Extension.some {text : Bytes} (extension : Extension text) : text ≠ [] := by
  obtain ⟨name, after, parameters, word, _, _, rfl⟩ := extension
  exact List.append_ne_nil_of_left_ne_nil word.some _

theorem Extensions.some {text : Bytes} (list : Extensions text) : text ≠ [] := by
  cases list with
  | one extension => exact extension.some
  | more extension _ _ => exact List.append_ne_nil_of_left_ne_nil extension.some _

theorem extension_append {text rest : Bytes} (extension : Extension text) (behind : Behind rest) :
    (consumeToken (text ++ rest)).bind
      (fun rest => extensionParameters (rest.length + 1) (skipOws rest)) = Option.some rest := by
  obtain ⟨name, after, parameters, word, ows, list, rfl⟩ := extension
  have tail : Separated (parameters ++ rest) := list.separated behind.separated
  have whole : name ++ (after ++ parameters) ++ rest = name ++ (after ++ (parameters ++ rest)) := by
    simp
  rw [whole, consumeToken_append word (tail.breaks ows), Option.bind_some,
    skipOws_append ows tail.dark]
  refine extensionParameters_append list behind ?_
  simp only [List.length_append]
  omega

theorem extensionList_take {text : Bytes} {fuel : Nat} (list : Extensions text)
    (enough : text.length < fuel) : extensionList fuel text = true := by
  induction list generalizing fuel with
  | @one text extension =>
    obtain ⟨fuel, rfl⟩ := Nat.exists_eq_add_one_of_ne_zero (Nat.ne_of_gt (Nat.zero_lt_of_lt enough))
    have nothing : Behind [] := fun c there => by cases there
    have taken := extension_append extension nothing
    rw [List.append_nil] at taken
    rw [extensionList, taken]
  | @more text before rest extension ows list ih =>
    obtain ⟨fuel, rfl⟩ := Nat.exists_eq_add_one_of_ne_zero (Nat.ne_of_gt (Nat.zero_lt_of_lt enough))
    have behind : Behind (44 :: (before ++ rest)) := by
      intro c there
      cases there
      rfl
    simp only [List.length_append, List.length_cons] at enough
    rw [extensionList, extension_append extension behind]
    dsimp only
    rw [if_neg (by decide), skipOws_append ows list.head, if_neg list.some]
    exact ih (by omega)

/-- The scanner takes the lists of the grammar. -/
theorem validExtensionOffer_iff (value : Bytes) :
    validExtensionOffer value = true ↔ ExtensionOffer value := by
  unfold validExtensionOffer
  constructor
  · intro valid
    dsimp only at valid
    split at valid
    · cases valid
    obtain ⟨before, ows, whole⟩ := skipOws_spec value
    exact ⟨before, _, ows, extensionList_spec valid, whole⟩
  · rintro ⟨before, list, ows, extensions, rfl⟩
    dsimp only
    rw [skipOws_append ows extensions.head, if_neg extensions.some]
    exact extensionList_take extensions (Nat.lt_succ_self _)

end Baas.WebSocket
