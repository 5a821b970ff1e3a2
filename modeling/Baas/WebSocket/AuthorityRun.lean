import Baas.WebSocket.AuthorityGrammar

/-! Names, and the scanner of the whole field against the grammar. -/
namespace Baas.WebSocket

open Decimal

/-! Names. -/

theorem validLabel_iff (text : Bytes) : validLabel text = true ↔ Label text := by
  unfold validLabel
  constructor
  · intro valid
    split at valid
    · cases valid
    next shape =>
    split at valid
    · cases valid
    next ends =>
    obtain ⟨_, short⟩ := not_or.mp shape
    simp only [Bool.or_eq_true, Bool.not_eq_true', not_or, Bool.not_eq_false,
      Option.any_eq_true] at ends
    simp only [List.all_eq_true, Bool.or_eq_true, decide_eq_true_eq] at valid
    exact ⟨Nat.not_lt.mp short, valid, ends.1, ends.2⟩
  · rintro ⟨short, inner, ⟨c, first, alpha⟩, d, last, omega_⟩
    have some : text ≠ [] := by
      rintro rfl
      cases first
    have ends : text.head?.any isAlnum = true ∧ text.getLast?.any isAlnum = true := by
      simp [first, last, alpha, omega_]
    rw [if_neg (not_or.mpr ⟨some, Nat.not_lt.mpr short⟩), ends.1, ends.2]
    simpa using inner

theorem Label.some {text : Bytes} (label : Label text) : text ≠ [] := by
  obtain ⟨c, first, _⟩ := label.first
  rintro rfl
  cases first

theorem Label.dotless {text : Bytes} (label : Label text) : (46 : UInt8) ∉ text := by
  intro there
  obtain alpha | dash := label.inner 46 there
  · exact absurd alpha (by decide)
  · exact absurd dash (by decide)

theorem validLabels_cons {label : Bytes} {rest : List Bytes} (some : rest ≠ []) :
    validLabels (label :: rest) = (validLabel label && validLabels rest) := by
  cases rest with
  | nil => exact absurd rfl some
  | cons next rest => rfl

theorem validLabels_iff (text : Bytes) : validLabels (text.splitOn 46) = true ↔
    text = [] ∨ Labels text ∨ ∃ name, Labels name ∧ text = name ++ [46] := by
  induction length : text.length using Nat.strongRecOn generalizing text with
  | _ size ih =>
    subst length
    obtain ⟨free, pieces⟩ | ⟨first, rest, free, rfl, pieces⟩ := splitOn_cases 46 text
    · rw [pieces]
      unfold validLabels
      split
      · next empty => simp [empty]
      · next some =>
        rw [validLabel_iff]
        constructor
        · exact fun label => .inr (.inl (.one label))
        · rintro (empty | labels | ⟨name, _, rfl⟩)
          · exact absurd empty some
          · cases labels with
            | one label => exact label
            | cons _ _ => simp at free
          · simp at free
    · have shorter : rest.length < (first ++ 46 :: rest).length := by
        simp only [List.length_append, List.length_cons]
        omega
      rw [pieces, validLabels_cons (List.splitOn_ne_nil 46 rest), Bool.and_eq_true,
        validLabel_iff, ih _ shorter rest rfl]
      constructor
      · rintro ⟨label, rfl | labels | ⟨name, labels, rfl⟩⟩
        · exact .inr (.inr ⟨first, .one label, rfl⟩)
        · exact .inr (.inl (.cons label labels))
        · exact .inr (.inr ⟨first ++ 46 :: name, .cons label labels, by simp⟩)
      · rintro (empty | labels | ⟨name, labels, same⟩)
        · simp at empty
        · generalize whole : first ++ 46 :: rest = text at labels
          cases labels with
          | one label => exact absurd (whole ▸ label.dotless) (by simp)
          | @cons front back label labels =>
            obtain ⟨rfl, rfl⟩ := cut_unique whole free label.dotless
            exact ⟨label, .inr (.inl labels)⟩
        · cases labels with
          | one label =>
            obtain ⟨rfl, rfl⟩ := cut_unique same free label.dotless
            exact ⟨label, .inl rfl⟩
          | @cons front back label labels =>
            rw [List.append_assoc, List.cons_append] at same
            obtain ⟨rfl, rfl⟩ := cut_unique same free label.dotless
            exact ⟨label, .inr (.inr ⟨back, labels, rfl⟩)⟩

theorem Labels.last {text : Bytes} (labels : Labels text) :
    ∃ c, text.getLast? = some c ∧ isAlnum c = true := by
  induction labels with
  | one label => exact label.last
  | @cons front back _ later ih =>
    obtain ⟨c, last, alpha⟩ := ih
    refine ⟨c, ?_, alpha⟩
    rw [List.getLast?_append, List.getLast?_cons, last]
    rfl

theorem Labels.each {text : Bytes} (labels : Labels text) :
    ∀ c ∈ text, isAlnum c = true ∨ c = 45 ∨ c = 46 := by
  induction labels with
  | one label => exact fun c there => (label.inner c there).imp_right .inl
  | cons label _ ih =>
    intro c there
    simp only [List.mem_append, List.mem_cons] at there
    obtain here | dot | later := there
    · exact (label.inner c here).imp_right .inl
    · exact .inr (.inr dot)
    · exact ih c later

theorem Labels.head {text : Bytes} (labels : Labels text) :
    ∃ c, text.head? = some c ∧ isAlnum c = true := by
  cases labels with
  | one label => exact label.first
  | cons label _ =>
    obtain ⟨c, first, alpha⟩ := label.first
    exact ⟨c, by rw [List.head?_append, first]; rfl, alpha⟩

theorem Labels.undotted {text : Bytes} (labels : Labels text) : text.getLast? ≠ some 46 := by
  obtain ⟨c, last, alpha⟩ := labels.last
  rw [last]
  intro same
  cases same
  exact absurd alpha (by decide)

theorem Labels.some {text : Bytes} (labels : Labels text) : text ≠ [] := by
  obtain ⟨c, first, _⟩ := labels.head
  rintro rfl
  cases first

/-- The name without the dot behind it. -/
def stripDot (value : Bytes) : Bytes := if value.getLast? = some 46 then value.dropLast else value

theorem stripDot_dotted (name : Bytes) : stripDot (name ++ [46]) = name := by
  simp [stripDot]

theorem stripDot_undotted {name : Bytes} (plain : name.getLast? ≠ some 46) :
    stripDot name = name := if_neg plain

theorem validDnsName_strip (value : Bytes) : validDnsName value = true ↔
    stripDot value ≠ [] ∧ (stripDot value).length ≤ 253 ∧
      validLabels ((stripDot value).splitOn 46) = true := by
  unfold validDnsName
  split
  · next empty => simp [empty, stripDot]
  · change (if stripDot value = [] ∨ (stripDot value).length > 253 then false
      else validLabels ((stripDot value).splitOn 46)) = true ↔ _
    split
    · next long =>
      refine ⟨fun no => (by cases no), fun ⟨filled, short, _⟩ => ?_⟩
      exact absurd long (not_or.mpr ⟨filled, Nat.not_lt.mpr short⟩)
    · next fits =>
      obtain ⟨filled, short⟩ := not_or.mp fits
      exact ⟨fun valid => ⟨filled, Nat.not_lt.mp short, valid⟩, fun h => h.2.2⟩

/-- The scanner takes names, and names with two dots behind them. -/
theorem validDnsName_iff (value : Bytes) : validDnsName value = true ↔
    DnsName value ∨ ∃ name, Labels name ∧ name.length < 253 ∧ value = name ++ [46, 46] := by
  rw [validDnsName_strip, validLabels_iff]
  constructor
  · rintro ⟨filled, short, labels⟩
    have labels := labels.resolve_left filled
    by_cases dot : value.getLast? = Option.some 46
    · have whole : value = stripDot value ++ [46] := by
        rw [stripDot, if_pos dot]
        exact (List.dropLast_append_getLast? 46 dot).symm
      obtain name | ⟨name, inner, same⟩ := labels
      · exact .inl ⟨stripDot value, name, short, .inr whole⟩
      · rw [same] at whole short
        rw [List.length_append, List.length_singleton] at short
        exact .inr ⟨name, inner, short, by rw [whole]; simp⟩
    · rw [stripDot_undotted dot] at labels short
      obtain name | ⟨name, _, rfl⟩ := labels
      · exact .inl ⟨value, name, short, .inl rfl⟩
      · simp at dot
  · rintro (⟨name, labels, short, rfl | rfl⟩ | ⟨name, labels, short, rfl⟩)
    · rw [stripDot_undotted labels.undotted]
      exact ⟨labels.some, short, .inr (.inl labels)⟩
    · rw [stripDot_dotted]
      exact ⟨labels.some, short, .inr (.inl labels)⟩
    · have twice : name ++ [46, 46] = (name ++ [46]) ++ [46] := by simp
      rw [twice, stripDot_dotted]
      refine ⟨by simp, ?_, .inr (.inr ⟨name, labels, rfl⟩)⟩
      rw [List.length_append, List.length_singleton]
      exact short

theorem numericCandidate_iff (host : Bytes) : numericCandidate host = false ↔ Lettered host := by
  unfold numericCandidate Lettered
  simp

theorem Ipv4.unlettered {text : Bytes} (address : Ipv4 text) : ¬ Lettered text := by
  rintro ⟨c, there, letter, dotless⟩
  obtain digit | dot := address.each c there
  · rw [digit] at letter
    cases letter
  · exact dotless dot

theorem lettered_append {text rest : Bytes} (dots : ∀ c ∈ rest, c = 46) :
    Lettered (text ++ rest) ↔ Lettered text := by
  constructor
  · rintro ⟨c, there, letter, dotless⟩
    obtain here | behind := List.mem_append.mp there
    · exact ⟨c, here, letter, dotless⟩
    · exact absurd (dots c behind) dotless
  · rintro ⟨c, there, free⟩
    exact ⟨c, List.mem_append_left rest there, free⟩

/-- What the scanner takes for a host. -/
def Scanned (host : Bytes) : Prop := Host host ∨ DoubledDot host

theorem validHost_iff (host : Bytes) : validHost host = true ↔ Scanned host := by
  unfold validHost Scanned Host DoubledDot
  cases numeric : numericCandidate host with
  | true =>
    have plain : ¬ Lettered host := by
      rw [← numericCandidate_iff, numeric]
      decide
    rw [if_pos rfl, validIpv4_iff]
    constructor
    · exact fun address => .inl (.inl address)
    · rintro ((address | ⟨_, lettered⟩) | ⟨name, _, _, lettered, rfl⟩)
      · exact address
      · exact absurd lettered plain
      · exact absurd ((lettered_append (by simp)).mpr lettered) plain
  | false =>
    have lettered := (numericCandidate_iff host).mp numeric
    rw [if_neg (by decide), validDnsName_iff]
    constructor
    · rintro (name | ⟨name, labels, short, rfl⟩)
      · exact .inl (.inr ⟨name, lettered⟩)
      · exact .inr ⟨name, labels, short, (lettered_append (by simp)).mp lettered, rfl⟩
    · rintro ((address | ⟨name, _⟩) | ⟨name, labels, short, _, same⟩)
      · exact absurd lettered address.unlettered
      · exact .inl name
      · exact .inr ⟨name, labels, short, same⟩

/-! The whole field. -/

/-- Bytes that stand in hosts and ports. -/
def inAuthority (c : UInt8) : Bool :=
  isAlnum c || c = 45 || c = 46 || c = 58 || c = 91 || c = 93

theorem inAuthority_inside {c : UInt8} (inside : inAuthority c = true) :
    outsideAuthority c = false := by
  have all := JsonText.byte_forall
    (p := fun c => !inAuthority c || !outsideAuthority c) (by decide +kernel) c
  simpa [inside] using all

theorem digit_alnum {c : UInt8} (digit : isDigit c = true) : isAlnum c = true := by
  simp [isAlnum, digit]

theorem hex_alnum {c : UInt8} (hex : isAsciiHex c = true) : isAlnum c = true := by
  simp only [isAsciiHex, isAlnum, Bool.or_eq_true, Bool.and_eq_true, decide_eq_true_eq] at *
  obtain (digit | ⟨low, high⟩) | ⟨low, high⟩ := hex
  · exact .inl (.inl digit)
  · exact .inl (.inr ⟨low, UInt8.le_trans high (by decide)⟩)
  · exact .inr ⟨low, UInt8.le_trans high (by decide)⟩

theorem Scanned.each {host : Bytes} (scanned : Scanned host) :
    ∀ c ∈ host, isAlnum c = true ∨ c = 45 ∨ c = 46 := by
  obtain (address | ⟨⟨name, labels, _, rfl | rfl⟩, _⟩) | ⟨name, labels, _, _, rfl⟩ := scanned
  · exact fun c there => (address.each c there).imp digit_alnum .inr
  · exact labels.each
  all_goals
    intro c there
    obtain here | dot := List.mem_append.mp there
    · exact labels.each c here
    · exact .inr (.inr (by simpa using dot))

theorem Scanned.some {host : Bytes} (scanned : Scanned host) : host ≠ [] := by
  obtain (address | ⟨⟨name, labels, _, rfl | rfl⟩, _⟩) | ⟨name, labels, _, _, rfl⟩ := scanned
  · exact address.some
  · exact labels.some
  all_goals exact List.append_ne_nil_of_left_ne_nil labels.some _

theorem Scanned.free {host : Bytes} (scanned : Scanned host) {c : UInt8}
    (other : isAlnum c = false ∧ c ≠ 45 ∧ c ≠ 46) : c ∉ host := by
  intro there
  obtain alpha | dash | dot := scanned.each c there
  · exact absurd (alpha.symm.trans other.1) (by decide)
  · exact other.2.1 dash
  · exact other.2.2 dot

theorem PortSuffix.each {text : Bytes} (suffix : PortSuffix text) :
    ∀ c ∈ text, isDigit c = true ∨ c = 58 := by
  obtain rfl | ⟨port, rfl, numeral, _⟩ := suffix
  · exact fun c none => absurd none List.not_mem_nil
  · intro c there
    obtain colon | later := List.mem_cons.mp there
    · exact .inr colon
    · exact .inl (numeral.digits c later)

theorem inside_of {text : Bytes} (each : ∀ c ∈ text, inAuthority c = true) :
    text.any outsideAuthority = false := by
  rw [List.any_eq_false]
  intro c there
  rw [inAuthority_inside (each c there)]
  decide

/-- What the scanner takes, for every string. -/
theorem validAuthority_scanned (value : Bytes) :
    validAuthority value = true ↔ AuthorityOf Scanned value := by
  unfold validAuthority
  constructor
  · intro valid
    split at valid
    · cases valid
    split at valid
    · cases valid
    split at valid
    · next bracket =>
      split at valid
      · cases valid
      next opened suffix cut =>
      obtain ⟨rfl, free⟩ := cutAt_some.mp cut
      split at valid
      · cases valid
      next literal =>
      simp only [Bool.or_eq_true, decide_eq_true_eq, Bool.not_eq_true', not_or,
        Bool.not_eq_false] at literal
      cases opened with
      | nil => cases bracket
      | cons c opened =>
        cases bracket
        refine ⟨91 :: (opened ++ [93]), suffix, ?_, by simp,
          .inr ⟨opened, (validIpv6_iff opened).mp literal.2, rfl⟩⟩
        simp only [Bool.or_eq_true, Bool.and_eq_true, decide_eq_true_eq] at valid
        obtain empty | ⟨colon, numeral⟩ := valid
        · exact .inl empty
        · cases suffix with
          | nil => cases colon
          | cons d port =>
            cases colon
            exact .inr ⟨port, rfl, (validDecimalPort_iff port).mp numeral⟩
    · split at valid
      · next cut => exact ⟨value, [], .inl rfl, by simp, .inl ((validHost_iff value).mp valid)⟩
      next host port cut =>
      obtain ⟨rfl, free⟩ := cutAt_some.mp cut
      split at valid
      · cases valid
      split at valid
      · cases valid
      next port_ =>
      simp only [Bool.or_eq_true, decide_eq_true_eq, Bool.not_eq_true', not_or,
        Bool.not_eq_false] at port_
      exact ⟨host, 58 :: port, .inr ⟨port, rfl, (validDecimalPort_iff port).mp port_.2⟩, rfl,
        .inl ((validHost_iff host).mp valid)⟩
  · rintro ⟨first, port, suffix, rfl, scanned | ⟨literal, address, rfl⟩⟩
    · have filled : first ++ port ≠ [] := List.append_ne_nil_of_left_ne_nil scanned.some port
      have inside : (first ++ port).any outsideAuthority = false := by
        refine inside_of (fun c there => ?_)
        obtain here | behind := List.mem_append.mp there
        · obtain alpha | dash | dot := scanned.each c here <;> simp [inAuthority, *]
        · obtain digit | colon := suffix.each c behind
          · simp [inAuthority, digit_alnum digit]
          · simp [inAuthority, colon]
      have unbracketed : (first ++ port).head? ≠ some 91 := by
        rw [List.head?_append_of_ne_nil _ scanned.some]
        exact fun there => scanned.free (by decide) (List.mem_of_mem_head? there)
      have colonless : (58 : UInt8) ∉ first := scanned.free (by decide)
      rw [if_neg filled, inside, if_neg (by decide), if_neg unbracketed]
      obtain rfl | ⟨port, rfl, numeral⟩ := suffix
      · rw [List.append_nil, cutAt_none.mpr colonless]
        exact (validHost_iff first).mpr scanned
      · have single : port.contains 58 = false := by
          have free : (58 : UInt8) ∉ port :=
            fun there => absurd (numeral.1.digits 58 there) (by decide)
          simpa using free
        rw [cutAt_some.mpr ⟨rfl, colonless⟩]
        dsimp only
        rw [single, if_neg (by decide), (validDecimalPort_iff port).mpr numeral]
        rw [if_neg (by simpa using scanned.some)]
        exact (validHost_iff first).mpr scanned
    · have whole : 91 :: (literal ++ [93]) ++ port = (91 :: literal) ++ 93 :: port := by simp
      have free : (93 : UInt8) ∉ 91 :: literal := by
        intro there
        obtain bracket | inner := List.mem_cons.mp there
        · cases bracket
        · obtain hex | dot | colon := address.each 93 inner
          · exact absurd hex (by decide)
          · cases dot
          · cases colon
      have inside : (91 :: (literal ++ [93]) ++ port).any outsideAuthority = false := by
        refine inside_of (fun c there => ?_)
        rw [whole] at there
        simp only [List.mem_append, List.mem_cons] at there
        obtain (bracket | inner) | bracket | behind := there
        · simp [inAuthority, bracket]
        · obtain hex | dot | colon := address.each c inner
          · simp [inAuthority, hex_alnum hex]
          · simp [inAuthority, dot]
          · simp [inAuthority, colon]
        · simp [inAuthority, bracket]
        · obtain digit | colon := suffix.each c behind
          · simp [inAuthority, digit_alnum digit]
          · simp [inAuthority, colon]
      have bracket : (91 :: (literal ++ [93]) ++ port).head? = some 91 := rfl
      rw [if_neg (by simp), inside, if_neg (by decide), if_pos bracket, whole,
        cutAt_some.mpr ⟨rfl, free⟩]
      dsimp only
      rw [List.drop_one, List.tail_cons, (validIpv6_iff literal).mpr address,
        if_neg (by simpa using address.some)]
      obtain rfl | ⟨port, rfl, numeral⟩ := suffix
      · rfl
      · simp [(validDecimalPort_iff port).mpr numeral]

/-- A name with two dots behind it, and perhaps a port. -/
def DoubledDotAuthority (text : Bytes) : Prop :=
  ∃ name port, DoubledDot name ∧ PortSuffix port ∧ text = name ++ port

/-- The scanner takes the authorities of the grammar and no others. -/
theorem validAuthority_iff (value : Bytes) (plain : ¬ DoubledDotAuthority value) :
    validAuthority value = true ↔ Authority value := by
  rw [validAuthority_scanned]
  constructor
  · rintro ⟨first, port, suffix, rfl, (host | doubled) | literal⟩
    · exact ⟨first, port, suffix, rfl, .inl host⟩
    · exact absurd ⟨first, port, doubled, suffix, rfl⟩ plain
    · exact ⟨first, port, suffix, rfl, .inr literal⟩
  · rintro ⟨first, port, suffix, rfl, host | literal⟩
    · exact ⟨first, port, suffix, rfl, .inl (.inl host)⟩
    · exact ⟨first, port, suffix, rfl, .inr literal⟩

theorem validAuthority_iff_letter : validAuthority [97] = true ∧ Authority [97] := by
  refine ⟨by decide, (validAuthority_iff [97] ?_).mp (by decide)⟩
  rintro ⟨_, port, ⟨name, labels, _, _, rfl⟩, _, same⟩
  have short := congrArg List.length same
  simp at short
  omega

/-- A single digit is a name with one label, and the scanner does not take it. -/
theorem digit_not_accepted : ¬ ∀ value, validAuthority value = true ↔
    AuthorityOf (fun host => Ipv4 host ∨ DnsName host) value := by
  intro all
  have label : Label [49] := (validLabel_iff [49]).mp (by decide)
  have named : AuthorityOf (fun host => Ipv4 host ∨ DnsName host) [49] :=
    ⟨[49], [], .inl rfl, rfl, .inl (.inr ⟨[49], .one label, by decide, .inl rfl⟩)⟩
  exact absurd ((all [49]).mpr named) (by decide)

end Baas.WebSocket
