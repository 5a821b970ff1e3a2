import Baas.Repository.Sha256
import Mathlib.Tactic.Ring

/-! The three hash classes compute the standard's digest of what they are fed, however it is
cut, and the text hashed for a generation gives back every field of its records. -/
namespace Baas.Digest

open Fips180 (Word Chain Working blocks compress)

/-! One block. -/

/-- The tables are the standard's. -/
theorem treeFormat_tables : treeFormat.constants = Fips180.constants ∧
    treeFormat.initial = Fips180.initialChain := by
  decide +kernel

theorem getD_set {α : Type} (list : List α) (i t : Nat) (value other : α) :
    (list.set i value).getD t other =
      if i = t ∧ t < list.length then value else list.getD t other := by
  rw [List.getD_eq_getElem?_getD, List.getD_eq_getElem?_getD, List.getElem?_set]
  by_cases same : i = t
  · subst same
    by_cases inside : i < list.length
    · simp [inside]
    · simp [inside]
  · simp [same]

/-- A byte placed below the others. -/
theorem or_byte {x b : Nat} (k : Nat) (small : b < 256) :
    x <<< (8 + k) ||| b <<< k = (x * 256 + b) <<< k := by
  have joined := Nat.shiftLeft_add_eq_or_of_lt (i := 8) (b := b) small x
  rw [Nat.shiftLeft_add, ← Nat.shiftLeft_or_distrib, ← joined, Nat.shiftLeft_eq x 8]

theorem byte_shifted (b : UInt8) {k : Nat} (low : k ≤ 24) :
    (b.toBitVec.setWidth 32 <<< k).toNat = b.toNat <<< k := by
  have small : b.toNat < 256 := b.toNat_lt
  have value : (b.toBitVec.setWidth 32).toNat = b.toNat := by
    rw [BitVec.toNat_setWidth, UInt8.toNat_toBitVec, Nat.mod_eq_of_lt (by omega)]
  have fits : b.toNat <<< k < 2 ^ 32 :=
    calc b.toNat <<< k = b.toNat * 2 ^ k := Nat.shiftLeft_eq ..
      _ ≤ b.toNat * 2 ^ 24 := Nat.mul_le_mul_left _ (Nat.pow_le_pow_right (by decide) low)
      _ < 2 ^ 32 := by omega
  rw [BitVec.toNat_shiftLeft, value, Nat.mod_eq_of_lt fits]

theorem word_eq (block : List UInt8) (t : Nat) : word block t = Fips180.wordAt block t := by
  apply BitVec.eq_of_toNat_eq
  have last (b : UInt8) : (b.toBitVec.setWidth 32).toNat = b.toNat <<< 0 := by
    rw [← byte_shifted b (by decide), BitVec.shiftLeft_zero]
  simp only [word, Nat.mul_comm t 4, BitVec.toNat_or, byte_shifted _ le_rfl,
    byte_shifted _ (show 16 ≤ 24 by decide), byte_shifted _ (show 8 ≤ 24 by decide), last]
  have first := (block.getD (4 * t) 0).toNat_lt
  have second := (block.getD (4 * t + 1) 0).toNat_lt
  have third := (block.getD (4 * t + 2) 0).toNat_lt
  have fourth := (block.getD (4 * t + 3) 0).toNat_lt
  rw [or_byte 16 second, or_byte 8 third, or_byte 0 fourth, Nat.shiftLeft_zero, Fips180.wordAt,
    BitVec.toNat_ofNat, Nat.mod_eq_of_lt (by omega)]

theorem load_spec {block : List UInt8} {n : Nat} (small : n ≤ 16) :
    let schedule := (List.range n).foldl (fun schedule index => schedule.set index (word block index))
      (List.replicate 64 0)
    schedule.length = 64 ∧ ∀ t < n, schedule.getD t 0 = Fips180.schedule block t := by
  intro schedule
  induction n with
  | zero => exact ⟨List.length_replicate, fun t below => absurd below (Nat.not_lt_zero t)⟩
  | succ n ih =>
    obtain ⟨size, known⟩ := ih (by omega)
    simp only [schedule, List.range_succ, List.foldl_append, List.foldl_cons, List.foldl_nil]
    refine ⟨by rw [List.length_set]; exact size, fun t below => ?_⟩
    rw [getD_set, size]
    by_cases here : n = t
    · rw [if_pos ⟨here, by omega⟩, here, word_eq, Fips180.schedule_first (by omega)]
    · rw [if_neg (fun both => here both.1)]
      exact known t (by omega)

theorem extend_spec {block : List UInt8} {schedule : List Word} {n : Nat} (small : n ≤ 48)
    (size : schedule.length = 64)
    (known : ∀ t < 16, schedule.getD t 0 = Fips180.schedule block t) :
    ((List.range' 16 n).foldl extendStep schedule).length = 64 ∧
      ∀ t < 16 + n, ((List.range' 16 n).foldl extendStep schedule).getD t 0 =
        Fips180.schedule block t := by
  induction n with
  | zero => exact ⟨size, known⟩
  | succ n ih =>
    obtain ⟨size, known⟩ := ih (by omega)
    rw [List.range'_1_concat, List.foldl_append, List.foldl_cons, List.foldl_nil]
    generalize (List.range' 16 n).foldl extendStep schedule = before at size known
    refine ⟨by rw [extendStep, List.length_set]; exact size, fun t below => ?_⟩
    rw [extendStep, getD_set, size]
    by_cases here : 16 + n = t
    · rw [if_pos ⟨here, by omega⟩, here, known (t - 15) (by omega), known (t - 2) (by omega),
        known (t - 16) (by omega), known (t - 7) (by omega),
        Fips180.schedule_later (show 16 ≤ t by omega)]
      simp only [Fips180.rotateRight_eq (show 7 < 32 by decide),
        Fips180.rotateRight_eq (show 18 < 32 by decide),
        Fips180.rotateRight_eq (show 17 < 32 by decide),
        Fips180.rotateRight_eq (show 19 < 32 by decide), Fips180.lowerSigma0,
        Fips180.lowerSigma1]
      ring
    · rw [if_neg (fun both => here both.1)]
      exact known t (by omega)

theorem schedule_spec (block : List UInt8) {t : Nat} (below : t < 64) :
    (extend (load block)).getD t 0 = Fips180.schedule block t := by
  obtain ⟨size, known⟩ : (load block).length = 64 ∧ ∀ t < 16, (load block).getD t 0 =
      Fips180.schedule block t := load_spec le_rfl
  exact (extend_spec le_rfl size known).2 t below

theorem round_spec {schedule : List Word} {block : List UInt8} {t : Nat}
    (known : schedule.getD t 0 = Fips180.schedule block t) (v : Working) :
    round Fips180.constants schedule v t = Fips180.round block v t := by
  simp only [round, known, Fips180.rotateRight_eq (show 6 < 32 by decide),
    Fips180.rotateRight_eq (show 11 < 32 by decide),
    Fips180.rotateRight_eq (show 25 < 32 by decide),
    Fips180.rotateRight_eq (show 2 < 32 by decide),
    Fips180.rotateRight_eq (show 13 < 32 by decide),
    Fips180.rotateRight_eq (show 22 < 32 by decide), Fips180.round, Fips180.upperSigma1,
    Fips180.upperSigma0, Fips180.ch, Fips180.maj]

theorem rounds_spec {schedule : List Word} {block : List UInt8} {times : List Nat}
    (known : ∀ t ∈ times, schedule.getD t 0 = Fips180.schedule block t) (v : Working) :
    times.foldl (round Fips180.constants schedule) v = times.foldl (Fips180.round block) v := by
  induction times generalizing v with
  | nil => rfl
  | cons t times ih =>
    rw [List.foldl_cons, List.foldl_cons, round_spec (known t List.mem_cons_self)]
    exact ih (fun t there => known t (List.mem_cons_of_mem _ there)) _

theorem transform_spec {tables : Tables} (standard : tables.constants = Fips180.constants)
    (hash : Sha256) :
    hash.transform tables = { hash with state := compress hash.state hash.block } := by
  have known : ∀ t ∈ List.range 64, (extend (load hash.block)).getD t 0 =
      Fips180.schedule hash.block t := fun t there =>
    schedule_spec hash.block (List.mem_range.mp there)
  have sums : ∀ v, addLocals hash.state v = Fips180.combine hash.state v := by
    intro v
    simp only [addLocals, Fips180.combine, BitVec.add_comm]
    rfl
  rw [compress, ← rounds_spec known, ← sums, ← standard]
  rfl

/-! The text so far. -/

/-- The first bytes of the block are `rest`, and the next one goes behind them. -/
structure Holds (hash : Sha256) (rest : List UInt8) : Prop where
  size : hash.block.length = 64
  place : hash.blockSize = rest.length
  kept : hash.block.take rest.length = rest

/-- What a hash has taken in: `state` covers the whole blocks, `block` begins with the rest. -/
structure Absorbed (hash : Sha256) (message : List UInt8) : Prop where
  total : hash.totalBytes = message.length % 2 ^ 64
  split : ∃ n whole rest, message = whole ++ rest ∧ whole.length = 64 * n ∧ rest.length < 64 ∧
    Holds hash rest ∧ hash.state = (blocks whole).foldl compress Fips180.initialChain

theorem Holds.whole {hash : Sha256} {rest : List UInt8} (holds : Holds hash rest)
    (full : rest.length = 64) : hash.block = rest := by
  rw [← holds.kept, full, List.take_of_length_le (le_of_eq holds.size)]

theorem write_holds {hash : Sha256} {rest : List UInt8} (holds : Holds hash rest)
    (short : rest.length < 64) (value : UInt8) : Holds (hash.write value) (rest ++ [value]) := by
  have inside : rest.length < hash.block.length := by
    rw [holds.size]
    exact short
  refine ⟨(List.length_set).trans holds.size, ?_, ?_⟩
  · rw [List.length_append, List.length_singleton, Sha256.write, holds.place]
  · rw [Sha256.write, holds.place, List.length_append, List.length_singleton, List.take_add_one,
      List.take_set_of_le le_rfl, holds.kept, List.getElem?_set_self inside]
    rfl

theorem fill_holds {hash : Sha256} {rest : List UInt8} {limit : Nat} (holds : Holds hash rest)
    (below : rest.length ≤ limit) (small : limit ≤ 64) :
    Holds (hash.fill limit) (rest ++ List.replicate (limit - rest.length) 0) ∧
      (hash.fill limit).state = hash.state := by
  induction left : limit - rest.length generalizing hash rest with
  | zero =>
    rw [Sha256.fill, if_neg (by rw [holds.place]; omega), List.replicate_zero, List.append_nil]
    exact ⟨holds, rfl⟩
  | succ left' ih =>
    rw [Sha256.fill, if_pos (by rw [holds.place]; omega), List.replicate_succ, List.append_cons]
    have longer : (rest ++ [(0 : UInt8)]).length = rest.length + 1 := List.length_append
    exact ih (write_holds holds (by omega) 0) (by omega) (by omega)

theorem start_absorbed {tables : Tables} (standard : tables.initial = Fips180.initialChain) :
    Absorbed tables.start [] := by
  refine ⟨rfl, 0, [], [], rfl, rfl, by decide, ⟨List.length_replicate, rfl, rfl⟩, ?_⟩
  rw [Fips180.blocks_nil]
  exact standard

theorem blocks_single {block : List UInt8} (full : block.length = 64) : blocks block = [block] := by
  have cons : blocks (block ++ []) = block :: blocks [] := Fips180.blocks_cons full
  rwa [List.append_nil, Fips180.blocks_nil] at cons

theorem updateByte_absorbed {tables : Tables} (standard : tables.constants = Fips180.constants)
    {hash : Sha256} {message : List UInt8} (absorbed : Absorbed hash message) (value : UInt8) :
    Absorbed (updateByte tables hash value) (message ++ [value]) := by
  obtain ⟨total, n, whole, rest, rfl, full, short, holds, state⟩ := absorbed
  have written := write_holds holds short value
  have longer : (whole ++ rest ++ [value]).length = (whole ++ rest).length + 1 := List.length_append
  have total' : (hash.totalBytes + 1) % 2 ^ 64 = (whole ++ rest ++ [value]).length % 2 ^ 64 := by
    rw [total, Nat.mod_add_mod, longer]
  have size : (rest ++ [value]).length = rest.length + 1 := List.length_append
  simp only [updateByte, written.place]
  by_cases last : (rest ++ [value]).length = 64
  · rw [if_pos last, transform_spec standard]
    refine ⟨total', n + 1, whole ++ (rest ++ [value]), [], ?_, ?_, by decide,
      ⟨written.size, rfl, rfl⟩, ?_⟩
    · rw [List.append_nil, List.append_assoc]
    · rw [List.length_append, full, last]
      omega
    · rw [Fips180.blocks_append full, blocks_single last, List.foldl_append, ← state,
        ← written.whole last]
      rfl
  · rw [if_neg last]
    refine ⟨total', n, whole, rest ++ [value], List.append_assoc .., full, by omega, ?_, state⟩
    exact ⟨written.size, rfl, written.kept⟩

theorem updates_absorbed {tables : Tables} (standard : tables.constants = Fips180.constants)
    {hash : Sha256} {message : List UInt8} (absorbed : Absorbed hash message)
    (chunks : List (List UInt8)) :
    Absorbed (chunks.foldl (Sha256.update tables) hash) (message ++ chunks.flatten) := by
  have single : ∀ {hash : Sha256} {message : List UInt8}, Absorbed hash message →
      ∀ input : List UInt8, Absorbed (hash.update tables input) (message ++ input) := by
    intro hash message absorbed input
    induction input generalizing hash message with
    | nil => rwa [List.append_nil]
    | cons value input ih =>
      rw [List.append_cons]
      exact ih (updateByte_absorbed standard absorbed value)
  induction chunks generalizing hash message with
  | nil => rwa [List.flatten_nil, List.append_nil]
  | cons chunk chunks ih =>
    rw [List.flatten_cons, ← List.append_assoc]
    exact ih (single absorbed chunk)

/-! The padding. -/

theorem bigEndian_shift {size x : Nat} :
    (List.range size).map (fun byte => UInt8.ofNat (x >>> ((size - 1 - byte) * 8))) =
      Fips180.bigEndian size x := by
  apply List.map_congr_left
  intro byte there
  rw [Nat.shiftRight_eq_div_pow, Nat.mul_comm, Nat.pow_mul]

/-- The last eight bytes of a block, written from the end. -/
theorem length_loop {front back : List UInt8} {bits : Nat} (size : front.length = 56)
    (size' : back.length = 8) :
    (List.range 8).foldl (fun block index =>
      block.set (63 - index) (UInt8.ofNat (bits >>> (index * 8)))) (front ++ back) =
      front ++ Fips180.bigEndian 8 bits := by
  obtain ⟨b0, b1, b2, b3, b4, b5, b6, b7, rfl⟩ : ∃ b0 b1 b2 b3 b4 b5 b6 b7,
      back = [b0, b1, b2, b3, b4, b5, b6, b7] := by
    match back, size' with
    | [b0, b1, b2, b3, b4, b5, b6, b7], _ => exact ⟨b0, b1, b2, b3, b4, b5, b6, b7, rfl⟩
  rw [← bigEndian_shift]
  simp [List.range_succ, size]

theorem length_loop_hash {hash : Sha256} {bits : Nat} (indices : List Nat) :
    indices.foldl (fun (hash : Sha256) index =>
      { hash with block := hash.block.set (63 - index) (UInt8.ofNat (bits >>> (index * 8))) }) hash =
      { hash with block := indices.foldl (fun block index =>
        block.set (63 - index) (UInt8.ofNat (bits >>> (index * 8)))) hash.block } := by
  induction indices generalizing hash with
  | nil => rfl
  | cons index indices ih => rw [List.foldl_cons, List.foldl_cons, ih]

/-- The last block: what is left, zeros up to its end and the length. -/
theorem last_block {hash : Sha256} {rest : List UInt8} {bits : Nat} (holds : Holds hash rest)
    (below : rest.length ≤ 56) :
    (List.range 8).foldl (fun (hash : Sha256) index =>
      { hash with block := hash.block.set (63 - index) (UInt8.ofNat (bits >>> (index * 8))) })
      (hash.fill 56) =
      { hash.fill 56 with
        block := rest ++ List.replicate (56 - rest.length) 0 ++ Fips180.bigEndian 8 bits } := by
  obtain ⟨filled, -⟩ := fill_holds holds below (by decide)
  have size : (rest ++ List.replicate (56 - rest.length) (0 : UInt8)).length = 56 := by
    rw [List.length_append, List.length_replicate]
    omega
  have split := List.take_append_drop 56 (hash.fill 56).block
  have kept := filled.kept
  rw [size] at kept
  rw [length_loop_hash, ← split, kept, length_loop size]
  rw [List.length_drop, filled.size]

theorem digest_bytes (chain : Chain) :
    chain.toList.flatMap (fun word : Word =>
      (List.range 4).map (fun byte => UInt8.ofNat (word >>> ((3 - byte) * 8)).toNat)) =
      chain.toList.flatMap (fun word => Fips180.bigEndian 4 word.toNat) := by
  apply List.flatMap_congr
  intro word there
  rw [← bigEndian_shift]
  rfl

/-- The padding that fits behind the rest. -/
theorem padding_one {rest : List UInt8} (near : rest.length + 1 ≤ 56) (bits : Nat) :
    rest ++ (0x80 :: List.replicate ((119 - rest.length) % 64) 0 ++ Fips180.bigEndian 8 bits) =
      rest ++ [0x80] ++ List.replicate (56 - (rest ++ [(0x80 : UInt8)]).length) 0 ++
        Fips180.bigEndian 8 bits := by
  have zeros : (119 - rest.length) % 64 = 56 - (rest ++ [(0x80 : UInt8)]).length := by
    simp only [List.length_append, List.length_singleton]
    omega
  rw [zeros]
  simp

/-- The padding that takes one more block. -/
theorem padding_two {rest : List UInt8} (far : 56 < rest.length + 1) (below : rest.length < 64)
    (bits : Nat) :
    rest ++ (0x80 :: List.replicate ((119 - rest.length) % 64) 0 ++ Fips180.bigEndian 8 bits) =
      (rest ++ [0x80] ++ List.replicate (64 - (rest ++ [(0x80 : UInt8)]).length) 0) ++
        ([] ++ List.replicate (56 - ([] : List UInt8).length) 0 ++ Fips180.bigEndian 8 bits) := by
  have zeros : (119 - rest.length) % 64 = (64 - (rest ++ [(0x80 : UInt8)]).length) + 56 := by
    simp only [List.length_append, List.length_singleton]
    omega
  rw [zeros, List.replicate_add]
  simp

theorem finish_spec {tables : Tables} (standard : tables.constants = Fips180.constants)
    {hash : Sha256} {message : List UInt8} (absorbed : Absorbed hash message)
    (short : message.length < 2 ^ 61) : hash.finish tables = Fips180.sha256 message := by
  obtain ⟨total, n, whole, rest, rfl, full, below, holds, state⟩ := absorbed
  have bits : hash.totalBytes * 8 % 2 ^ 64 = 8 * (whole ++ rest).length := by
    rw [total]
    omega
  have marked := write_holds holds below 0x80
  have size : (rest ++ [(0x80 : UInt8)]).length = rest.length + 1 := List.length_append
  have modulus : (whole ++ rest).length % 64 = rest.length := by
    rw [List.length_append, full]
    omega
  rw [Fips180.sha256, Fips180.padding, modulus, List.append_assoc, Fips180.blocks_append full,
    List.foldl_append, ← state]
  simp only [Sha256.finish, bits, marked.place, size, digest_bytes, transform_spec standard]
  by_cases far : rest.length + 1 > 56
  · simp only [if_pos far]
    obtain ⟨filled, same⟩ := fill_holds marked (by omega) le_rfl
    have second := padding_two (by omega) below (8 * (whole ++ rest).length)
    have empty : Holds { (hash.write 0x80).fill 64 with
        state := compress ((hash.write 0x80).fill 64).state ((hash.write 0x80).fill 64).block
        blockSize := 0 } [] := ⟨filled.size, rfl, rfl⟩
    have full' : (rest ++ [(0x80 : UInt8)] ++
        List.replicate (64 - (rest ++ [(0x80 : UInt8)]).length) 0).length = 64 := by
      simp
      omega
    have same' := (fill_holds empty (show [].length ≤ 56 by decide) (by decide)).2
    rw [last_block empty (by decide), same', filled.whole full', same, second,
      Fips180.blocks_cons full', blocks_single (by simp)]
    rfl
  · simp only [if_neg far]
    have near : (rest ++ [(0x80 : UInt8)]).length ≤ 56 := by omega
    have same := (fill_holds marked near (by decide)).2
    have block := padding_one (show rest.length + 1 ≤ 56 by omega) (8 * (whole ++ rest).length)
    rw [last_block marked (by omega), same, block, blocks_single (by simp; omega)]
    rfl

theorem digest_spec {tables : Tables} (same : tables = treeFormat) (chunks : List (List UInt8))
    (short : chunks.flatten.length < 2 ^ 61) :
    digest tables chunks = Fips180.sha256 chunks.flatten := by
  obtain ⟨constants, initial⟩ := treeFormat_tables
  subst same
  have absorbed := updates_absorbed constants (start_absorbed initial) chunks
  exact finish_spec constants absorbed short

/-! The text hashed for a generation. -/

theorem lengthField_spec (size : Nat) : lengthField size = Fips180.bigEndian 8 size := by
  rw [← bigEndian_shift]
  simp [lengthField, List.range_succ]

/-- What `add_field` feeds. -/
def fieldText (value : List UInt8) : List UInt8 := lengthField value.length ++ value

/-- What the generation of two records is hashed of. -/
def generationInput (repositories : RuntimeRepository × RuntimeRepository) : List UInt8 :=
  fieldText snapshotSchema ++
    (fields repositories.1 ++ fields repositories.2).flatMap (fun value => fieldText value.val)

theorem fieldText_length (value : List UInt8) : (fieldText value).length = 8 + value.length := by
  rw [fieldText, lengthField_spec, List.length_append, Fips180.bigEndian_length]

/-- A field ends where its length says. -/
theorem fieldText_cancel {a b : StdString} {x y : List UInt8}
    (same : fieldText a.val ++ x = fieldText b.val ++ y) : a = b ∧ x = y := by
  rw [fieldText, fieldText, List.append_assoc, List.append_assoc] at same
  obtain ⟨head, tail⟩ := List.append_inj same (by simp [lengthField_spec])
  rw [lengthField_spec, lengthField_spec] at head
  have length : a.val.length = b.val.length := Fips180.bigEndian_injective a.2 b.2 head
  obtain ⟨text, rest⟩ := List.append_inj tail length
  exact ⟨Subtype.ext text, rest⟩

theorem fieldTexts_injective {values values' : List StdString}
    (same : values.flatMap (fun value => fieldText value.val) =
      values'.flatMap (fun value => fieldText value.val)) : values = values' := by
  induction values generalizing values' with
  | nil =>
    cases values' with
    | nil => rfl
    | cons value rest =>
      have size := congrArg List.length same
      rw [List.flatMap_cons, List.length_append, fieldText_length, List.flatMap_nil,
        List.length_nil] at size
      omega
  | cons value values ih =>
    cases values' with
    | nil =>
      have size := congrArg List.length same
      rw [List.flatMap_cons, List.length_append, fieldText_length, List.flatMap_nil,
        List.length_nil] at size
      omega
    | cons value' rest =>
      rw [List.flatMap_cons, List.flatMap_cons] at same
      obtain ⟨rfl, later⟩ := fieldText_cancel same
      rw [ih later]

theorem generationInput_injective : Function.Injective generationInput := by
  intro pair pair' same
  obtain ⟨⟨id, commit, root, manifest, sha⟩, ⟨id2, commit2, root2, manifest2, sha2⟩⟩ := pair
  have values := fieldTexts_injective (List.append_cancel_left same)
  simp only [fields, List.cons_append, List.nil_append, List.cons.injEq] at values
  obtain ⟨rfl, rfl, rfl, rfl, rfl, rfl, rfl, rfl, rfl, rfl, -⟩ := values
  rfl

theorem addField_spec (hash : Sha256) (value : List UInt8) :
    addField hash value = hash.update snapshot (fieldText value) := by
  rw [addField, fieldText, Sha256.update, Sha256.update, Sha256.update, List.foldl_append]

theorem addFields_spec (hash : Sha256) (values : List StdString) :
    values.foldl (fun hash value => addField hash value.val) hash =
      hash.update snapshot (values.flatMap (fun value => fieldText value.val)) := by
  induction values generalizing hash with
  | nil => rfl
  | cons value values ih =>
    rw [List.foldl_cons, ih, addField_spec, List.flatMap_cons, Sha256.update, Sha256.update,
      Sha256.update, List.foldl_append]

/-- The generation is the digest of the fields of both records. -/
theorem generation_spec {repositories : RuntimeRepository × RuntimeRepository} {text : List UInt8}
    (named : runtimeRepositoryGeneration repositories = .ok text)
    (short : (generationInput repositories).length < 2 ^ 61) :
    text = hex (Fips180.sha256 (generationInput repositories)) := by
  unfold runtimeRepositoryGeneration at named
  split at named
  · cases named
  · rw [← Except.ok.inj named, addFields_spec, addFields_spec, addField_spec]
    have whole := digest_spec (show snapshot = treeFormat from rfl) [generationInput repositories]
      (by rwa [List.flatten_singleton])
    rw [List.flatten_singleton] at whole
    rw [← whole, digest, List.foldl_cons, List.foldl_nil, generationInput, List.flatMap_append]
    simp only [Sha256.update, List.foldl_append]

/-- Every class computes the standard's digest of the chunks together, and the text hashed for
a generation gives its records back. -/
theorem digests_exact :
    (∀ tables, tables = treeFormat ∨ tables = snapshot ∨ tables = updater →
      ∀ chunks : List (List UInt8), chunks.flatten.length < 2 ^ 61 →
        digest tables chunks = Fips180.sha256 chunks.flatten) ∧
      (∀ repositories text, runtimeRepositoryGeneration repositories = .ok text →
        (generationInput repositories).length < 2 ^ 61 →
          text = hex (Fips180.sha256 (generationInput repositories))) ∧
      Function.Injective generationInput := by
  refine ⟨fun tables class' chunks short => ?_, fun repositories text named short => ?_,
    generationInput_injective⟩
  · obtain rfl | rfl | rfl := class'
    · exact digest_spec rfl chunks short
    · exact digest_spec rfl chunks short
    · exact digest_spec rfl chunks short
  · exact generation_spec named short

theorem digests_exact_abc :
    digest updater [[0x61], [], [0x62, 0x63]] = Fips180.sha256 [0x61, 0x62, 0x63] :=
  digests_exact.1 updater (.inr (.inr rfl)) [[0x61], [], [0x62, 0x63]] (by decide)

end Baas.Digest
