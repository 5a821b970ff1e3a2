import Mathlib.Data.List.Nodup
import Mathlib.Data.List.Infix

/-! Lists read from a position on and around to it, and which of two members comes first. -/
namespace Rotation

variable {α : Type*}

/-- The members from a position on, then those before it. -/
def turn (k : Nat) (l : List α) : List α := l.drop k ++ l.take k

/-- The members at two positions change places. -/
def swap (i j : Nat) (l : List α) : List α :=
  match l[i]?, l[j]? with
  | some a, some b => (l.set i b).set j a
  | _, _ => l

/-- One member stands before another. -/
def Before (l : List α) (a b : α) : Prop := List.Sublist [a, b] l

theorem turn_perm (k : Nat) (l : List α) : (turn k l).Perm l := by
  have whole := List.take_append_drop k l
  calc (turn k l).Perm (l.take k ++ l.drop k) := List.perm_append_comm
    _ = l := whole

theorem mem_turn {k : Nat} {l : List α} {a : α} : a ∈ turn k l ↔ a ∈ l := (turn_perm k l).mem_iff

@[simp] theorem turn_zero (l : List α) : turn 0 l = l := by simp [turn]

/-- The member at the position comes first. -/
theorem turn_cons {k : Nat} {l : List α} {a : α} (here : l[k]? = some a) :
    turn k l = a :: (l.drop (k + 1) ++ l.take k) := by
  obtain ⟨inside, rfl⟩ := List.getElem?_eq_some_iff.mp here
  rw [turn, List.drop_eq_getElem_cons inside, List.cons_append]

/-- The next position puts the first member last. -/
theorem turn_succ {k : Nat} {l : List α} {a : α} (here : l[k]? = some a) :
    turn (k + 1) l = l.drop (k + 1) ++ l.take k ++ [a] := by
  rw [turn, List.take_add_one, here, Option.toList_some, List.append_assoc]

/-- A position past the end starts anew, and so puts the last member last. -/
theorem turn_last {k : Nat} {l : List α} {a : α} (here : l[k]? = some a)
    (ended : l.length ≤ k + 1) : l = l.drop (k + 1) ++ l.take k ++ [a] := by
  rw [← turn_succ here, turn, List.drop_eq_nil_of_le ended, List.take_of_length_le ended,
    List.nil_append]

@[simp] theorem length_swap (i j : Nat) (l : List α) : (swap i j l).length = l.length := by
  unfold swap
  split <;> simp

theorem map_swap {β : Type*} (f : α → β) (i j : Nat) (l : List α) :
    (swap i j l).map f = swap i j (l.map f) := by
  unfold swap
  simp only [List.getElem?_map]
  cases l[i]? <;> cases l[j]? <;> simp [List.map_set]

/-- Two members of a list that is given by its parts change places. -/
theorem swap_parts (front mid tail : List α) (x f : α) :
    swap (front.length + 1 + mid.length) front.length (front ++ x :: (mid ++ f :: tail)) =
      front ++ f :: (mid ++ x :: tail) := by
  have first : (front ++ x :: (mid ++ f :: tail))[front.length]? = some x := by simp
  have second :
      (front ++ x :: (mid ++ f :: tail))[front.length + 1 + mid.length]? = some f := by
    rw [List.getElem?_append_right (by omega)]
    have place : front.length + 1 + mid.length - front.length = mid.length + 1 := by omega
    rw [place, List.getElem?_cons_succ]
    simp
  have place : front.length + 1 + mid.length - front.length = mid.length + 1 := by omega
  rw [swap, second, first]
  dsimp only
  rw [List.set_append_right _ _ (by omega), place, List.set_cons_succ,
    List.set_append_right _ _ (Nat.le_refl _), Nat.sub_self, List.set_cons_zero,
    List.set_append_right _ _ (Nat.le_refl _), Nat.sub_self, List.set_cons_zero]

theorem swap_self (i : Nat) (l : List α) : swap i i l = l := by
  unfold swap
  cases shape : l[i]? with
  | none => rfl
  | some a =>
    obtain ⟨inside, rfl⟩ := List.getElem?_eq_some_iff.mp shape
    dsimp only
    rw [List.set_set, List.set_getElem_self]

theorem mem_of_mem_swap {i j : Nat} {l : List α} {a : α} (mem : a ∈ swap i j l) : a ∈ l := by
  unfold swap at mem
  split at mem
  · next first second =>
    rcases List.mem_or_eq_of_mem_set mem with before | rfl
    · rcases List.mem_or_eq_of_mem_set before with before | rfl
      · exact before
      · exact List.mem_of_getElem? second
    · exact List.mem_of_getElem? first
  · exact mem

/-- A list by the parts around a position. -/
theorem parts_at {l : List α} {k : Nat} {a : α} (here : l[k]? = some a) :
    ∃ mid tail, l = mid ++ a :: tail ∧ mid.length = k := by
  obtain ⟨inside, rfl⟩ := List.getElem?_eq_some_iff.mp here
  refine ⟨l.take k, l.drop (k + 1), ?_, List.length_take_of_le inside.le⟩
  rw [← List.drop_eq_getElem_cons inside, List.take_append_drop]

theorem turn_parts (mid tail : List α) (a : α) :
    turn mid.length (mid ++ a :: tail) = a :: (tail ++ mid) := by
  rw [turn, List.drop_left, List.take_left, List.cons_append]

/-- A new member in front of the list stands behind those from the position on. -/
theorem turn_new_front (k : Nat) (l : List α) (n : α) :
    turn (k + 1) (n :: l) = l.drop k ++ n :: l.take k := rfl

theorem turn_new_back {k : Nat} {l : List α} (inside : k ≤ l.length) (n : α) :
    turn k (l ++ [n]) = l.drop k ++ n :: l.take k := by
  rw [turn, List.drop_append_of_le_length inside, List.take_append_of_le_length inside,
    List.append_assoc, List.singleton_append]

/-- A member written into the place before the rest of a list. -/
theorem drop_set (l : List α) {i : Nat} (inside : i < l.length) (a : α) :
    (l.set i a).drop i = a :: l.drop (i + 1) := by
  have place : i < (l.set i a).length := by rwa [List.length_set]
  rw [List.drop_eq_getElem_cons place, List.getElem_set_self,
    List.drop_set_of_lt (Nat.lt_succ_self i)]

theorem Before.mem_right {l : List α} {a b : α} (h : Before l a b) : b ∈ l :=
  h.subset (List.mem_cons_of_mem _ (List.mem_singleton_self _))

/-- Nothing comes before the first member of a list without repetitions. -/
theorem not_before_first {l : List α} {a b : α} (distinct : (b :: l).Nodup) :
    ¬ Before (b :: l) a b := by
  intro h
  cases h with
  | cons _ rest => exact (List.nodup_cons.mp distinct).1 (Before.mem_right rest)
  | cons_cons _ rest =>
    exact (List.nodup_cons.mp distinct).1 (rest.subset (List.mem_singleton_self _))

/-- The last member comes after every other one. -/
theorem before_last {l : List α} {a b : α} (mem : a ∈ l) : Before (l ++ [b]) a b :=
  (List.singleton_sublist.mpr mem).append (List.Sublist.refl [b])

theorem Before.of_cons {l : List α} {a b f : α} (h : Before (f :: l) a b) (other : a ≠ f) :
    Before l a b := by
  cases h with
  | cons _ rest => exact rest
  | cons_cons _ rest => exact absurd rfl other

theorem Before.insert {front tail : List α} {a b n : α} (h : Before (front ++ tail) a b) :
    Before (front ++ n :: tail) a b :=
  h.trans ((List.Sublist.refl front).append (List.sublist_cons_self n tail))

/-- A member that moves to the front passes nothing but what it is compared with. -/
theorem Before.advance {front tail : List α} {a b x : α} (h : Before (front ++ x :: tail) a b)
    (other : b ≠ x) : Before (x :: (front ++ tail)) a b := by
  by_cases self : a = x
  · subst self
    have mem : b ∈ front ++ tail := by
      have whole := h.mem_right
      simp only [List.mem_append, List.mem_cons] at whole ⊢
      tauto
    exact (List.singleton_sublist.mpr mem).cons_cons a
  obtain ⟨left, right, parts, inFront, inRest⟩ := List.sublist_append_iff.mp h
  rcases List.sublist_cons_iff.mp inRest with inTail | ⟨rest, taken, -⟩
  · exact (parts ▸ inFront.append inTail).cons x
  · have mem : x ∈ [a, b] := by rw [parts, taken]; simp
    rcases List.mem_pair.mp mem with eq | eq
    · exact absurd eq.symm self
    · exact absurd eq.symm other

/-- A queue that is served in turn. The first member may be on lease. -/
structure Service (α : Type*) where
  order : List α
  busy : Bool

/-- One step of a service: who is leased by it, and who overtakes the others in it. A member
may be added; it is named. -/
inductive Service.Step (fresh : α) :
    Service α → (leased overtaken : Option α) → Service α → Prop
  | idle (s : Service α) : Step fresh s none none s
  | lease (f : α) (rest : List α) : Step fresh ⟨f :: rest, false⟩ (some f) none ⟨f :: rest, true⟩
  | retry (order : List α) : Step fresh ⟨order, true⟩ none none ⟨order, false⟩
  | defer (f : α) (rest : List α) :
    Step fresh ⟨f :: rest, true⟩ none none ⟨rest ++ [f], false⟩
  | finish (f : α) (rest : List α) : Step fresh ⟨f :: rest, true⟩ none none ⟨rest, false⟩
  | overtake (f x : α) (tail mid : List α) :
    Step fresh ⟨f :: (tail ++ x :: mid), true⟩ none (some x) ⟨x :: (tail ++ mid), false⟩
  | add (front back : List α) (busy : Bool) (kept : busy = true → front ≠ []) :
    Step fresh ⟨front ++ back, busy⟩ none none ⟨front ++ fresh :: back, busy⟩
  | clear (s : Service α) : Step fresh s none none ⟨[], false⟩

/-- Members stay or leave, and only the named one is new. -/
theorem Service.Step.members {fresh : α} {s t : Service α} {leased overtaken : Option α}
    (step : Step fresh s leased overtaken t) {a : α} (mem : a ∈ t.order) :
    a ∈ s.order ∨ a = fresh := by
  cases step with
  | idle => exact .inl mem
  | lease => exact .inl mem
  | retry => exact .inl mem
  | clear => exact absurd mem List.not_mem_nil
  | finish => exact .inl (List.mem_cons_of_mem _ mem)
  | defer => exact .inl (List.perm_append_singleton _ _ |>.mem_iff.mp mem)
  | overtake f x tail mid =>
    exact .inl (List.mem_cons_of_mem f (List.perm_middle.mem_iff.mpr mem))
  | add front back =>
    rcases List.mem_cons.mp (List.perm_middle.mem_iff.mp mem) with new | old
    · exact .inr new
    · exact .inl old

/-- What is on lease after a step was so before it, or is leased by it. -/
theorem Service.Step.on_lease {fresh : α} {s t : Service α} {leased overtaken : Option α}
    (step : Step fresh s leased overtaken t) {a : α} {rest : List α} (busy : t.busy = true)
    (order : t.order = a :: rest) :
    leased = some a ∨ (s.busy = true ∧ ∃ rest', s.order = a :: rest') := by
  cases step with
  | idle => exact .inr ⟨busy, rest, order⟩
  | lease f others => exact .inl (congrArg some (List.cons.inj order).1)
  | retry => exact absurd busy Bool.false_ne_true
  | defer => exact absurd busy Bool.false_ne_true
  | finish => exact absurd busy Bool.false_ne_true
  | overtake => exact absurd busy Bool.false_ne_true
  | clear => exact absurd busy Bool.false_ne_true
  | add front back busy' kept =>
    refine .inr ⟨busy, ?_⟩
    cases front with
    | nil => exact absurd rfl (kept busy)
    | cons f others => exact ⟨others ++ back, congrArg (· :: _) (List.cons.inj order).1⟩

/-- A member that stands before another one still does after a step that neither takes it
out nor lets the other one overtake. What is on lease is neither of them. -/
theorem Service.Step.before {fresh a b : α} {s t : Service α} {leased overtaken : Option α}
    (step : Step fresh s leased overtaken t) (distinct : s.order.Nodup)
    (before : Before s.order a b) (waiting : s.busy = true → s.order.head? ≠ some a)
    (stayA : a ∈ t.order) (stayB : b ∈ t.order) (polite : overtaken ≠ some b) :
    Before t.order a b := by
  cases step with
  | idle => exact before
  | lease => exact before
  | retry => exact before
  | defer f rest =>
    have other : a ≠ f := fun eq => waiting rfl (congrArg some eq.symm)
    exact (before.of_cons other).trans (List.sublist_append_left _ _)
  | finish f rest =>
    exact before.of_cons fun eq => waiting rfl (congrArg some eq.symm)
  | overtake f x tail mid =>
    have other : a ≠ f := fun eq => waiting rfl (congrArg some eq.symm)
    exact (before.of_cons other).advance fun eq => polite (congrArg some eq.symm)
  | add front back busy kept => exact before.insert
  | clear => exact absurd stayA List.not_mem_nil

theorem Service.Step.overtaking {fresh x : α} {s t : Service α} {leased : Option α}
    (step : Step fresh s leased (some x) t) : ∃ f tail mid, leased = none ∧
      s = ⟨f :: (tail ++ x :: mid), true⟩ ∧ t = ⟨x :: (tail ++ mid), false⟩ := by
  cases step with
  | overtake f _ tail mid => exact ⟨f, tail, mid, rfl, rfl, rfl⟩

/-- Everyone who still waits stands before one member, and is not on lease. -/
structure Waits (b : α) (waiting : α → Prop) (s : Service α) : Prop where
  ahead : ∀ a, waiting a → a ≠ b → b ∈ s.order → Before s.order a b
  lease : s.busy = true → ∀ a, s.order.head? = some a → ¬ waiting a

/-- A member that was put last has everyone who waits before it. -/
theorem Waits.put_last {b : α} {waiting : α → Prop} {order : List α}
    (present : ∀ a, waiting a → a ∈ order ++ [b]) : Waits b waiting ⟨order ++ [b], false⟩ := by
  refine ⟨fun a waits other _ => ?_, fun busy => absurd busy Bool.false_ne_true⟩
  rcases List.mem_append.mp (present a waits) with mem | self
  · exact before_last mem
  · exact absurd (List.mem_singleton.mp self) other

/-- It stays so as long as the member overtakes no one who waits. -/
theorem Waits.step {fresh b : α} {waiting waiting' : α → Prop} {s t : Service α}
    {leased overtaken : Option α} (waits : Waits b waiting s)
    (step : Service.Step fresh s leased overtaken t) (distinct : s.order.Nodup)
    (still : ∀ a, waiting' a → waiting a ∧ leased ≠ some a ∧ a ∈ t.order) (old : b ≠ fresh)
    (polite : overtaken = some b → ∀ a, waiting' a → a = b) : Waits b waiting' t := by
  constructor
  · intro a waits' other mem
    obtain ⟨waited, -, stays⟩ := still a waits'
    have before : b ∈ s.order := (step.members mem).resolve_right old
    refine step.before distinct (waits.ahead a waited other before) ?_ stays mem ?_
    · exact fun busy first => waits.lease busy a first waited
    · exact fun overtook => other (polite overtook a waits')
  · intro busy a first waits'
    obtain ⟨waited, notLeased, -⟩ := still a waits'
    obtain ⟨rest, order⟩ : ∃ rest, t.order = a :: rest := by
      cases shape : t.order with
      | nil => rw [shape] at first; exact absurd first nofun
      | cons c rest =>
        rw [shape] at first
        exact ⟨rest, by rw [Option.some.inj first]⟩
    rcases step.on_lease busy order with leasedNow | ⟨wasBusy, rest', order'⟩
    · exact notLeased leasedNow
    · exact waits.lease wasBusy a (by rw [order']; rfl) waited

/-- When the member is leased, no one waits any more. -/
theorem Waits.served {fresh b : α} {waiting : α → Prop} {s t : Service α}
    {overtaken : Option α} (waits : Waits b waiting s)
    (step : Service.Step fresh s (some b) overtaken t) (distinct : s.order.Nodup) :
    ∀ a, waiting a → a = b := by
  cases step with
  | lease _ rest =>
    intro a waiting
    by_contra other
    exact not_before_first distinct (waits.ahead a waiting other (List.mem_cons_self))

end Rotation
