import Baas.Runtime.TaskOwnerSections

/-! What every section keeps of the registry: its slots, the reservations that are out
and the count of them. -/
namespace Baas.RuntimeTaskOwner

open Transition

/-- A job that may end but never comes to life. -/
inductive Fades : Option Job → Option Job → Prop
  | absent : Fades none none
  | kept {job job' : Job} : job'.snapshot.configId = job.snapshot.configId →
      (job.phase = .completed → job'.phase = .completed) → Fades (some job) (some job')

theorem Fades.refl (job : Option Job) : Fades job job := by
  cases job with
  | none => exact .absent
  | some job => exact .kept rfl id

theorem fades_insert {s : State} {g : Generation} {job job' : Job}
    (found : s.arena.find? g = some job)
    (config : job'.snapshot.configId = job.snapshot.configId)
    (ends : job.phase = .completed → job'.phase = .completed) (g' : Generation) :
    Fades (s.arena.find? g') ((s.arena.insert g job').find? g') := by
  rw [OrderedMap.find?_insert]
  split
  · rename_i same
    rw [← same, found]
    exact .kept config ends
  · exact .refl _

theorem Fades.forward {before after : Option Job} (fades : Fades before after) {job : Job}
    (found : before = some job) : ∃ job', after = some job' ∧
      job'.snapshot.configId = job.snapshot.configId ∧
      (job.phase = .completed → job'.phase = .completed) := by
  cases fades with
  | absent => cases found
  | kept config ends =>
    cases found
    exact ⟨_, rfl, config, ends⟩

theorem Fades.backward {before after : Option Job} (fades : Fades before after) {job' : Job}
    (found : after = some job') : ∃ job, before = some job ∧
      job'.snapshot.configId = job.snapshot.configId ∧
      (job.phase = .completed → job'.phase = .completed) := by
  cases fades with
  | absent => cases found
  | kept config ends =>
    cases found
    exact ⟨_, rfl, config, ends⟩

/-- The registry does not look at the jobs beyond their configs and whether they live. -/
theorem Registry.fade {s : State} (reg : Registry s) {arena : OrderedMap Generation Job}
    (fades : ∀ g, Fades (s.arena.find? g) (arena.find? g)) (accepting : Bool)
    (commits : OrderedMap Generation CommitPoint) (calls : List Call) :
    Registry { s with arena, accepting, commits, calls } where
  alive := reg.alive
  active := reg.active
  capacity := reg.capacity
  occupied := reg.occupied
  oneGate := reg.oneGate
  startHeld g point held := by
    obtain ⟨job, slot, found, present, reserved⟩ := reg.startHeld g point held
    obtain ⟨job', found', config, _⟩ := (fades g).forward found
    exact ⟨job', slot, found', config ▸ present, reserved⟩
  reservedHeld := reg.reservedHeld
  reservedKnown configId slot g present reserved := by
    obtain ⟨job, found, config⟩ := reg.reservedKnown configId slot g present reserved
    obtain ⟨job', found', config', _⟩ := (fades g).forward found
    exact ⟨job', found', config'.trans config⟩
  stopHeld := reg.stopHeld
  gateHeld := reg.gateHeld
  stopsDistinct := reg.stopsDistinct
  stopAllHeld := reg.stopAllHeld
  stopAllAlone := reg.stopAllAlone
  currentKnown configId slot g present current := by
    obtain ⟨job, found, config⟩ := reg.currentKnown configId slot g present current
    obtain ⟨job', found', config', _⟩ := (fades g).forward found
    exact ⟨job', found', config'.trans config⟩
  liveCurrent g job' found' live := by
    obtain ⟨job, found, config, ends⟩ := (fades g).backward found'
    rw [config]
    exact reg.liveCurrent g job found (fun final => live (ends final))
  reservedIdle configId slot p job' present reserved current found' := by
    obtain ⟨job, found, _, ends⟩ := (fades p).backward found'
    exact ends (reg.reservedIdle configId slot p job present reserved current found)
  fresh g job' found' := by
    obtain ⟨job, found, _, _⟩ := (fades g).backward found'
    exact reg.fresh g job found
  nextBounded := reg.nextBounded

/-- A start reservation moves to its next point. -/
theorem Registry.advance {s : State} (reg : Registry s) {g : Generation} {point : StartPoint}
    (held : s.starts.find? g = some point) (next : StartPoint) :
    Registry { s with starts := s.starts.insert g next } where
  alive := reg.alive
  active := by
    rw [OrderedMap.size_insert, held, Option.isSome_some, if_pos rfl]
    exact reg.active
  capacity := reg.capacity
  occupied := reg.occupied
  oneGate := reg.oneGate
  startHeld g' point' held' := by
    by_cases same : g = g'
    · subst same
      exact reg.startHeld g point held
    · rw [OrderedMap.find?_insert_ne _ _ same] at held'
      exact reg.startHeld g' point' held'
  reservedHeld configId slot g' present reserved := by
    by_cases same : g = g'
    · subst same
      exact ⟨next, OrderedMap.find?_insert_self _ _ _⟩
    · obtain ⟨point', held'⟩ := reg.reservedHeld configId slot g' present reserved
      exact ⟨point', by rw [OrderedMap.find?_insert_ne _ _ same]; exact held'⟩
  reservedKnown := reg.reservedKnown
  stopHeld := reg.stopHeld
  gateHeld := reg.gateHeld
  stopsDistinct := reg.stopsDistinct
  stopAllHeld := reg.stopAllHeld
  stopAllAlone all := by
    have := OrderedMap.size_pos held
    have := (reg.stopAllAlone all).1
    omega
  currentKnown := reg.currentKnown
  liveCurrent := reg.liveCurrent
  reservedIdle := reg.reservedIdle
  fresh := reg.fresh
  nextBounded := reg.nextBounded

theorem FreeSlot.reserved {s : State} {configId : ConfigId} {slot : ConfigSlot}
    (free : FreeSlot s configId slot) : slot.reserved = none := by
  cases free with
  | present _ reserved _ => exact reserved
  | added => rfl

theorem FreeSlot.gate {s : State} {configId : ConfigId} {slot : ConfigSlot}
    (free : FreeSlot s configId slot) : slot.stopReserved = false := by
  cases free with
  | present _ _ gate => exact gate
  | added => rfl

theorem FreeSlot.room {s : State} {configId : ConfigId} {slot : ConfigSlot} (reg : Registry s)
    (free : FreeSlot s configId slot) (taken : ConfigSlot) :
    (s.jobs.insert configId taken).size ≤ s.limits.maxConfigs := by
  rw [OrderedMap.size_insert]
  cases free with
  | present found _ _ => rw [found, Option.isSome_some, if_pos rfl]; exact reg.capacity
  | added absent room => rw [absent, Option.isSome_none]; exact room

/-- What the registry holds at the config is this slot, or nothing at all. -/
theorem FreeSlot.unique {s : State} {configId : ConfigId} {slot other : ConfigSlot}
    (free : FreeSlot s configId slot) (found : s.jobs.find? configId = some other) :
    other = slot := by
  cases free with
  | present present _ _ => exact Option.some.inj (found.symm.trans present)
  | added absent _ => cases found.symm.trans absent

theorem FreeSlot.current {s : State} {configId : ConfigId} {slot : ConfigSlot}
    (free : FreeSlot s configId slot) {g : Generation} (current : slot.current = some g) :
    s.jobs.find? configId = some slot := by
  cases free with
  | present present _ _ => exact present
  | added => cases current

theorem Registry.unallocated {s : State} (reg : Registry s) (unspent : s.nextJobGeneration ≠ 0) :
    s.arena.find? s.nextJobGeneration = none := by
  cases found : s.arena.find? s.nextJobGeneration with
  | none => rfl
  | some job =>
    rcases reg.fresh _ job found with zero | below
    · exact absurd zero unspent
    · exact absurd below (Nat.lt_irrefl _)

theorem bump_fresh {g next : Nat} (bounded : next < wordRange) (below : g ≤ next) :
    bump next = 0 ∨ g < bump next := by
  unfold bump
  rcases Nat.lt_or_ge (next + 1) wordRange with small | full
  · rw [Nat.mod_eq_of_lt small]
    omega
  · have : next + 1 = wordRange := by omega
    rw [this, Nat.mod_self]
    exact .inl rfl

theorem bump_bounded (next : Generation) : bump next < wordRange :=
  Nat.mod_lt _ (by decide)

/-- A slot of the registry after one slot was put in place: the new one, or an old one
under another config. -/
theorem slot_cases {jobs : OrderedMap ConfigId ConfigSlot} {configId key : ConfigId}
    {slot found : ConfigSlot} (h : (jobs.insert configId slot).find? key = some found) :
    (key = configId ∧ found = slot) ∨ (configId ≠ key ∧ jobs.find? key = some found) := by
  rw [OrderedMap.find?_insert] at h
  split at h
  · rename_i same
    exact .inl ⟨same.symm, (Option.some.inj h).symm⟩
  · rename_i other
    exact .inr ⟨other, h⟩

/-- A job that is already there keeps its place when a new one is added. -/
theorem Registry.known {s : State} (reg : Registry s) (unspent : s.nextJobGeneration ≠ 0)
    {g : Generation} {job : Job} (found : s.arena.find? g = some job) (added : Job) :
    (s.arena.insert s.nextJobGeneration added).find? g = some job := by
  rw [OrderedMap.find?_insert_ne _ _ (fun same => ?_)]
  · exact found
  · have none := reg.unallocated unspent
    rw [same, found] at none
    cases none

theorem Registry.live {s : State} (reg : Registry s) (g : Generation) (job : Job)
    (found : s.arena.find? g = some job) (live : job.phase ≠ .completed) : ∃ slot,
    s.jobs.find? job.snapshot.configId = some slot ∧ slot.current = some g :=
  reg.liveCurrent g job found live

theorem Registry.reserve {s : State} (reg : Registry s) (calm : s.stopAllReserved = false)
    {configId : ConfigId} {slot : ConfigSlot} (free : FreeSlot s configId slot)
    (idle : ∀ p job, slot.current = some p → s.arena.find? p = some job →
      job.phase = .completed)
    (unspent : s.nextJobGeneration ≠ 0) {job : Job} (config : job.snapshot.configId = configId)
    (phase : job.phase = .completed) (point : StartPoint) :
    Registry { s with
      nextJobGeneration := bump s.nextJobGeneration
      arena := s.arena.insert s.nextJobGeneration job
      jobs := s.jobs.insert configId { slot with reserved := some s.nextJobGeneration }
      activeReservations := s.activeReservations + 1
      starts := s.starts.insert s.nextJobGeneration point } := by
  have new := reg.unallocated unspent
  have noStart : s.starts.find? s.nextJobGeneration = none := by
    cases held : s.starts.find? s.nextJobGeneration with
    | none => rfl
    | some point =>
      obtain ⟨job, _, found, _⟩ := reg.startHeld _ _ held
      cases new.symm.trans found
  have reserved := free.reserved
  have gate := free.gate
  have known (g : Generation) (job : Job) (found : s.arena.find? g = some job) :=
    reg.known unspent found
  refine
    { alive := reg.alive
      active := ?active
      capacity := free.room reg _
      occupied := by grind [→ slot_cases, → reg.occupied]
      oneGate := by grind [→ slot_cases, → reg.oneGate]
      startHeld := by grind [OrderedMap.find?_insert, → reg.startHeld, → free.unique]
      reservedHeld := ?reservedHeld
      reservedKnown := by grind [→ slot_cases, OrderedMap.find?_insert, → reg.reservedKnown]
      stopHeld := by grind [OrderedMap.find?_insert, → reg.stopHeld, → free.unique]
      gateHeld := by grind [→ slot_cases, → reg.gateHeld]
      stopsDistinct := reg.stopsDistinct
      stopAllHeld := reg.stopAllHeld
      stopAllAlone := fun all => absurd (reg.stopAllHeld.mpr all) (by simp [calm])
      currentKnown := by grind [→ slot_cases, → reg.currentKnown, free.current]
      liveCurrent := by
        grind [OrderedMap.find?_insert, → reg.live, → free.unique, State.IsCurrent]
      reservedIdle := by
        grind [→ slot_cases, OrderedMap.find?_insert, → reg.reservedIdle, free.current,
          → reg.currentKnown]
      fresh := ?fresh
      nextBounded := bump_bounded _ }
  case active =>
    rw [OrderedMap.size_insert, noStart, reg.active]
    simp only [Option.isSome_none, Bool.false_eq_true, if_false]
    omega
  case reservedHeld =>
    intro key found g present held
    rcases slot_cases present with ⟨_, rfl⟩ | ⟨_, present⟩
    · cases held
      exact ⟨point, OrderedMap.find?_insert_self _ _ _⟩
    · obtain ⟨old, held⟩ := reg.reservedHeld key found g present held
      by_cases same : s.nextJobGeneration = g
      · exact ⟨point, by rw [same]; exact OrderedMap.find?_insert_self _ _ _⟩
      · exact ⟨old, by rw [OrderedMap.find?_insert_ne _ _ same]; exact held⟩
  case fresh =>
    intro g other found
    apply bump_fresh reg.nextBounded
    rw [OrderedMap.find?_insert] at found
    split at found
    · rename_i same
      exact Nat.le_of_eq same.symm
    · rcases reg.fresh g other found with zero | below
      · exact absurd zero unspent
      · exact Nat.le_of_lt below

/-- A job that will never run is only added to the arena. -/
theorem Registry.grow {s : State} (reg : Registry s) (unspent : s.nextJobGeneration ≠ 0)
    {job : Job} (phase : job.phase = .completed) :
    Registry { s with
      nextJobGeneration := bump s.nextJobGeneration
      arena := s.arena.insert s.nextJobGeneration job } := by
  have known (g : Generation) (job : Job) (found : s.arena.find? g = some job) :=
    reg.known unspent found
  refine
    { reg with
      startHeld := by grind [→ reg.startHeld]
      reservedKnown := by grind [→ reg.reservedKnown]
      currentKnown := by grind [→ reg.currentKnown]
      liveCurrent := by grind [OrderedMap.find?_insert, → reg.live, State.IsCurrent]
      reservedIdle := by grind [OrderedMap.find?_insert, → reg.reservedIdle]
      fresh := ?fresh
      nextBounded := bump_bounded _ }
  intro g other found
  apply bump_fresh reg.nextBounded
  rw [OrderedMap.find?_insert] at found
  split at found
  · rename_i same
    exact Nat.le_of_eq same.symm
  · rcases reg.fresh g other found with zero | below
    · exact absurd zero unspent
    · exact Nat.le_of_lt below

/-- A finished job becomes the current one of a free slot. -/
theorem Registry.publish {s : State} (reg : Registry s) {configId : ConfigId}
    {slot : ConfigSlot} (free : FreeSlot s configId slot)
    (idle : ∀ p job, slot.current = some p → s.arena.find? p = some job →
      job.phase = .completed) {g : Generation} {job : Job}
    (found : s.arena.find? g = some job) (config : job.snapshot.configId = configId) :
    Registry { s with
      jobs := s.jobs.insert configId { slot with current := some g, reserved := none } } := by
  have gate := free.gate
  have reserved := free.reserved
  refine
    { reg with
      capacity := free.room reg _
      occupied := by grind [→ slot_cases, → reg.occupied]
      oneGate := by grind [→ slot_cases, → reg.oneGate]
      startHeld := by grind [OrderedMap.find?_insert, → reg.startHeld, → free.unique]
      reservedHeld := by grind [→ slot_cases, → reg.reservedHeld]
      reservedKnown := by grind [→ slot_cases, → reg.reservedKnown]
      stopHeld := by grind [OrderedMap.find?_insert, → reg.stopHeld, → free.unique]
      gateHeld := by grind [→ slot_cases, → reg.gateHeld]
      currentKnown := by grind [→ slot_cases, → reg.currentKnown]
      liveCurrent := by
        grind [OrderedMap.find?_insert, → reg.live, → free.unique, State.IsCurrent]
      reservedIdle := by grind [→ slot_cases, → reg.reservedIdle] }

theorem Registry.congr {s : State} (reg : Registry s)
    {jobs : OrderedMap ConfigId ConfigSlot}
    (same : ∀ configId, jobs.find? configId = s.jobs.find? configId)
    (room : jobs.size ≤ s.limits.maxConfigs) : Registry { s with jobs } where
  alive := reg.alive
  active := reg.active
  capacity := room
  occupied configId slot found := reg.occupied configId slot (same configId ▸ found)
  oneGate configId slot found := reg.oneGate configId slot (same configId ▸ found)
  startHeld g point held := by
    obtain ⟨job, slot, found, present, reserved⟩ := reg.startHeld g point held
    exact ⟨job, slot, found, (same _).trans present, reserved⟩
  reservedHeld configId slot g found := reg.reservedHeld configId slot g (same configId ▸ found)
  reservedKnown configId slot g found := reg.reservedKnown configId slot g (same configId ▸ found)
  stopHeld r out := by
    obtain ⟨slot, present, held⟩ := reg.stopHeld r out
    exact ⟨slot, (same _).trans present, held⟩
  gateHeld configId slot found := reg.gateHeld configId slot (same configId ▸ found)
  stopsDistinct := reg.stopsDistinct
  stopAllHeld := reg.stopAllHeld
  stopAllAlone := reg.stopAllAlone
  currentKnown configId slot g found := reg.currentKnown configId slot g (same configId ▸ found)
  liveCurrent g job found live := by
    obtain ⟨slot, present, current⟩ := reg.liveCurrent g job found live
    exact ⟨slot, (same _).trans present, current⟩
  reservedIdle configId slot p job found :=
    reg.reservedIdle configId slot p job (same configId ▸ found)
  fresh := reg.fresh
  nextBounded := reg.nextBounded

/-- A slot is put back in place, or its config erased when nothing is left in it. -/
theorem find?_putBack (jobs : OrderedMap ConfigId ConfigSlot) (configId key : ConfigId)
    (slot found : ConfigSlot) (empty : Bool) :
    (if empty then jobs.erase configId else jobs.insert configId slot).find? key = some found ↔
      (key = configId ∧ empty = false ∧ found = slot) ∨
        (key ≠ configId ∧ jobs.find? key = some found) := by
  cases empty <;> grind [OrderedMap.find?_insert, OrderedMap.find?_erase]

theorem size_putBack {jobs : OrderedMap ConfigId ConfigSlot} {configId : ConfigId}
    {old : ConfigSlot} (present : jobs.find? configId = some old) (slot : ConfigSlot)
    (empty : Bool) :
    (if empty then jobs.erase configId else jobs.insert configId slot).size ≤ jobs.size := by
  split
  · exact OrderedMap.size_erase_le _ _
  · rw [OrderedMap.size_insert, present]
    exact Nat.le_refl _

/-- A live job stays current when a slot changes in everything but its current job. -/
theorem Registry.live_putBack {s : State} (reg : Registry s) {configId : ConfigId}
    {old slot : ConfigSlot} {empty : Bool} {jobs : OrderedMap ConfigId ConfigSlot}
    (present : s.jobs.find? configId = some old) (same : slot.current = old.current)
    (idle : empty = true → old.current = none)
    (putBack : ∀ key found, jobs.find? key = some found ↔
      (key = configId ∧ empty = false ∧ found = slot) ∨
        (key ≠ configId ∧ s.jobs.find? key = some found))
    (g : Generation) (job : Job) (found : s.arena.find? g = some job)
    (live : job.phase ≠ .completed) :
    ∃ slot, jobs.find? job.snapshot.configId = some slot ∧ slot.current = some g := by
  obtain ⟨slot', present', current⟩ := reg.liveCurrent g job found live
  by_cases here : job.snapshot.configId = configId
  · rw [here, present] at present'
    cases present'
    refine ⟨slot, (putBack _ _).mpr (.inl ⟨here, ?_, rfl⟩), same.trans current⟩
    cases empty with
    | false => rfl
    | true => cases (idle rfl).symm.trans current
  · exact ⟨slot', (putBack _ _).mpr (.inr ⟨here, present'⟩), current⟩

theorem Registry.occupied_putBack {s : State} (reg : Registry s) {configId : ConfigId}
    {slot : ConfigSlot} {empty : Bool} {jobs : OrderedMap ConfigId ConfigSlot}
    (used : empty = false → slot.current.isSome ∨ slot.reserved.isSome ∨
      slot.stopReserved = true)
    (putBack : ∀ key found, jobs.find? key = some found ↔
      (key = configId ∧ empty = false ∧ found = slot) ∨
        (key ≠ configId ∧ s.jobs.find? key = some found))
    (key : ConfigId) (found : ConfigSlot) (present : jobs.find? key = some found) :
    found.current.isSome ∨ found.reserved.isSome ∨ found.stopReserved = true := by
  rcases (putBack key found).mp present with ⟨_, filled, rfl⟩ | ⟨_, present⟩
  · exact used filled
  · exact reg.occupied key found present

theorem find?_starts_erase (s : State) (g g' : Generation) (point : StartPoint) :
    (s.starts.erase g).find? g' = some point ↔ g ≠ g' ∧ s.starts.find? g' = some point := by
  rw [OrderedMap.find?_erase]
  split <;> simp_all

/-- The start reservation of a job is the only one in its slot. -/
theorem Registry.drop {s : State} (reg : Registry s) {g : Generation} {job : Job}
    {slot : ConfigSlot} {point : StartPoint} (found : s.arena.find? g = some job)
    (held : s.starts.find? g = some point)
    (present : s.jobs.find? job.snapshot.configId = some slot)
    (reserved : slot.reserved = some g) :
    Registry { s.releaseReserved job.snapshot.configId slot with
      starts := s.starts.erase g } := by
  have gate := reg.oneGate _ _ present (by simp [reserved])
  have size := OrderedMap.size_erase held
  have starts := find?_starts_erase s g
  have putBack := fun key found => find?_putBack s.jobs job.snapshot.configId key
    { slot with reserved := none } found slot.current.isNone
  have room := size_putBack present { slot with reserved := none } slot.current.isNone
  unfold State.releaseReserved
  generalize (if slot.current.isNone then s.jobs.erase job.snapshot.configId
    else s.jobs.insert job.snapshot.configId { slot with reserved := none }) = jobs at putBack room
  have kept := reg.live_putBack present
    (show ({ slot with reserved := none } : ConfigSlot).current = slot.current from rfl)
    Option.isNone_iff_eq_none.mp putBack
  have used : slot.current.isNone = false → slot.current.isSome ∨
      (none : Option Generation).isSome ∨ slot.stopReserved = true := by
    intro filled
    exact .inl (by simpa using filled)
  refine
    { reg with
      active := ?active
      capacity := Nat.le_trans room reg.capacity
      occupied := reg.occupied_putBack used putBack
      oneGate := by grind [→ reg.oneGate]
      startHeld := ?startHeld
      reservedHeld := by grind [→ reg.reservedHeld, → reg.reservedKnown]
      reservedKnown := by grind [→ reg.reservedKnown]
      stopHeld := by grind [→ reg.stopHeld]
      gateHeld := by grind [→ reg.gateHeld]
      stopAllAlone := ?stopAllAlone
      currentKnown := by grind [→ reg.currentKnown]
      liveCurrent := kept
      reservedIdle := by grind [→ reg.reservedIdle] }
  case active =>
    have := reg.active
    show s.activeReservations - 1 = (s.starts.erase g).size + s.stops.length + s.stopAlls.length
    omega
  case startHeld =>
    intro g' point' held'
    obtain ⟨other, held'⟩ := (starts g' point').mp held'
    obtain ⟨job', slot', found', present', reserved'⟩ := reg.startHeld g' point' held'
    refine ⟨job', slot', found', (putBack _ _).mpr (.inr ⟨fun same => ?_, present'⟩), reserved'⟩
    rw [same, present] at present'
    cases present'
    exact other (Option.some.inj (reserved.symm.trans reserved'))
  case stopAllAlone =>
    intro all
    have := (reg.stopAllAlone all).1
    omega

/-- The reserved job becomes the current one and comes to life. -/
theorem Registry.install {s : State} (reg : Registry s) {g : Generation} {job installed : Job}
    {slot : ConfigSlot} {point : StartPoint} (found : s.arena.find? g = some job)
    (held : s.starts.find? g = some point)
    (present : s.jobs.find? job.snapshot.configId = some slot)
    (reserved : slot.reserved = some g)
    (config : installed.snapshot.configId = job.snapshot.configId) :
    Registry { s with
      jobs := s.jobs.insert job.snapshot.configId
        { slot with current := some g, reserved := none }
      activeReservations := s.activeReservations - 1
      arena := s.arena.insert g installed
      starts := s.starts.erase g } := by
  have gate := reg.oneGate _ _ present (by simp [reserved])
  have size := OrderedMap.size_erase held
  have starts := find?_starts_erase s g
  have replaced (p : Generation) (old : Job) (current : slot.current = some p)
      (known : s.arena.find? p = some old) : old.phase = .completed :=
    reg.reservedIdle _ _ p old present (by simp [reserved]) current known
  refine
    { reg with
      active := ?active
      capacity := ?capacity
      occupied := by grind [→ slot_cases, → reg.occupied]
      oneGate := by grind [→ slot_cases, → reg.oneGate]
      startHeld := ?startHeld
      reservedHeld := by grind [→ slot_cases, → reg.reservedHeld, → reg.reservedKnown]
      reservedKnown := by
        grind [→ slot_cases, → reg.reservedKnown, OrderedMap.find?_insert]
      stopHeld := by grind [→ reg.stopHeld, OrderedMap.find?_insert]
      gateHeld := by grind [→ slot_cases, → reg.gateHeld]
      stopAllAlone := ?stopAllAlone
      currentKnown := by grind [→ slot_cases, → reg.currentKnown, OrderedMap.find?_insert]
      liveCurrent := ?liveCurrent
      reservedIdle := ?reservedIdle
      fresh := ?fresh }
  case active =>
    have := reg.active
    show s.activeReservations - 1 = (s.starts.erase g).size + s.stops.length + s.stopAlls.length
    omega
  case capacity =>
    rw [OrderedMap.size_insert, present]
    exact reg.capacity
  case startHeld =>
    intro g' point' held'
    obtain ⟨other, held'⟩ := (starts g' point').mp held'
    obtain ⟨job', slot', found', present', reserved'⟩ := reg.startHeld g' point' held'
    have apart : job.snapshot.configId ≠ job'.snapshot.configId := by
      intro same
      rw [← same, present] at present'
      cases present'
      exact other (Option.some.inj (reserved.symm.trans reserved'))
    refine ⟨job', slot', ?_, ?_, reserved'⟩
    · rw [OrderedMap.find?_insert_ne _ _ other]; exact found'
    · rw [OrderedMap.find?_insert_ne _ _ apart]; exact present'
  case stopAllAlone =>
    intro all
    have := (reg.stopAllAlone all).1
    omega
  case liveCurrent =>
    intro g' job' found' live
    rw [OrderedMap.find?_insert] at found'
    split at found'
    · rename_i same
      cases found'
      refine ⟨{ slot with current := some g, reserved := none }, ?_, by rw [same]⟩
      rw [config]
      exact OrderedMap.find?_insert_self _ _ _
    · obtain ⟨slot', present', current⟩ := reg.live g' job' found' live
      refine ⟨slot', ?_, current⟩
      rw [OrderedMap.find?_insert_ne _ _ (fun same => ?_)]
      · exact present'
      · rw [← same, present] at present'
        cases present'
        exact live (replaced g' job' current found')
  case reservedIdle =>
    intro key slot' p old present' reserved' current known
    rcases slot_cases present' with ⟨_, rfl⟩ | ⟨other, present'⟩
    · cases reserved'
    · have apart : g ≠ p := by
        intro same
        obtain ⟨old', known', config'⟩ := reg.currentKnown key slot' p present' current
        rw [← same, found] at known'
        cases known'
        exact other config'
      rw [OrderedMap.find?_insert_ne _ _ apart] at known
      exact reg.reservedIdle key slot' p old present' reserved' current known
  case fresh =>
    intro g' job' found'
    rw [OrderedMap.find?_insert] at found'
    split at found'
    · rename_i same
      exact same ▸ reg.fresh g job found
    · exact reg.fresh g' job' found'

theorem Registry.reserveStop {s : State} (reg : Registry s) (calm : s.stopAllReserved = false)
    {slot : ConfigSlot} (r : StopReservation) (free : FreeSlot s r.configId slot) :
    Registry { s with
      jobs := s.jobs.insert r.configId { slot with stopReserved := true }
      activeReservations := s.activeReservations + 1
      stops := r :: s.stops } := by
  have reserved := free.reserved
  have gate := free.gate
  have apart : ∀ r' ∈ s.stops, r.configId ≠ r'.configId := by
    intro r' out same
    obtain ⟨slot', present, held⟩ := reg.stopHeld r' out
    rw [← same] at present
    rw [free.unique present, gate] at held
    cases held
  refine
    { reg with
      active := ?active
      capacity := free.room reg _
      occupied := by grind [→ slot_cases, → reg.occupied]
      oneGate := by grind [→ slot_cases, → reg.oneGate]
      startHeld := by grind [OrderedMap.find?_insert, → reg.startHeld, → free.unique]
      reservedHeld := by grind [→ slot_cases, → reg.reservedHeld]
      reservedKnown := by grind [→ slot_cases, → reg.reservedKnown]
      stopHeld := by grind [OrderedMap.find?_insert, → reg.stopHeld]
      gateHeld := by grind [→ slot_cases, → reg.gateHeld]
      stopsDistinct := ?stopsDistinct
      stopAllAlone := fun all => absurd (reg.stopAllHeld.mpr all) (by simp [calm])
      currentKnown := by grind [→ slot_cases, → reg.currentKnown, free.current]
      liveCurrent := by
        grind [OrderedMap.find?_insert, → reg.live, → free.unique, State.IsCurrent]
      reservedIdle := by grind [→ slot_cases, → reg.reservedIdle] }
  case active =>
    have := reg.active
    simp only [List.length_cons]
    omega
  case stopsDistinct =>
    rw [List.map_cons, List.nodup_cons]
    refine ⟨fun member => ?_, reg.stopsDistinct⟩
    obtain ⟨r', out, same⟩ := List.mem_map.mp member
    exact apart r' out same.symm

/-- The other stops concern other configs. -/
theorem Registry.other_stop {s : State} (reg : Registry s) {r r' : StopReservation}
    (out : r ∈ s.stops) : r' ∈ s.stops.erase r ↔ r' ∈ s.stops ∧ r.configId ≠ r'.configId := by
  have split := List.perm_cons_erase out
  have distinct := (split.map (·.configId)).nodup_iff.mp reg.stopsDistinct
  rw [List.map_cons, List.nodup_cons] at distinct
  constructor
  · intro member
    refine ⟨List.mem_of_mem_erase member, fun same => distinct.1 ?_⟩
    exact List.mem_map.mpr ⟨r', member, same.symm⟩
  · rintro ⟨member, other⟩
    refine (List.mem_erase_of_ne fun same => ?_).mpr member
    subst same
    exact other rfl

theorem Registry.resolveStop {s : State} (reg : Registry s) {r : StopReservation}
    {slot : ConfigSlot} (out : r ∈ s.stops) (present : s.jobs.find? r.configId = some slot)
    (held : slot.stopReserved = true) :
    Registry { s with
      jobs :=
        if slot.current.isNone && slot.reserved.isNone then s.jobs.erase r.configId
        else s.jobs.insert r.configId { slot with stopReserved := false }
      activeReservations := s.activeReservations - 1
      stops := s.stops.erase r } := by
  have reserved : slot.reserved = none := by
    cases reserved : slot.reserved with
    | none => rfl
    | some g =>
      have gate := reg.oneGate _ _ present (by simp [reserved])
      cases gate.symm.trans held
  have others (r' : StopReservation) : r' ∈ s.stops.erase r ↔
      r' ∈ s.stops ∧ r.configId ≠ r'.configId := reg.other_stop out
  have length := List.length_erase_of_mem out
  have putBack := fun key found => find?_putBack s.jobs r.configId key
    { slot with stopReserved := false } found (slot.current.isNone && slot.reserved.isNone)
  have room := size_putBack present { slot with stopReserved := false }
    (slot.current.isNone && slot.reserved.isNone)
  generalize (if slot.current.isNone && slot.reserved.isNone then s.jobs.erase r.configId
    else s.jobs.insert r.configId { slot with stopReserved := false }) = jobs at putBack room
  have kept := reg.live_putBack present
    (show ({ slot with stopReserved := false } : ConfigSlot).current = slot.current from rfl)
    (show (slot.current.isNone && slot.reserved.isNone) = true → slot.current = none by
      simp [reserved]) putBack
  have used : (slot.current.isNone && slot.reserved.isNone) = false → slot.current.isSome ∨
      slot.reserved.isSome ∨ false = true := by
    simp only [reserved, Option.isNone_none, Bool.and_true]
    intro filled
    exact .inl (by simpa using filled)
  refine
    { reg with
      active := ?active
      capacity := Nat.le_trans room reg.capacity
      occupied := reg.occupied_putBack used putBack
      oneGate := by grind [→ reg.oneGate]
      startHeld := ?startHeld
      reservedHeld := by grind [→ reg.reservedHeld]
      reservedKnown := by grind [→ reg.reservedKnown]
      stopHeld := ?stopHeld
      gateHeld := by grind [→ reg.gateHeld]
      stopsDistinct := ?stopsDistinct
      stopAllAlone := ?stopAllAlone
      currentKnown := by grind [→ reg.currentKnown]
      liveCurrent := kept
      reservedIdle := by grind [→ reg.reservedIdle] }
  case active =>
    have := reg.active
    have := List.length_pos_of_mem out
    show s.activeReservations - 1 = s.starts.size + (s.stops.erase r).length + s.stopAlls.length
    omega
  case startHeld =>
    intro g point held'
    obtain ⟨job, slot', found, present', reserved'⟩ := reg.startHeld g point held'
    refine ⟨job, slot', found, (putBack _ _).mpr (.inr ⟨fun same => ?_, present'⟩), reserved'⟩
    rw [same, present] at present'
    cases present'
    cases reserved.symm.trans reserved'
  case stopHeld =>
    intro r' member
    obtain ⟨out', other⟩ := (others r').mp member
    obtain ⟨slot', present', held'⟩ := reg.stopHeld r' out'
    exact ⟨slot', (putBack _ _).mpr (.inr ⟨other.symm, present'⟩), held'⟩
  case stopsDistinct =>
    exact reg.stopsDistinct.sublist (List.erase_sublist.map _)
  case stopAllAlone =>
    intro all
    have none := (reg.stopAllAlone all).2.1
    rw [none] at out
    cases out

theorem Registry.reserveStopAll {s : State} (reg : Registry s)
    (calm : s.stopAllReserved = false) (free : s.activeReservations = 0)
    (items : List StopAllItem) :
    Registry { s with
      stopAllReserved := true
      activeReservations := s.activeReservations + 1
      stopAlls := items :: s.stopAlls } := by
  have active := reg.active
  have none : s.stopAlls = [] := by
    have empty := mt reg.stopAllHeld.mpr (by simp [calm])
    simpa using empty
  refine
    { reg with
      active := by simp only [List.length_cons]; omega
      stopAllHeld := by simp
      stopAllAlone := fun _ => ?_ }
  show s.starts.size = 0 ∧ s.stops = [] ∧ (items :: s.stopAlls).length = 1
  rw [none] at active ⊢
  simp only [List.length_nil] at active
  exact ⟨by omega, List.eq_nil_of_length_eq_zero (by omega), rfl⟩

theorem Registry.resolveStopAll {s : State} (reg : Registry s) {items : List StopAllItem}
    (out : items ∈ s.stopAlls) :
    Registry { s with
      stopAllReserved := false
      activeReservations := s.activeReservations - 1
      stopAlls := s.stopAlls.erase items } := by
  obtain ⟨noStart, noStop, one⟩ := reg.stopAllAlone (List.ne_nil_of_mem out)
  have length := List.length_erase_of_mem out
  have empty : s.stopAlls.erase items = [] := List.eq_nil_of_length_eq_zero (by omega)
  have active := reg.active
  rw [empty]
  refine
    { reg with
      active := ?_
      stopAllHeld := by simp
      stopAllAlone := by simp }
  show s.activeReservations - 1 = s.starts.size + s.stops.length + ([] : List (List StopAllItem)).length
  rw [noStop] at active ⊢
  simp only [List.length_nil] at active ⊢
  omega

theorem Touch.fades {s : State} {g : Generation} {job job' : Job} {op : Op} {outcome : Outcome}
    {calls : List Call} (touch : Touch s g job op outcome job' calls) :
    job'.snapshot.configId = job.snapshot.configId ∧
      (job.phase = .completed → job'.phase = .completed) := by
  cases touch with
  | stopAfterShutdown _ _ _ _ _ _ _ _ phase => exact ⟨rfl, fun final => by simp [phase] at final⟩
  | sweepRunning _ _ _ _ phase => exact ⟨rfl, fun final => by simp [phase] at final⟩
  | complete => exact ⟨rfl, fun _ => rfl⟩
  | _ => exact ⟨rfl, id⟩

theorem Settled.fades {promised : Generation → Timestamp → Prop} {g : Generation}
    {before after : Option Job} (settled : Settled promised g before after) :
    Fades before after := by
  cases settled with
  | none => exact .absent
  | some steps =>
    have quiet := quiet_of_settles steps
    exact .kept quiet.config quiet.final.mpr

theorem Replaces.idle {s : State} {slot : ConfigSlot} {previous : Option Job}
    (replaces : Replaces s slot previous) (p : Generation) (job : Job)
    (current : slot.current = some p) (found : s.arena.find? p = some job) :
    job.phase = .completed := by
  cases previous with
  | none => cases (show slot.current = none from replaces).symm.trans current
  | some previous =>
    obtain ⟨p', current', found', final⟩ := replaces
    cases current.symm.trans current'
    cases found.symm.trans found'
    exact final

theorem Registry.threadFailed {s : State} (reg : Registry s) {configId : ConfigId}
    {slot : ConfigSlot} (free : FreeSlot s configId slot)
    (idle : ∀ p job, slot.current = some p → s.arena.find? p = some job →
      job.phase = .completed)
    (unspent : s.nextJobGeneration ≠ 0) {job : Job} (config : job.snapshot.configId = configId)
    (phase : job.phase = .completed) {jobs : OrderedMap ConfigId ConfigSlot}
    (table : jobs = s.jobs.insert configId
        { slot with current := some s.nextJobGeneration, reserved := none } ∨
      slot.current = none ∧ jobs = s.jobs.erase configId ∨
      slot.current ≠ none ∧ jobs = s.jobs.insert configId { slot with reserved := none }) :
    Registry { s with
      nextJobGeneration := bump s.nextJobGeneration
      arena := s.arena.insert s.nextJobGeneration job
      jobs } := by
  have grown := reg.grow unspent phase
  rcases table with rfl | ⟨empty, rfl⟩ | ⟨_, rfl⟩
  · have free' : FreeSlot { s with
        nextJobGeneration := bump s.nextJobGeneration
        arena := s.arena.insert s.nextJobGeneration job } configId slot := by
      cases free with
      | present found reserved gate => exact .present found reserved gate
      | added absent room => exact .added absent room
    refine grown.publish free' ?_ (OrderedMap.find?_insert_self _ _ _) config
    · intro p old current found
      have present := free.current current
      obtain ⟨before, known, _⟩ := reg.currentKnown _ _ p present current
      rw [reg.known unspent known] at found
      cases found
      exact idle p _ current known
  · refine grown.congr (fun key => ?_) ?_
    · rw [OrderedMap.find?_erase]
      split
      · rename_i same
        subst same
        cases present : s.jobs.find? configId with
        | none => rfl
        | some other =>
          have used := reg.occupied configId other present
          cases free.unique present
          simp [empty, free.reserved, free.gate] at used
      · rfl
    · exact Nat.le_trans (OrderedMap.size_erase_le _ _) reg.capacity
  · cases free with
    | present found reserved gate =>
      refine grown.congr (fun key => ?_) ?_
      · rw [OrderedMap.find?_insert]
        split
        · rename_i same
          rw [← same, found, ← reserved]
        · rfl
      · rw [OrderedMap.size_insert, found]
        exact reg.capacity
    | added => contradiction

theorem installed_config (s : State) (job : Job) (elapsed : Int) :
    (installedJob s job elapsed).snapshot.configId = job.snapshot.configId := by
  unfold installedJob
  split <;> rfl

theorem captureStop_config (configId : ConfigId) (elapsed : Int)
    (current : Option (Generation × Job)) :
    (captureStop configId elapsed current).2.2.configId = configId := by
  unfold captureStop
  split
  · rfl
  · split <;> rfl

theorem registry_of_effect {s t : State} (inv : Invariant s) {op : Op} {outcome : Outcome}
    (effect : Effect s op outcome t) : Registry t := by
  have reg := inv.registry
  have same := fun g => Fades.refl (s.arena.find? g)
  cases effect with
  | idle => exact reg
  | touch op outcome g job job' calls found touch =>
    obtain ⟨config, ends⟩ := touch.fades
    exact reg.fade (fades_insert found config ends) s.accepting s.commits calls
  | sweepReserved => exact reg.fade same s.accepting s.commits _
  | endSweep => exact reg.fade same s.accepting s.commits _
  | close => exact reg.fade same false s.commits _
  | reserve request _ elapsed slot previous accepting calm free replaces unspent =>
    exact reg.reserve calm free replaces.idle unspent rfl rfl _
  | threadFailed request _ elapsed failElapsed slot previous jobs _ _ _ free replaces unspent table =>
    refine reg.threadFailed free replaces.idle unspent rfl rfl ?_
    rcases table with ⟨_, table⟩ | ⟨_, empty, table⟩ | ⟨_, filled, table⟩
    · exact .inl table
    · exact .inr (.inl ⟨empty, table⟩)
    · exact .inr (.inr ⟨filled, table⟩)
  | prepared g job reply found held => exact reg.advance held .held
  | dropped op outcome g job slot point found held present reserved =>
    exact reg.drop found held present reserved
  | commit g job slot elapsed found held present reserved =>
    have installed := reg.install found held present reserved (installed_config s job elapsed)
    exact installed.fade (fun _ => .refl _) s.accepting _ s.calls
  | deliverBeforeRelease g job found =>
    refine reg.fade (fades_insert found ?_ ?_) s.accepting _ s.calls
    · rfl
    · exact id
  | release g job found =>
    refine reg.fade (fades_insert found ?_ ?_) s.accepting _ s.calls
    · rfl
    · exact id
  | cancel g job found held => exact reg.advance held .cancelling
  | cancelGate g job found held =>
    refine (reg.advance held .joining).fade
      (fades_insert (s := s) found ?_ ?_) s.accepting s.commits s.calls
    · rfl
    · exact id
  | reserveStop configId elapsed slot accepting calm free =>
    have config := captureStop_config configId elapsed (s.current? slot)
    have reserved := reg.reserveStop calm _ (config.symm ▸ free)
    rwa [config] at reserved
  | resolveStop op r elapsed slot promised arena calls out present held _ resolution =>
    have faded := reg.fade (fun g => (resolution.settled g).fades) s.accepting s.commits calls
    exact faded.resolveStop out present held
  | reserveStopAll clock accepting calm free => exact reg.reserveStopAll calm free _
  | resolveStopAll op items clock promised arena calls out _ resolution =>
    have faded := reg.fade (fun g => (resolution.settled g).fades) s.accepting s.commits calls
    exact faded.resolveStopAll out

end Baas.RuntimeTaskOwner
