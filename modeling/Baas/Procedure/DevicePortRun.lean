import Baas.Procedure.DevicePortRule

/-! Every run of calls on the device sessions: who is current when, whose backend is called, and
whose frames are stored and returned. -/
namespace Baas.Procedure

open Threads Threads.Discipline Transition

namespace DeviceOwner

variable {owner : DeviceOwner}

theorem change_session (s i : Nat) (f : Session → Session) :
    (owner.change s f).sessions[i]? =
      if i = s then owner.sessions[i]?.map f else owner.sessions[i]? := by
  simp only [change, List.getElem?_modify]
  by_cases same : i = s
  · simp only [same, if_pos, Option.map_eq_map]
  · simp only [if_neg same, if_neg (Ne.symm same), Option.map_eq_map, Option.map_id']

theorem change_identity (s i : Nat) {f : Session → Session}
    (keeps : ∀ x, (f x).identity = x.identity) :
    (owner.change s f).identityOf i = owner.identityOf i := by
  simp only [identityOf, change_session]
  split
  · cases owner.sessions[i]? with
    | none => rfl
    | some x => exact keeps x
  · rfl

theorem retirePrevious_session (previous : Option Nat) (i : Nat) :
    (owner.retirePrevious previous).sessions[i]? =
      if previous = some i then
        owner.sessions[i]?.map (fun s => { s with status := .retired, latest := none })
      else owner.sessions[i]? := by
  cases previous with
  | none => simp [retirePrevious]
  | some previous =>
    simp only [retirePrevious, retire, change_session, Option.some.injEq, eq_comm]

theorem Bound.session {s : Nat} {token : IdentityToken} (bound : owner.Bound s token) :
    ∃ x, owner.sessions[s]? = some x ∧ x.status ≠ .candidate ∧ x.identity = some token :=
  bound.1

theorem Bound.identity {s : Nat} {token : IdentityToken} (bound : owner.Bound s token) :
    owner.identityOf s = some token := by
  obtain ⟨x, there, -, same⟩ := bound.1
  simp only [identityOf, there, Option.bind_some, same]

theorem Bound.unique {s : Nat} {token its : IdentityToken} (one : owner.Bound s token)
    (two : owner.Bound s its) : token = its := by
  have same := one.identity
  rw [two.identity] at same
  exact (Option.some.inj same).symm

end DeviceOwner

/-- What a question of a call leaves alone, by the mutexes of the call. -/
structure Framed (held : List DeviceMutex) (o t : DeviceOwner) : Prop where
  bound : ∀ s token, o.Bound s token → t.Bound s token
  session : ∀ (s : Nat) (x : Session), o.sessions[s]? = some x → x.status ≠ .candidate →
    .operation s ∉ held → t.sessions[s]? = some x
  current : ∀ s, o.current = some s → .operation s ∉ held → t.current = some s
  owner : .lifecycle ∉ held → t.lastEpoch = o.lastEpoch ∧ t.current = o.current ∧
    ∀ (s : Nat) (x : Session), o.sessions[s]? = some x → x.status = .candidate →
      t.sessions[s]? = some x

theorem Framed.refl (held : List DeviceMutex) (o : DeviceOwner) : Framed held o o :=
  ⟨fun _ _ h => h, fun _ _ h _ _ => h, fun _ h _ => h, fun _ => ⟨rfl, rfl, fun _ _ h _ => h⟩⟩

/-- A change of the published session whose operation mutex the call holds. -/
theorem framed_change {held : List DeviceMutex} {o : DeviceOwner} {s : Nat}
    {f : Session → Session} (locked : .operation s ∈ held)
    (published : ∃ x, o.sessions[s]? = some x ∧ x.status ≠ .candidate)
    (identity : ∀ x, (f x).identity = x.identity)
    (status : ∀ x, x.status ≠ .candidate → (f x).status ≠ .candidate) :
    Framed held o (o.change s f) := by
  refine ⟨?_, ?_, fun _ same _ => same, fun _ => ⟨rfl, rfl, ?_⟩⟩
  · rintro i token ⟨⟨x, there, known, same⟩, epoch⟩
    refine ⟨?_, epoch⟩
    rw [DeviceOwner.change_session]
    by_cases this : i = s
    · refine ⟨f x, by rw [if_pos this, there]; rfl, status x known, ?_⟩
      rw [identity, same]
    · exact ⟨x, by rw [if_neg this]; exact there, known, same⟩
  · intro i x there _ free
    rw [DeviceOwner.change_session, if_neg ?_]
    · exact there
    · rintro rfl
      exact free locked
  · intro i x there candidate
    rw [DeviceOwner.change_session, if_neg ?_]
    · exact there
    · rintro rfl
      obtain ⟨y, here, known⟩ := published
      rw [there] at here
      cases Option.some.inj here
      exact known candidate

/-- A change of the candidate by the call that holds the lifecycle mutex. -/
theorem framed_candidate {held : List DeviceMutex} {o t : DeviceOwner} {s : Nat} {x : Session}
    (lifecycle : .lifecycle ∈ held) (there : o.sessions[s]? = some x)
    (candidate : x.status = .candidate)
    (others : ∀ i, i ≠ s → t.sessions[i]? = o.sessions[i]?) (epoch : t.lastEpoch = o.lastEpoch)
    (current : t.current = o.current) : Framed held o t := by
  have apart {i : Nat} {y : Session} (here : o.sessions[i]? = some y)
      (known : y.status ≠ .candidate) : i ≠ s := by
    rintro rfl
    rw [there] at here
    cases Option.some.inj here
    exact known candidate
  refine ⟨?_, ?_, fun i same _ => current.trans same, fun free => absurd lifecycle free⟩
  · rintro i token ⟨⟨y, here, known, same⟩, least⟩
    exact ⟨⟨y, (others i (apart here known)).trans here, known, same⟩, epoch ▸ least⟩
  · intro i y here known _
    exact (others i (apart here known)).trans here

/-- What `publish` needs. -/
structure Publishable (held : List DeviceMutex) (o : DeviceOwner) (previous : Option Nat)
    (next epoch : Nat) (x : Session) (token : IdentityToken) : Prop where
  lifecycle : .lifecycle ∈ held
  locked : Device.previousMutex previous ∈ held
  current : o.current = previous
  there : o.sessions[next]? = some x
  candidate : x.status = .candidate
  identity : x.identity = some token
  same : token.identity.sessionEpoch = epoch
  increases : o.lastEpoch < epoch

def published (o : DeviceOwner) (previous : Option Nat) (next epoch : Nat) : DeviceOwner :=
  o.effect (.publish previous next epoch) ()

section Publishing

variable {held : List DeviceMutex} {o : DeviceOwner} {previous : Option Nat}
  {next epoch : Nat} {x : Session} {token : IdentityToken}

theorem Publishable.apart (sound : DeviceSound o)
    (fit : Publishable held o previous next epoch x token) : previous ≠ some next := by
  rintro rfl
  obtain ⟨its, bound, -⟩ := sound.current next fit.current
  obtain ⟨y, here, known, -⟩ := bound.session
  rw [fit.there] at here
  cases Option.some.inj here
  exact known fit.candidate

theorem Publishable.session (sound : DeviceSound o)
    (fit : Publishable held o previous next epoch x token) (i : Nat) :
    (published o previous next epoch).sessions[i]? =
      if i = next then some { x with status := .current }
      else if previous = some i then
        o.sessions[i]?.map (fun s => { s with status := .retired, latest := none })
      else o.sessions[i]? := by
  show ((o.retirePrevious previous).change next _).sessions[i]? = _
  rw [DeviceOwner.change_session, DeviceOwner.retirePrevious_session]
  by_cases this : i = next
  · subst this
    rw [if_pos rfl, if_pos rfl, if_neg (fit.apart sound), fit.there]
    rfl
  · rw [if_neg this, if_neg this]

theorem Publishable.identityOf (sound : DeviceSound o)
    (fit : Publishable held o previous next epoch x token) (i : Nat) :
    (published o previous next epoch).identityOf i = o.identityOf i := by
  simp only [DeviceOwner.identityOf, fit.session sound]
  split
  · rename_i this
    rw [this, fit.there]
    rfl
  · split
    · cases o.sessions[i]? <;> rfl
    · rfl

theorem Publishable.bound (sound : DeviceSound o)
    (fit : Publishable held o previous next epoch x token) {s : Nat} {its : IdentityToken}
    (bound : o.Bound s its) : (published o previous next epoch).Bound s its := by
  obtain ⟨⟨y, there, known, same⟩, least⟩ := bound
  refine ⟨?_, Nat.le_of_lt (Nat.lt_of_le_of_lt least fit.increases)⟩
  rw [fit.session sound]
  have apart : s ≠ next := by
    rintro rfl
    rw [fit.there] at there
    cases Option.some.inj there
    exact known fit.candidate
  rw [if_neg apart]
  split
  · exact ⟨{ y with status := .retired, latest := none }, by rw [there]; rfl, nofun, same⟩
  · exact ⟨y, there, known, same⟩

theorem Publishable.framed (sound : DeviceSound o)
    (fit : Publishable held o previous next epoch x token) :
    Framed held o (published o previous next epoch) := by
  have replaced {s : Nat} (same : o.current = some s) : .operation s ∈ held := by
    have locked := fit.locked
    rw [← fit.current, same] at locked
    exact locked
  refine ⟨fun s its => fit.bound sound, ?_, ?_, fun free => absurd fit.lifecycle free⟩
  · intro s y there known free
    rw [fit.session sound, if_neg ?_, if_neg ?_]
    · exact there
    · intro same
      exact free (replaced (fit.current.trans same))
    · rintro rfl
      rw [fit.there] at there
      cases Option.some.inj there
      exact known fit.candidate
  · intro s same free
    exact absurd (replaced same) free

theorem Publishable.sound (sound : DeviceSound o)
    (fit : Publishable held o previous next epoch x token) :
    DeviceSound (published o previous next epoch) := by
  refine ⟨?_, ?_, ?_, ?_, ?_⟩
  · intro s y there current
    rw [fit.session sound] at there
    by_cases this : s = next
    · rw [this]
      rfl
    rw [if_neg this] at there
    split at there
    · cases found : o.sessions[s]? with
      | none =>
        rw [found] at there
        cases there
      | some z =>
        rw [found] at there
        cases Option.some.inj there
        cases current
    · rename_i other
      exact absurd (fit.current.symm.trans (sound.status s y there current)) other
  · rintro s ⟨⟩
    refine ⟨token, ⟨⟨{ x with status := .current }, ?_, nofun, fit.identity⟩,
      Nat.le_of_eq fit.same⟩, fit.same⟩
    rw [fit.session sound, if_pos rfl]
  · intro s y frame there latest
    rw [fit.session sound] at there
    split at there
    · rename_i this
      cases Option.some.inj there
      have stored := (sound.latest next x frame fit.there latest).1
      rw [fit.candidate] at stored
      cases stored
    split at there
    · cases found : o.sessions[s]? with
      | none =>
        rw [found] at there
        cases there
      | some z =>
        rw [found] at there
        cases Option.some.inj there
        cases latest
    · exact sound.latest s y frame there latest
  · intro s its same
    rw [fit.identityOf sound] at same
    rw [show (published o previous next epoch).nextAddress = o.nextAddress by
      cases previous <;> rfl]
    exact sound.address s its same
  · intro s other its theirs same alike
    rw [fit.identityOf sound] at same alike
    exact sound.distinct s other its theirs same alike

end Publishing

/-! The other questions. -/

section Effects

variable {o : DeviceOwner} {held : List DeviceMutex} {s : Nat} {x : Session}

theorem retire_sound (sound : DeviceSound o) (current : o.current = some s) :
    DeviceSound { o.retire s with current := none } := by
  refine ⟨?_, nofun, ?_, ?_, ?_⟩
  · intro i y there alive
    change (o.change s _).sessions[i]? = some y at there
    rw [DeviceOwner.change_session] at there
    split at there
    · cases found : o.sessions[i]? with
      | none =>
        rw [found] at there
        cases there
      | some z =>
        rw [found] at there
        cases Option.some.inj there
        cases alive
    · rename_i apart
      have same := sound.status i y there alive
      rw [current] at same
      exact absurd (Option.some.inj same).symm apart
  · intro i y frame there latest
    change (o.change s _).sessions[i]? = some y at there
    rw [DeviceOwner.change_session] at there
    split at there
    · cases found : o.sessions[i]? with
      | none =>
        rw [found] at there
        cases there
      | some z =>
        rw [found] at there
        cases Option.some.inj there
        cases latest
    · exact sound.latest i y frame there latest
  · intro i its same
    change (o.change s _).identityOf i = some its at same
    rw [DeviceOwner.change_identity s i (by intro x; rfl)] at same
    exact sound.address i its same
  · intro i j its theirs same alike
    change (o.change s _).identityOf i = some its at same
    change (o.change s _).identityOf j = some theirs at alike
    rw [DeviceOwner.change_identity s i (by intro x; rfl)] at same
    rw [DeviceOwner.change_identity s j (by intro x; rfl)] at alike
    exact sound.distinct i j its theirs same alike

/-- A change of one session that keeps its identity. -/
theorem change_sound {f : Session → Session} (sound : DeviceSound o)
    (there : o.sessions[s]? = some x) (identity : ∀ x, (f x).identity = x.identity)
    (status : (f x).status = .current → x.status = .current)
    (published : x.status ≠ .candidate → (f x).status ≠ .candidate)
    (latest : ∀ frame, (f x).latest = some frame → (f x).status = .current ∧
      frame.identity = x.identity.map IdentityToken.address) :
    DeviceSound (o.change s f) := by
  have changed (i : Nat) (y : Session) (here : (o.change s f).sessions[i]? = some y) :
      (i = s ∧ y = f x) ∨ (i ≠ s ∧ o.sessions[i]? = some y) := by
    rw [DeviceOwner.change_session] at here
    split at here
    · rename_i same
      subst same
      rw [there] at here
      exact .inl ⟨rfl, (Option.some.inj here).symm⟩
    · exact .inr ⟨‹_›, here⟩
  refine ⟨?_, ?_, ?_, ?_, ?_⟩
  · intro i y here alive
    rcases changed i y here with ⟨rfl, rfl⟩ | ⟨-, old⟩
    · exact sound.status i x there (status alive)
    · exact sound.status i y old alive
  · intro i current
    obtain ⟨token, ⟨⟨y, here, known, same⟩, least⟩, epoch⟩ := sound.current i current
    refine ⟨token, ⟨?_, least⟩, epoch⟩
    rw [DeviceOwner.change_session]
    by_cases this : i = s
    · subst this
      rw [there] at here
      cases Option.some.inj here
      exact ⟨f x, by rw [if_pos rfl, there]; rfl, published known, (identity x).trans same⟩
    · exact ⟨y, by rw [if_neg this]; exact here, known, same⟩
  · intro i y frame here stored
    rcases changed i y here with ⟨rfl, rfl⟩ | ⟨-, old⟩
    · rw [identity]
      exact latest frame stored
    · exact sound.latest i y frame old stored
  · intro i its same
    rw [DeviceOwner.change_identity s i identity] at same
    exact sound.address i its same
  · intro i j its theirs same alike
    rw [DeviceOwner.change_identity s i identity] at same
    rw [DeviceOwner.change_identity s j identity] at alike
    exact sound.distinct i j its theirs same alike

theorem makeSession_sound (sound : DeviceSound o) (backend : Nat) :
    DeviceSound (o.effect (.makeSession backend) o.sessions.length) := by
  have kept (i : Nat) (y : Session)
      (here : (o.sessions ++ [⟨backend, none, .candidate, none⟩])[i]? = some y) :
      o.sessions[i]? = some y ∨ y = ⟨backend, none, .candidate, none⟩ := by
    rcases Nat.lt_or_ge i o.sessions.length with old | new
    · rw [List.getElem?_append_left old] at here
      exact .inl here
    · rw [List.getElem?_append_right new] at here
      exact .inr (List.mem_singleton.mp (List.mem_of_getElem? here))
  have named (i : Nat) (its : IdentityToken)
      (same : (o.effect (.makeSession backend) o.sessions.length).identityOf i = some its) :
      o.identityOf i = some its := by
    obtain ⟨y, here, known⟩ := Option.bind_eq_some_iff.mp same
    rcases kept i y here with old | rfl
    · simp only [DeviceOwner.identityOf, old, Option.bind_some, known]
    · cases known
  refine ⟨?_, ?_, ?_, ?_, ?_⟩
  · intro i y here alive
    rcases kept i y here with old | rfl
    · exact sound.status i y old alive
    · cases alive
  · intro i current
    obtain ⟨token, ⟨⟨y, here, known, same⟩, least⟩, epoch⟩ := sound.current i current
    refine ⟨token, ⟨⟨y, ?_, known, same⟩, least⟩, epoch⟩
    show (o.sessions ++ _)[i]? = some y
    rw [List.getElem?_append_left (List.getElem?_eq_some_iff.mp here).1]
    exact here
  · intro i y frame here stored
    rcases kept i y here with old | rfl
    · exact sound.latest i y frame old stored
    · cases stored
  · intro i its same
    exact sound.address i its (named i its same)
  · intro i j its theirs same alike
    exact sound.distinct i j its theirs (named i its same) (named j theirs alike)

theorem makeSession_framed (backend : Nat) (lifecycle : .lifecycle ∈ held) :
    Framed held o (o.effect (.makeSession backend) o.sessions.length) := by
  have kept {i : Nat} {y : Session} (here : o.sessions[i]? = some y) :
      (o.sessions ++ [⟨backend, none, .candidate, none⟩])[i]? = some y := by
    rw [List.getElem?_append_left (List.getElem?_eq_some_iff.mp here).1]
    exact here
  refine ⟨?_, fun i y here _ _ => kept here, fun i same _ => same,
    fun free => absurd lifecycle free⟩
  rintro i its ⟨⟨y, here, known, same⟩, least⟩
  exact ⟨⟨y, kept here, known, same⟩, least⟩

theorem makeIdentity_sound (sound : DeviceSound o) (there : o.sessions[s]? = some x)
    (candidate : x.status = .candidate)
    (identity : CoDetectProductionDeviceIdentity) :
    DeviceSound (o.effect (.makeIdentity s identity) o.nextAddress) := by
  have named (i : Nat) (its : IdentityToken)
      (same : (o.effect (.makeIdentity s identity) o.nextAddress).identityOf i = some its) :
      (i = s ∧ its.address = o.nextAddress) ∨ (i ≠ s ∧ o.identityOf i = some its) := by
    change (o.change s _).identityOf i = some its at same
    simp only [DeviceOwner.identityOf, DeviceOwner.change_session] at same
    split at same
    · rename_i this
      subst this
      rw [there] at same
      cases Option.some.inj same
      exact .inl ⟨rfl, rfl⟩
    · exact .inr ⟨‹_›, same⟩
  have changed (i : Nat) (y : Session)
      (here : (o.effect (.makeIdentity s identity) o.nextAddress).sessions[i]? = some y) :
      (i = s ∧ y = { x with identity := some ⟨o.nextAddress, identity⟩ }) ∨
        o.sessions[i]? = some y := by
    change (o.change s _).sessions[i]? = some y at here
    rw [DeviceOwner.change_session] at here
    split at here
    · rename_i this
      subst this
      rw [there] at here
      exact .inl ⟨rfl, (Option.some.inj here).symm⟩
    · exact .inr here
  refine ⟨?_, ?_, ?_, ?_, ?_⟩
  · intro i y here alive
    rcases changed i y here with ⟨rfl, rfl⟩ | old
    · rw [candidate] at alive
      cases alive
    · exact sound.status i y old alive
  · intro i current
    obtain ⟨token, ⟨⟨y, here, known, same⟩, least⟩, epoch⟩ := sound.current i current
    refine ⟨token, ⟨⟨y, ?_, known, same⟩, least⟩, epoch⟩
    show (o.change s _).sessions[i]? = some y
    rw [DeviceOwner.change_session, if_neg ?_]
    · exact here
    · rintro rfl
      rw [there] at here
      cases Option.some.inj here
      exact known candidate
  · intro i y frame here stored
    rcases changed i y here with ⟨rfl, rfl⟩ | old
    · have current := (sound.latest i x frame there stored).1
      rw [candidate] at current
      cases current
    · exact sound.latest i y frame old stored
  · intro i its same
    rcases named i its same with ⟨-, fresh⟩ | ⟨-, old⟩
    · rw [fresh]
      exact Nat.lt_succ_self _
    · exact Nat.lt_succ_of_lt (sound.address i its old)
  · intro i j its theirs same alike equal
    rcases named i its same with ⟨rfl, fresh⟩ | ⟨-, old⟩ <;>
      rcases named j theirs alike with ⟨rfl, new⟩ | ⟨-, known⟩
    · rfl
    · have less := sound.address j theirs known
      omega
    · have less := sound.address i its old
      omega
    · exact sound.distinct i j its theirs old known equal

end Effects

/-- Every question of a call keeps what always holds, and leaves the rest alone. -/
theorem effect_kept {o : DeviceOwner} (sound : DeviceSound o) (input : DeviceInput)
    {request : DeviceRequest} {held : List DeviceMutex} {view : DeviceView} (query : DeviceQuery)
    (knows : request.knows o held view) (may : request.may held view query) :
    DeviceSound (o.effect query (o.reply input query)) ∧
      Framed held o (o.effect query (o.reply input query)) := by
  cases request with
  | port s operation =>
    have known : PortKnows o s held view := knows
    cases query with
    | tombstone session =>
      obtain ⟨rfl, status, here⟩ := may
      obtain ⟨locked, x, there, current⟩ := known.status status
      exact ⟨change_sound sound there (fun _ => rfl) nofun (fun _ => nofun) nofun,
        framed_change locked ⟨x, there, by simp [current]⟩ (fun _ => rfl) (fun _ _ => nofun)⟩
    | storeLatest session frame =>
      obtain ⟨rfl, status, here, token, read, own⟩ := may
      obtain ⟨locked, x, there, current⟩ := known.status status
      have identity := known.token token read
      simp only [DeviceOwner.identityOf, there, Option.bind_some] at identity
      refine ⟨change_sound sound there (fun _ => rfl) (fun h => h) (fun h => h) ?_,
        framed_change locked ⟨x, there, by simp [current]⟩ (fun _ => rfl) (fun _ h => h)⟩
      rintro _ ⟨⟩
      exact ⟨current, by rw [own, identity]⟩
    | publish previous next epoch => exact may.elim
    | makeSession backend => exact may.elim
    | reject session => exact may.elim
    | makeIdentity session identity => exact may.elim
    | withdraw previous => exact may.elim
    | _ => exact ⟨sound, .refl held o⟩
  | activate backend profile epoch android =>
    have known : OwnerKnows o held view := knows
    cases query with
    | tombstone session => exact may.elim
    | storeLatest session frame => exact may.elim
    | publish previous next epoch =>
      obtain ⟨current, locked, -, candidate, ⟨token, identity, same⟩, last, read, less⟩ := may
      obtain ⟨lifecycle, x, there, status, named⟩ := known.candidate next candidate
      have fit : Publishable held o previous next epoch x token :=
        ⟨lifecycle, locked, (known.current previous current).2, there, status,
          named.trans identity, same, (known.epoch last read).2 ▸ less⟩
      exact ⟨fit.sound sound, fit.framed sound⟩
    | makeSession backend => exact ⟨makeSession_sound sound backend, makeSession_framed backend may⟩
    | reject session =>
      obtain ⟨lifecycle, x, there, status, -⟩ := known.candidate session may
      refine ⟨change_sound sound there (fun _ => rfl) nofun (fun _ => nofun) ?_,
        framed_candidate lifecycle there status ?_ rfl rfl⟩
      · intro frame stored
        have current := (sound.latest session x frame there stored).1
        rw [status] at current
        cases current
      · intro i apart
        exact (DeviceOwner.change_session session i _).trans (if_neg apart)
    | makeIdentity session identity =>
      obtain ⟨candidate, -⟩ := may
      obtain ⟨lifecycle, x, there, status, -⟩ := known.candidate session candidate
      refine ⟨makeIdentity_sound sound there status identity,
        framed_candidate lifecycle there status (fun i apart => ?_) rfl rfl⟩
      exact (DeviceOwner.change_session session i _).trans (if_neg apart)
    | withdraw previous => exact may.elim
    | _ => exact ⟨sound, .refl held o⟩
  | invalidate =>
    have known : OwnerKnows o held view := knows
    cases query with
    | tombstone session => exact may.elim
    | storeLatest session frame => exact may.elim
    | publish previous next epoch => exact may.elim
    | makeSession backend => exact may.elim
    | reject session => exact may.elim
    | makeIdentity session identity => exact may.elim
    | withdraw previous =>
      obtain ⟨read, locked⟩ := may
      obtain ⟨lifecycle, current⟩ := known.current _ read
      obtain ⟨token, bound, -⟩ := sound.current previous current
      obtain ⟨x, there, published, -⟩ := bound.session
      simp only [DeviceOwner.effect, if_pos current]
      have framed : Framed held o (o.retire previous) :=
        framed_change locked ⟨x, there, published⟩ (fun _ => rfl) (fun _ _ => nofun)
      refine ⟨retire_sound sound current, framed.bound, framed.session, ?_,
        fun free => absurd lifecycle free⟩
      intro s same free
      rw [current] at same
      cases Option.some.inj same
      exact absurd locked free
    | _ => exact ⟨sound, .refl held o⟩

/-! What a call knows stays true. -/

theorem PortKnows.framed {o t : DeviceOwner} {s : Nat} {held mine : List DeviceMutex}
    {view : DeviceView} (framed : Framed mine o t) (apart : ∀ m ∈ mine, m ∉ held)
    (known : PortKnows o s held view) : PortKnows t s held view := by
  have free (locked : .operation s ∈ held) : .operation s ∉ mine := fun theirs =>
    apart _ theirs locked
  obtain ⟨token, bound⟩ := known.bound
  have later := framed.bound s token bound
  refine ⟨⟨token, later⟩, fun status => ?_, fun here => ?_, fun its read => ?_⟩
  · obtain ⟨locked, x, there, current⟩ := known.status status
    exact ⟨locked, x, framed.session s x there (by simp [current]) (free locked), current⟩
  · obtain ⟨locked, current⟩ := known.here here
    exact ⟨locked, framed.current s current (free locked)⟩
  · rw [later.identity, ← known.token its read, bound.identity]

theorem OwnerKnows.framed {o t : DeviceOwner} {held mine : List DeviceMutex}
    {view : DeviceView} (framed : Framed mine o t) (apart : ∀ m ∈ mine, m ∉ held)
    (known : OwnerKnows o held view) : OwnerKnows t held view := by
  have free (lifecycle : .lifecycle ∈ held) : .lifecycle ∉ mine := fun theirs =>
    apart _ theirs lifecycle
  refine ⟨fun epoch read => ?_, fun session candidate => ?_, fun current read => ?_,
    fun session token published => framed.bound session token (known.published _ _ published)⟩
  · obtain ⟨lifecycle, same⟩ := known.epoch epoch read
    exact ⟨lifecycle, (framed.owner (free lifecycle)).1.trans same⟩
  · obtain ⟨lifecycle, x, there, status, identity⟩ := known.candidate session candidate
    exact ⟨lifecycle, x, (framed.owner (free lifecycle)).2.2 session x there status, status,
      identity⟩
  · obtain ⟨lifecycle, same⟩ := known.current current read
    exact ⟨lifecycle, (framed.owner (free lifecycle)).2.1.trans same⟩

theorem isCurrent_current {o : DeviceOwner} {s : Nat} (here : o.isCurrent s = true) :
    o.current = some s := by
  simp only [DeviceOwner.isCurrent, Bool.and_eq_true, decide_eq_true_eq] at here
  exact here.1

theorem PortKnows.after {o : DeviceOwner} (sound : DeviceSound o) (input : DeviceInput) {s : Nat}
    {operation : PortOperation} {held : List DeviceMutex} {view : DeviceView}
    (query : DeviceQuery) (known : PortKnows o s held view)
    (may : (DeviceRequest.port s operation).may held view query) :
    PortKnows (o.effect query (o.reply input query)) s held
      (view.after query (o.reply input query)) := by
  have kept := (effect_kept sound input query
    (show (DeviceRequest.port s operation).knows o held view from known) may).2
  obtain ⟨bound, status, here, token⟩ := known
  cases query with
  | status session =>
    obtain ⟨rfl, locked⟩ := may
    refine ⟨bound, fun current => ⟨locked, ?_⟩, here, token⟩
    obtain ⟨its, known⟩ := bound
    obtain ⟨x, there, -⟩ := known.session
    simp only [DeviceView.after, DeviceOwner.reply, there, Option.map_some, Option.getD_some,
      decide_eq_true_eq] at current
    exact ⟨x, there, current⟩
  | isCurrent session =>
    obtain ⟨rfl, locked⟩ := may
    refine ⟨bound, status, fun answered => ⟨locked, ?_⟩, token⟩
    simp only [DeviceView.after, Bool.or_eq_true] at answered
    rcases answered with before | now
    · exact (here before).2
    · exact isCurrent_current now
  | identity session =>
    cases may
    refine ⟨bound, status, here, ?_⟩
    rintro _ ⟨⟩
    rfl
  | tombstone session =>
    obtain ⟨rfl, current, -⟩ := may
    obtain ⟨its, known⟩ := bound
    refine ⟨⟨its, kept.bound _ its known⟩, by rintro ⟨⟩, here, fun t read => ?_⟩
    rw [(kept.bound _ its known).identity, ← token t read, known.identity]
  | storeLatest session frame =>
    obtain ⟨rfl, current, -⟩ := may
    obtain ⟨locked, x, there, alive⟩ := status current
    obtain ⟨its, known⟩ := bound
    refine ⟨⟨its, kept.bound _ its known⟩,
      fun _ => ⟨locked, { x with latest := some frame }, ?_, alive⟩, here, fun t read => ?_⟩
    · refine (DeviceOwner.change_session _ _ _).trans ?_
      rw [if_pos rfl, there]
      rfl
    · rw [(kept.bound _ its known).identity, ← token t read, known.identity]
  | publish previous next epoch => exact may.elim
  | makeSession backend => exact may.elim
  | reject session => exact may.elim
  | makeIdentity session identity => exact may.elim
  | withdraw previous => exact may.elim
  | _ => exact ⟨bound, status, here, token⟩

theorem OwnerKnows.after {o : DeviceOwner} (sound : DeviceSound o) (input : DeviceInput)
    {request : DeviceRequest} {held : List DeviceMutex} {view : DeviceView}
    (query : DeviceQuery) (owned : ∀ s operation, request ≠ .port s operation)
    (known : OwnerKnows o held view) (may : request.may held view query) :
    OwnerKnows (o.effect query (o.reply input query)) held
      (view.after query (o.reply input query)) := by
  have knows : request.knows o held view := by
    cases request with
    | port s operation => exact absurd rfl (owned s operation)
    | _ => exact known
  have bound := (effect_kept sound input query knows may).2.bound
  obtain ⟨epoch, candidate, current, published⟩ := known
  cases request with
  | port s operation => exact absurd rfl (owned s operation)
  | activate backend profile requested android =>
    cases query with
    | lastEpoch =>
      refine ⟨?_, candidate, current, published⟩
      rintro _ ⟨⟩
      exact ⟨may, rfl⟩
    | makeSession backend =>
      refine ⟨epoch, ?_, current, fun s t same => bound s t (published s t same)⟩
      rintro _ ⟨⟩
      exact ⟨may, ⟨backend, none, .candidate, none⟩, List.getElem?_concat_length, rfl, rfl⟩
    | reject session =>
      exact ⟨epoch, by rintro _ ⟨⟩, current, fun s t same => bound s t (published s t same)⟩
    | makeIdentity session identity =>
      refine ⟨epoch, fun s same => ?_, current, fun s t same => bound s t (published s t same)⟩
      obtain ⟨lifecycle, x, there, status, -⟩ := candidate s same
      have this : session = s := Option.some.inj (may.1.symm.trans same)
      subst this
      refine ⟨lifecycle, { x with identity := some ⟨o.nextAddress, identity⟩ }, ?_, status, rfl⟩
      refine (DeviceOwner.change_session _ _ _).trans ?_
      rw [if_pos rfl, there]
      rfl
    | current =>
      refine ⟨epoch, candidate, ?_, published⟩
      rintro _ ⟨⟩
      exact ⟨may, rfl⟩
    | publish previous next number =>
      obtain ⟨read, locked, -, chosen, ⟨token, identity, same⟩, last, seen, less⟩ := may
      obtain ⟨lifecycle, x, there, status, named⟩ := candidate next chosen
      have fit : Publishable held o previous next number x token :=
        ⟨lifecycle, locked, (current previous read).2, there, status, named.trans identity,
          same, (epoch last seen).2 ▸ less⟩
      refine ⟨by rintro _ ⟨⟩, by rintro _ ⟨⟩, by rintro _ ⟨⟩, fun s t now => ?_⟩
      simp only [DeviceView.after, identity, Option.map_some, Option.some.injEq,
        Prod.mk.injEq] at now
      obtain ⟨rfl, rfl⟩ := now
      obtain ⟨its, alive, -⟩ := (fit.sound sound).current next rfl
      have own := alive.identity
      rw [fit.identityOf sound] at own
      simp only [DeviceOwner.identityOf, there, Option.bind_some, fit.identity] at own
      cases Option.some.inj own
      exact alive
    | tombstone session => exact may.elim
    | storeLatest session frame => exact may.elim
    | withdraw previous => exact may.elim
    | _ => exact ⟨epoch, candidate, current, published⟩
  | invalidate =>
    cases query with
    | current =>
      refine ⟨epoch, candidate, ?_, published⟩
      rintro _ ⟨⟩
      exact ⟨may, rfl⟩
    | withdraw previous =>
      have here := (current _ may.1).2
      refine ⟨fun e same => ?_, fun s same => ?_, by rintro _ ⟨⟩,
        fun s t same => bound s t (published s t same)⟩
      · obtain ⟨lifecycle, same⟩ := epoch e same
        simp only [DeviceOwner.effect, if_pos here]
        exact ⟨lifecycle, same⟩
      · obtain ⟨lifecycle, x, there, status, identity⟩ := candidate s same
        refine ⟨lifecycle, x, ?_, status, identity⟩
        simp only [DeviceOwner.effect, if_pos here]
        refine (DeviceOwner.change_session _ _ _).trans ?_
        rw [if_neg ?_]
        · exact there
        · rintro rfl
          obtain ⟨token, bound, -⟩ := sound.current s here
          obtain ⟨y, found, published, -⟩ := bound.session
          rw [there] at found
          cases Option.some.inj found
          exact published status
    | _ => exact may.elim

theorem port_unlocked {o : DeviceOwner} {s : Nat} {held : List DeviceMutex} {view : DeviceView}
    {m : DeviceMutex} (known : PortKnows o s held view) :
    PortKnows o s (held.erase m) (view.unlocked m) := by
  obtain ⟨bound, status, here, token⟩ := known
  have keep (other : DeviceMutex.operation s ≠ m) (locked : .operation s ∈ held) :
      .operation s ∈ held.erase m := (List.mem_erase_of_ne other).mpr locked
  cases m with
  | operation session => exact ⟨bound, nofun, nofun, token⟩
  | _ =>
    exact ⟨bound, fun h => ⟨keep (by simp) (status h).1, (status h).2⟩,
      fun h => ⟨keep (by simp) (here h).1, (here h).2⟩, token⟩

theorem owner_unlocked {o : DeviceOwner} {held : List DeviceMutex} {view : DeviceView}
    {m : DeviceMutex} (known : OwnerKnows o held view) :
    OwnerKnows o (held.erase m) (view.unlocked m) := by
  obtain ⟨epoch, candidate, current, published⟩ := known
  have keep (other : DeviceMutex.lifecycle ≠ m) (locked : .lifecycle ∈ held) :
      .lifecycle ∈ held.erase m := (List.mem_erase_of_ne other).mpr locked
  cases m with
  | lifecycle => exact ⟨nofun, nofun, nofun, published⟩
  | _ =>
    exact ⟨fun e h => ⟨keep (by simp) (epoch e h).1, (epoch e h).2⟩,
      fun s h => ⟨keep (by simp) (candidate s h).1, (candidate s h).2⟩,
      fun c h => ⟨keep (by simp) (current c h).1, (current c h).2⟩, published⟩

theorem port_locked {o : DeviceOwner} {s : Nat} {held : List DeviceMutex} {view : DeviceView}
    {m : DeviceMutex} (known : PortKnows o s held view) : PortKnows o s (m :: held) view :=
  ⟨known.bound, fun h => ⟨List.mem_cons_of_mem _ (known.status h).1, (known.status h).2⟩,
    fun h => ⟨List.mem_cons_of_mem _ (known.here h).1, (known.here h).2⟩, known.token⟩

theorem owner_locked {o : DeviceOwner} {held : List DeviceMutex} {view : DeviceView}
    {m : DeviceMutex} (known : OwnerKnows o held view) : OwnerKnows o (m :: held) view :=
  ⟨fun e h => ⟨List.mem_cons_of_mem _ (known.epoch e h).1, (known.epoch e h).2⟩,
    fun s h => ⟨List.mem_cons_of_mem _ (known.candidate s h).1, (known.candidate s h).2⟩,
    fun c h => ⟨List.mem_cons_of_mem _ (known.current c h).1, (known.current c h).2⟩,
    known.published⟩

/-- A binding that was returned has been published. -/
theorem settled_bound {o : DeviceOwner} {request : DeviceRequest} {held : List DeviceMutex}
    {view : DeviceView} {s : Nat} {token : IdentityToken}
    (knows : request.knows o held view)
    (settled : request.settled held view (.ok (.bound s token))) : o.Bound s token := by
  cases request with
  | port session operation =>
    have port : PortSettled held view (.bound s token) := settled
    exact absurd rfl (port.unbound s token)
  | activate backend profile epoch android =>
    have known : OwnerKnows o held view := knows
    exact known.published s token settled.2.1
  | invalidate => exact settled.elim

theorem device_start : DeviceSound deviceMachine.start where
  status _ _ there := by cases there
  current _ here := by cases here
  latest _ _ _ there := by cases there
  address _ _ named := by cases named
  distinct _ _ _ _ named := by cases named

theorem device_lawful : deviceDiscipline.Lawful deviceMachine where
  start := device_start
  opens shared results request sound offered settled := by
    cases request with
    | port session operation =>
      obtain ⟨result, member, names⟩ := List.any_eq_true.mp offered
      obtain ⟨request, held, view, knows, ended⟩ := settled result member
      split at names
      · rename_i s token
        simp only [decide_eq_true_eq] at names
        subst names
        exact ⟨⟨token, settled_bound knows ended⟩, nofun, nofun, nofun⟩
      · cases names
    | activate backend profile epoch android => exact ⟨nofun, nofun, nofun, nofun⟩
    | invalidate => exact ⟨nofun, nofun, nofun, nofun⟩
  follows := request_guided
  locks shared request held view m known := by
    cases request with
    | port session operation => exact port_locked known
    | activate backend profile epoch android => exact owner_locked known
    | invalidate => exact owner_locked known
  unlocks shared request held view m known _ := by
    cases request with
    | port session operation => exact port_unlocked known
    | activate backend profile epoch android => exact owner_unlocked known
    | invalidate => exact owner_unlocked known
  keeps shared input request held view query sound known may := by
    refine ⟨(effect_kept sound input query known may).1, ?_⟩
    cases request with
    | port session operation => exact PortKnows.after sound input query known may
    | activate backend profile epoch android =>
      exact OwnerKnows.after sound input query (fun _ _ same => by cases same) known may
    | invalidate => exact OwnerKnows.after sound input query (fun _ _ same => by cases same) known may
  spares shared input request held view query request' held' view' sound known may theirs apart := by
    have framed := (effect_kept sound input query known may).2
    cases request' with
    | port session operation => exact PortKnows.framed framed apart theirs
    | activate backend profile epoch android => exact OwnerKnows.framed framed apart theirs
    | invalidate => exact OwnerKnows.framed framed apart theirs

/-! Runs. -/

abbrev PortState :=
  State DeviceMutex DeviceQuery DeviceQuery.Answer DeviceFailure DeviceOutcome DeviceRequest
    DeviceOwner

abbrev PortLabel :=
  Threads.Label DeviceMutex DeviceQuery DeviceQuery.Answer DeviceFailure DeviceOutcome DeviceRequest

abbrev PortEvent := Event PortState PortLabel

/-- How the owner can look later. A session that was published and is not current any more
never is again. -/
structure Later (o t : DeviceOwner) : Prop where
  epoch : o.lastEpoch ≤ t.lastEpoch
  bound : ∀ s token, o.Bound s token → t.Bound s token
  withdrawn : o.current = none → t.current = none ∨ o.lastEpoch < t.lastEpoch
  past : ∀ s token, o.Bound s token → t.IsCurrent s → o.IsCurrent s

theorem Later.refl (o : DeviceOwner) : Later o o :=
  ⟨Nat.le_refl _, fun _ _ h => h, .inl, fun _ _ _ h => h⟩

theorem Later.trans (o t u : DeviceOwner) (one : Later o t) (two : Later t u) : Later o u := by
  refine ⟨Nat.le_trans one.epoch two.epoch, fun s token h => two.bound s token (one.bound s token h),
    fun none => ?_, fun s token h now => one.past s token h (two.past s token (one.bound s token h) now)⟩
  rcases one.withdrawn none with still | more
  · rcases two.withdrawn still with gone | further
    · exact .inl gone
    · exact .inr (Nat.lt_of_le_of_lt one.epoch further)
  · exact .inr (Nat.lt_of_lt_of_le more two.epoch)

/-- A change of one session that does not make it current. -/
theorem change_past {o : DeviceOwner} {s i : Nat} {x : Session} {f : Session → Session}
    (there : o.sessions[s]? = some x) (status : (f x).status = .current → x.status = .current)
    (now : (o.change s f).IsCurrent i) : o.IsCurrent i := by
  obtain ⟨current, y, here, alive⟩ := now
  refine ⟨current, ?_⟩
  rw [DeviceOwner.change_session] at here
  split at here
  · rename_i same
    subst same
    rw [there] at here
    cases Option.some.inj here
    exact ⟨x, there, status alive⟩
  · exact ⟨y, here, alive⟩

theorem effect_later (o : DeviceOwner) (request : DeviceRequest) (held : List DeviceMutex)
    (view : DeviceView) (query : DeviceQuery) (input : DeviceInput) (sound : DeviceSound o)
    (knows : request.knows o held view) (may : request.may held view query) :
    Later o (o.effect query (o.reply input query)) := by
  have bound := (effect_kept sound input query knows may).2.bound
  cases query with
  | tombstone session =>
    refine ⟨Nat.le_refl _, bound, .inl, fun s token known now => ?_⟩
    obtain ⟨x, there⟩ : ∃ x, o.sessions[session]? = some x := by
      cases request with
      | port s operation =>
        obtain ⟨rfl, status, -⟩ := may
        have port : PortKnows o session held view := knows
        obtain ⟨-, x, there, -⟩ := port.status status
        exact ⟨x, there⟩
      | activate backend profile epoch android => exact may.elim
      | invalidate => exact may.elim
    exact change_past there (fun h => by cases h) now
  | storeLatest session frame =>
    refine ⟨Nat.le_refl _, bound, .inl, fun s token known now => ?_⟩
    obtain ⟨x, there⟩ : ∃ x, o.sessions[session]? = some x := by
      cases request with
      | port s operation =>
        obtain ⟨rfl, status, -⟩ := may
        have port : PortKnows o session held view := knows
        obtain ⟨-, x, there, -⟩ := port.status status
        exact ⟨x, there⟩
      | activate backend profile epoch android => exact may.elim
      | invalidate => exact may.elim
    exact change_past there (fun h => h) now
  | makeSession backend =>
    refine ⟨Nat.le_refl _, bound, .inl, fun s token known now => ?_⟩
    obtain ⟨x, there, -⟩ := known.session
    obtain ⟨current, y, here, alive⟩ := now
    change (o.sessions ++ _)[s]? = _ at here
    rw [List.getElem?_append_left (List.getElem?_eq_some_iff.mp there).1] at here
    exact ⟨current, y, here, alive⟩
  | reject session =>
    refine ⟨Nat.le_refl _, bound, .inl, fun s token known now => ?_⟩
    obtain ⟨x, there⟩ : ∃ x, o.sessions[session]? = some x := by
      cases request with
      | port s operation => exact may.elim
      | activate backend profile epoch android =>
        have owner : OwnerKnows o held view := knows
        obtain ⟨-, x, there, -⟩ := owner.candidate session may
        exact ⟨x, there⟩
      | invalidate => exact may.elim
    exact change_past there (fun h => by cases h) now
  | makeIdentity session identity =>
    refine ⟨Nat.le_refl _, bound, .inl, fun s token known now => ?_⟩
    obtain ⟨x, there⟩ : ∃ x, o.sessions[session]? = some x := by
      cases request with
      | port s operation => exact may.elim
      | activate backend profile epoch android =>
        have owner : OwnerKnows o held view := knows
        obtain ⟨-, x, there, -⟩ := owner.candidate session may.1
        exact ⟨x, there⟩
      | invalidate => exact may.elim
    have older : (o.change session (fun s => { s with
        identity := some ⟨o.nextAddress, identity⟩ })).IsCurrent s := now
    exact change_past there (fun h => h) older
  | publish previous next epoch =>
    cases request with
    | port s operation => exact may.elim
    | activate backend profile requested android =>
      obtain ⟨current, locked, -, candidate, ⟨token, identity, same⟩, last, read, less⟩ := may
      have owner : OwnerKnows o held view := knows
      obtain ⟨lifecycle, x, there, status, named⟩ := owner.candidate next candidate
      have rises : o.lastEpoch < epoch := (owner.epoch last read).2 ▸ less
      refine ⟨Nat.le_of_lt rises, bound, fun _ => .inr rises, fun s its known now => ?_⟩
      obtain ⟨chosen, -⟩ := now
      cases Option.some.inj chosen
      obtain ⟨y, here, published, -⟩ := known.session
      rw [there] at here
      cases Option.some.inj here
      exact absurd status published
    | invalidate => exact may.elim
  | withdraw previous =>
    by_cases here : o.current = some previous
    · have gone : o.effect (.withdraw previous) () = { o.retire previous with current := none } :=
        if_pos here
      refine ⟨Nat.le_of_eq (by rw [gone]; rfl), bound, fun none => ?_, fun s token known now => ?_⟩
      · rw [here] at none
        cases none
      · obtain ⟨chosen, -⟩ := now
        rw [gone] at chosen
        cases chosen
    · have same : o.effect (.withdraw previous) () = o := if_neg here
      rw [show o.reply input (.withdraw previous) = () from rfl, same]
      exact .refl o
  | poll => exact .refl o
  | allocate => exact .refl o
  | backend session call => exact .refl o
  | status session => exact .refl o
  | isCurrent session => exact .refl o
  | identity session => exact .refl o
  | latest session => exact .refl o
  | lastEpoch => exact .refl o
  | current => exact .refl o

section Run

variable {es : List PortEvent} {w : PortState}

theorem ports_later (run : Run deviceMachine.system es w) {e : PortEvent} (member : e ∈ es) :
    Later e.source.shared e.target.shared ∧ Later e.target.shared w.shared :=
  device_lawful.later Later.refl Later.trans effect_later run member

theorem ports_sound (run : Run deviceMachine.system es w) : DeviceSound w.shared :=
  (device_lawful.sound run).whole

/-- The epoch that an act publishes. -/
def acceptedEpoch : PortLabel → Option Nat
  | .acted _ (.ask (.publish _ _ epoch)) _ => some epoch
  | _ => none

def acceptedEpochs (es : List PortEvent) : List Nat :=
  es.filterMap (fun e => acceptedEpoch e.label)

/-- An operation that has seen its session current did so by an act of its own. -/
def SeenCurrent (es : List PortEvent) (id : Nat) (request : DeviceRequest)
    (account : DeviceAccount) : Prop :=
  account.view.seen = true → ∀ s operation, request = .port s operation →
    ∃ e ∈ es, By id e ∧ e.source.shared.IsCurrent s

theorem seen_current (run : Run deviceMachine.system es w) {id : Nat}
    {call : Call DeviceMutex DeviceQuery DeviceQuery.Answer DeviceFailure DeviceOutcome
      DeviceRequest} {account : DeviceAccount} (there : w.calls[id]? = some call)
    (here : (deviceDiscipline.accounts es)[id]? = some account) :
    SeenCurrent es id call.request account := by
  have grown {es : List PortEvent} {e : PortEvent} {id s : Nat}
      (found : ∃ e ∈ es, By id e ∧ e.source.shared.IsCurrent s) :
      ∃ x ∈ es ++ [e], By id x ∧ x.source.shared.IsCurrent s := by
    obtain ⟨x, member, rest⟩ := found
    exact ⟨x, List.mem_append_left _ member, rest⟩
  refine device_lawful.history SeenCurrent ?_ ?_ ?_ ?_ run there here
  · intro es id request fresh seen
    cases seen
  · intro es e id request account other held seen s operation same
    exact grown (held seen s operation same)
  · intro es w t id request account act answer plain same held seen s operation is
    refine grown (held ?_ s operation is)
    cases act with
    | lock m => exact seen
    | unlock m => cases m <;> exact seen
    | ask q => exact absurd rfl (plain q)
  · intro es w t id request account q input sound knows may same held seen s operation is
    subst is
    have port : PortKnows w.shared s account.held account.view := knows
    cases q with
    | isCurrent session =>
      obtain ⟨rfl, -⟩ := may
      have now : account.view.seen = true ∨ (account.view.status = true ∧
          w.shared.isCurrent session = true) := by
        simpa [Discipline.follow, deviceDiscipline, DeviceView.after, deviceMachine,
          DeviceOwner.reply] using seen
      rcases now with before | ⟨status, answered⟩
      · exact grown (held before session operation rfl)
      · obtain ⟨-, x, found, alive⟩ := port.status status
        exact ⟨_, List.mem_append_right _ (List.mem_singleton_self _), ⟨_, _, rfl⟩,
          isCurrent_current answered, x, found, alive⟩
    | _ => exact grown (held seen s operation rfl)

/-- A latest frame that an operation has read was stored in its session while that was
current. -/
def ReadLatest (es : List PortEvent) (id : Nat) (request : DeviceRequest)
    (account : DeviceAccount) : Prop :=
  ∀ frame, account.view.frame = some frame → ∀ s operation, request = .port s operation →
    ∃ e ∈ es, By id e ∧ e.source.shared.IsCurrent s ∧
      ∃ x, e.source.shared.sessions[s]? = some x ∧ x.latest = some frame

theorem read_latest (run : Run deviceMachine.system es w) {id : Nat}
    {call : Call DeviceMutex DeviceQuery DeviceQuery.Answer DeviceFailure DeviceOutcome
      DeviceRequest} {account : DeviceAccount} (there : w.calls[id]? = some call)
    (here : (deviceDiscipline.accounts es)[id]? = some account) :
    ReadLatest es id call.request account := by
  have grown {es : List PortEvent} {e : PortEvent} {P : PortEvent → Prop}
      (found : ∃ e ∈ es, P e) : ∃ x ∈ es ++ [e], P x := by
    obtain ⟨x, member, rest⟩ := found
    exact ⟨x, List.mem_append_left _ member, rest⟩
  refine device_lawful.history ReadLatest ?_ ?_ ?_ ?_ run there here
  · intro es id request fresh frame read
    cases read
  · intro es e id request account other held frame read s operation same
    exact grown (held frame read s operation same)
  · intro es w t id request account act answer plain same held frame read s operation is
    refine grown (held frame ?_ s operation is)
    cases act with
    | lock m => exact read
    | unlock m => cases m <;> exact read
    | ask q => exact absurd rfl (plain q)
  · intro es w t id request account q input sound knows may same held frame read s operation is
    subst is
    have port : PortKnows w.shared s account.held account.view := knows
    cases q with
    | latest session =>
      obtain rfl := may
      change (if account.view.status && account.view.here then
        w.shared.sessions[session]?.bind Session.latest else none) = some frame at read
      split at read
      · rename_i live
        obtain ⟨status, present⟩ := Bool.and_eq_true_iff.mp live
        obtain ⟨-, x, found, alive⟩ := port.status status
        rw [found] at read
        exact ⟨_, List.mem_append_right _ (List.mem_singleton_self _), ⟨_, _, rfl⟩,
          ⟨(port.here present).2, x, found, alive⟩, x, found, read⟩
      · cases read
    | _ => exact grown (held frame read s operation rfl)

/-- An activation that has published did so by an act of its own. -/
def Publication (es : List PortEvent) (id : Nat) (_ : DeviceRequest) (account : DeviceAccount) :
    Prop :=
  ∀ s token, account.view.published = some (s, token) →
    ∃ e ∈ es, By id e ∧ acceptedEpoch e.label = some token.identity.sessionEpoch

theorem publication (run : Run deviceMachine.system es w) {id : Nat}
    {call : Call DeviceMutex DeviceQuery DeviceQuery.Answer DeviceFailure DeviceOutcome
      DeviceRequest} {account : DeviceAccount} (there : w.calls[id]? = some call)
    (here : (deviceDiscipline.accounts es)[id]? = some account) :
    Publication es id call.request account := by
  have grown {es : List PortEvent} {e : PortEvent} {P : PortEvent → Prop}
      (found : ∃ e ∈ es, P e) : ∃ x ∈ es ++ [e], P x := by
    obtain ⟨x, member, rest⟩ := found
    exact ⟨x, List.mem_append_left _ member, rest⟩
  refine device_lawful.history Publication ?_ ?_ ?_ ?_ run there here
  · intro es id request fresh s token published
    cases published
  · intro es e id request account other held s token published
    exact grown (held s token published)
  · intro es w t id request account act answer plain same held s token published
    refine grown (held s token ?_)
    cases act with
    | lock m => exact published
    | unlock m => cases m <;> exact published
    | ask q => exact absurd rfl (plain q)
  · intro es w t id request account q input sound knows may same held s token published
    cases q with
    | publish previous next epoch =>
      cases request with
      | port session operation => exact may.elim
      | activate backend profile requested android =>
        obtain ⟨-, -, -, -, ⟨its, identity, named⟩, -⟩ := may
        change account.view.identity.map _ = _ at published
        rw [identity] at published
        simp only [Option.map_some, Option.some.injEq, Prod.mk.injEq] at published
        obtain ⟨-, rfl⟩ := published
        exact ⟨_, List.mem_append_right _ (List.mem_singleton_self _), ⟨_, _, rfl⟩,
          congrArg some named.symm⟩
      | invalidate => exact may.elim
    | _ => exact grown (held s token published)

/-- A call that has found or left the owner without a session did so by an act of its own. -/
def Cleared (es : List PortEvent) (id : Nat) (_ : DeviceRequest) (account : DeviceAccount) :
    Prop :=
  account.view.cleared = true → ∃ e ∈ es, By id e ∧ e.target.shared.current = none

theorem cleared (run : Run deviceMachine.system es w) {id : Nat}
    {call : Call DeviceMutex DeviceQuery DeviceQuery.Answer DeviceFailure DeviceOutcome
      DeviceRequest} {account : DeviceAccount} (there : w.calls[id]? = some call)
    (here : (deviceDiscipline.accounts es)[id]? = some account) :
    Cleared es id call.request account := by
  have grown {es : List PortEvent} {e : PortEvent} {P : PortEvent → Prop}
      (found : ∃ e ∈ es, P e) : ∃ x ∈ es ++ [e], P x := by
    obtain ⟨x, member, rest⟩ := found
    exact ⟨x, List.mem_append_left _ member, rest⟩
  refine device_lawful.history Cleared ?_ ?_ ?_ ?_ run there here
  · intro es id request fresh done
    cases done
  · intro es e id request account other held done
    exact grown (held done)
  · intro es w t id request account act answer plain same held done
    refine grown (held ?_)
    cases act with
    | lock m => exact done
    | unlock m => cases m <;> exact done
    | ask q => exact absurd rfl (plain q)
  · intro es w t id request account q input sound knows may same held done
    cases q with
    | current =>
      have now : account.view.cleared = true ∨ w.shared.current = none := by
        simpa [Discipline.follow, deviceDiscipline, DeviceView.after, deviceMachine,
          DeviceOwner.reply] using done
      rcases now with before | none
      · exact grown (held before)
      · refine ⟨_, List.mem_append_right _ (List.mem_singleton_self _), ⟨_, _, rfl⟩, ?_⟩
        rw [same]
        exact none
    | withdraw previous =>
      refine ⟨_, List.mem_append_right _ (List.mem_singleton_self _), ⟨_, _, rfl⟩, ?_⟩
      rw [same]
      cases request with
      | port s operation => exact may.elim
      | activate backend profile epoch android => exact may.elim
      | invalidate =>
        have owner : OwnerKnows w.shared account.held account.view := knows
        have current := (owner.current _ may.1).2
        show (w.shared.effect (.withdraw previous) ()).current = none
        simp only [DeviceOwner.effect, if_pos current]
    | _ => exact grown (held done)

/-- An event that leaves the current session and the last epoch as they are. -/
structure Harmless (e : PortEvent) : Prop where
  current : e.target.shared.current = e.source.shared.current
  epoch : e.target.shared.lastEpoch = e.source.shared.lastEpoch
  session : ∀ s, e.source.shared.current = some s →
    e.target.shared.sessions[s]? = e.source.shared.sessions[s]?

theorem harmless_same {e : PortEvent} (same : e.target.shared = e.source.shared) : Harmless e :=
  ⟨by rw [same], by rw [same], fun _ _ => by rw [same]⟩

/-- An activation that has not published has changed nothing of the current session. -/
def Unpublished (es : List PortEvent) (id : Nat) (request : DeviceRequest)
    (account : DeviceAccount) : Prop :=
  account.view.published = none → ∀ backend profile epoch android,
    request = .activate backend profile epoch android → ∀ e ∈ es, By id e → Harmless e

theorem candidate_harmless {o t : DeviceOwner} (sound : DeviceSound o) {s : Nat} {x : Session}
    (there : o.sessions[s]? = some x) (candidate : x.status = .candidate)
    (others : ∀ i, i ≠ s → t.sessions[i]? = o.sessions[i]?) :
    ∀ i, o.current = some i → t.sessions[i]? = o.sessions[i]? := by
  intro i current
  refine others i ?_
  rintro rfl
  obtain ⟨token, bound, -⟩ := sound.current i current
  obtain ⟨y, here, known, -⟩ := bound.session
  rw [there] at here
  cases Option.some.inj here
  exact known candidate

theorem unpublished (run : Run deviceMachine.system es w) {id : Nat}
    {call : Call DeviceMutex DeviceQuery DeviceQuery.Answer DeviceFailure DeviceOutcome
      DeviceRequest} {account : DeviceAccount} (there : w.calls[id]? = some call)
    (here : (deviceDiscipline.accounts es)[id]? = some account) :
    Unpublished es id call.request account := by
  have grown {es : List PortEvent} {e : PortEvent} {id : Nat}
      (old : ∀ x ∈ es, By id x → Harmless x) (new : By id e → Harmless e) :
      ∀ x ∈ es ++ [e], By id x → Harmless x := by
    intro x member mine
    rcases List.mem_append.mp member with before | now
    · exact old x before mine
    · cases List.mem_singleton.mp now
      exact new mine
  refine device_lawful.history Unpublished ?_ ?_ ?_ ?_ run there here
  · intro es id request fresh _ backend profile epoch android _ e member mine
    exact absurd mine (fresh e member)
  · intro es e id request account other held none backend profile epoch android is
    exact grown (held none backend profile epoch android is) (fun mine => absurd mine other)
  · intro es w t id request account act answer plain same held none backend profile epoch android is
    refine grown (held ?_ backend profile epoch android is) (fun _ => harmless_same same)
    cases act with
    | lock m => exact none
    | unlock m => cases m <;> exact none
    | ask q => exact absurd rfl (plain q)
  · intro es w t id request account q input sound knows may same held none backend profile epoch
      android is
    subst is
    have owner : OwnerKnows w.shared account.held account.view := knows
    have older (unchanged : account.view.published = Option.none) :=
      held unchanged backend profile epoch android rfl
    cases q with
    | publish previous next number =>
      obtain ⟨-, -, -, -, ⟨its, identity, -⟩, -⟩ := may
      change account.view.identity.map _ = _ at none
      rw [identity] at none
      cases none
    | makeSession backend =>
      refine grown (older none) (fun _ => ⟨?_, ?_, fun s current => ?_⟩)
      · rw [same]
        rfl
      · rw [same]
        rfl
      · rw [same]
        obtain ⟨token, bound, -⟩ := sound.current s current
        obtain ⟨x, found, -⟩ := bound.session
        exact List.getElem?_append_left (List.getElem?_eq_some_iff.mp found).1
    | reject session =>
      obtain ⟨-, x, found, candidate, -⟩ := owner.candidate session may
      refine grown (older none) (fun _ => ⟨?_, ?_, ?_⟩)
      · rw [same]
        rfl
      · rw [same]
        rfl
      · rw [same]
        exact candidate_harmless sound found candidate
          (fun i apart => (DeviceOwner.change_session session i _).trans (if_neg apart))
    | makeIdentity session identity =>
      obtain ⟨-, x, found, candidate, -⟩ := owner.candidate session may.1
      refine grown (older none) (fun _ => ⟨?_, ?_, ?_⟩)
      · rw [same]
        rfl
      · rw [same]
        rfl
      · rw [same]
        exact candidate_harmless sound found candidate
          (fun i apart => (DeviceOwner.change_session session i _).trans (if_neg apart))
    | tombstone session => exact may.elim
    | storeLatest session frame => exact may.elim
    | withdraw previous => exact may.elim
    | _ => exact grown (older none) (fun _ => harmless_same same)

theorem accepted_increase (run : Run deviceMachine.system es w) :
    (acceptedEpochs es).Pairwise (· < ·) ∧ ∀ epoch ∈ acceptedEpochs es, epoch ≤ w.shared.lastEpoch := by
  refine run.history (fun es w => (acceptedEpochs es).Pairwise (· < ·) ∧
    ∀ epoch ∈ acceptedEpochs es, epoch ≤ w.shared.lastEpoch) ?_ ?_
  · intro w _
    exact ⟨.nil, nofun⟩
  · intro es w l t run held step
    have both := run.step step
    have later := ports_later both (List.mem_append_right _ (List.mem_singleton_self _))
    have kept (epoch : Nat) (member : epoch ∈ acceptedEpochs es) : epoch ≤ t.shared.lastEpoch :=
      Nat.le_trans (held.2 epoch member) later.1.epoch
    have split : acceptedEpochs (es ++ [⟨w, l, t⟩]) =
        acceptedEpochs es ++ (acceptedEpoch l).toList := by
      simp only [acceptedEpochs, List.filterMap_append, List.filterMap_cons, List.filterMap_nil]
      cases acceptedEpoch l <;> rfl
    rw [split]
    cases found : acceptedEpoch l with
    | none => simpa using ⟨held.1, kept⟩
    | some epoch =>
      have rises : w.shared.lastEpoch < epoch ∧ t.shared.lastEpoch = epoch := by
        unfold acceptedEpoch at found
        split at found
        · cases Option.some.inj found
          have whole : Run deviceMachine.system (es ++ _ :: []) t := both
          obtain ⟨⟨request, rest, returned⟩, held, view, input, -, knows, may, -, effect⟩ :=
            device_lawful.asked whole rfl
          have reached : t.shared.lastEpoch = epoch := by rw [effect]; rfl
          refine ⟨?_, reached⟩
          cases request with
          | port s operation => exact may.elim
          | activate backend profile requested android =>
            obtain ⟨-, -, -, -, -, last, read, less⟩ := may
            have owner : OwnerKnows w.shared held view := knows
            exact (owner.epoch last read).2 ▸ less
          | invalidate => exact may.elim
        · cases found
      refine ⟨List.pairwise_append.mpr ⟨held.1, by simp, ?_⟩, ?_⟩
      · intro before member after now
        obtain rfl : after = epoch := by simpa using now
        exact Nat.lt_of_le_of_lt (held.2 before member) rises.1
      · intro number member
        rcases List.mem_append.mp member with old | new
        · exact kept number old
        · obtain rfl : number = epoch := by simpa using new
          exact Nat.le_of_eq rises.2.symm

/-! What is claimed of every run. -/

def OperationOn (es : List PortEvent) (id s : Nat) : Prop :=
  ∃ e ∈ es, ∃ operation, e.label = .began id (.port s operation)

def Returned (es : List PortEvent) (s : Nat) (token : IdentityToken) : Prop :=
  ∃ e ∈ es, ∃ id, e.label = .returned id (.ok (.bound s token))

/-- From here on no operation on the port of the session calls its backend, and none that is
begun succeeds. -/
structure Silent (es after : List PortEvent) (s : Nat) : Prop where
  backend : ∀ id, OperationOn es id s → ∀ e ∈ after, ∀ session call answer,
    e.label ≠ .acted id (.ask (.backend session call)) answer
  failing : ∀ id, OperationOn after id s → ∀ e ∈ after, ∀ outcome,
    e.label = .returned id (.ok outcome) → outcome.succeeded = false

structure DeviceSessions (es : List PortEvent) (w : PortState) : Prop where
  /-- Accepted epochs strictly increase, and are those of the bindings that are returned. -/
  increase : (acceptedEpochs es).Pairwise (· < ·)
  accepted : ∀ e ∈ es, ∀ id s token, e.label = .returned id (.ok (.bound s token)) →
    ∃ x ∈ es, By id x ∧ acceptedEpoch x.label = some token.identity.sessionEpoch
  /-- At most one session is current. -/
  one : ∀ (s other : Nat) (x y : Session), w.shared.sessions[s]? = some x →
    w.shared.sessions[other]? = some y → x.status = .current → y.status = .current → s = other
  /-- A session that stops being current never is again. -/
  interval : ∀ before e after s, es = before ++ e :: after → e.source.shared.IsCurrent s →
    ¬ e.target.shared.IsCurrent s → ∀ x ∈ after, ¬ x.target.shared.IsCurrent s
  /-- A port with a smaller epoch than a binding that has been returned is silent. -/
  replaced : ∀ before e after id s token earlier its, es = before ++ e :: after →
    e.label = .returned id (.ok (.bound s token)) → Returned es earlier its →
    its.identity.sessionEpoch < token.identity.sessionEpoch → Silent es after earlier
  /-- A port that had been returned before a finished invalidation began is silent. -/
  invalidated : ∀ before b during e after id s token,
    es = before ++ b :: during ++ e :: after → b.label = .began id .invalidate →
    e.label = .returned id (.ok .invalidated) → Returned before s token → Silent es after s
  /-- Only frames with the session's own token are stored, and only while it is current. -/
  stored : ∀ e ∈ es, ∀ id s frame answer, e.label = .acted id (.ask (.storeLatest s frame)) answer →
    e.source.shared.IsCurrent s ∧ ∃ token, e.source.shared.identityOf s = some token ∧
      frame.identity = some token.address
  /-- A latest frame that is returned was the session's while it was current, with its own
  token. -/
  fetched : ∀ b ∈ es, ∀ e ∈ es, ∀ id s operation frame, b.label = .began id (.port s operation) →
    e.label = .returned id (.ok (.latest (some frame))) →
    ∃ x ∈ es, By id x ∧ x.source.shared.IsCurrent s ∧
      (∃ session, x.source.shared.sessions[s]? = some session ∧ session.latest = some frame) ∧
      ∃ token, x.source.shared.identityOf s = some token ∧ frame.identity = some token.address
  /-- No two sessions have the same token. -/
  tokens : ∀ s other token its, w.shared.identityOf s = some token →
    w.shared.identityOf other = some its → token.address = its.address → s = other
  /-- A failed activation leaves the current session and the last epoch as they are. -/
  failed : ∀ b ∈ es, ∀ e ∈ es, ∀ id backend profile epoch android failure,
    b.label = .began id (.activate backend profile epoch android) →
    e.label = .returned id (.error failure) → ∀ x ∈ es, By id x → Harmless x

/-- What was so after an event of the past still is so at a later event. -/
theorem ports_until {before after : List PortEvent} {e x : PortEvent}
    (run : Run deviceMachine.system (before ++ x :: after) w) (member : e ∈ before) :
    Later e.source.shared e.target.shared ∧ Later e.target.shared x.source.shared :=
  ports_later run.upto.1 member

theorem returned_bound {before after : List PortEvent} {e : PortEvent}
    (run : Run deviceMachine.system (before ++ e :: after) w) {id s : Nat} {token : IdentityToken}
    (label : e.label = .returned id (.ok (.bound s token))) : e.source.shared.Bound s token := by
  obtain ⟨call, account, -, -, knows, settled⟩ := device_lawful.ended run label
  exact settled_bound knows settled

theorem Returned.bound (run : Run deviceMachine.system es w) {s : Nat} {token : IdentityToken}
    (returned : Returned es s token) : w.shared.Bound s token := by
  obtain ⟨e, member, id, label⟩ := returned
  obtain ⟨before, after, rfl⟩ := List.append_of_mem member
  have later := ports_later run member
  exact later.2.bound s token (later.1.bound s token (returned_bound run label))

/-- A port whose session is not current any more is silent. -/
theorem silent_of {before after : List PortEvent} {e : PortEvent} {s : Nat}
    (run : Run deviceMachine.system (before ++ e :: after) w)
    (gone : ∀ x ∈ after, x.source.shared.current ≠ some s) :
    Silent (before ++ e :: after) after s := by
  refine ⟨?_, ?_⟩
  · rintro id ⟨b, begun, operation, start⟩ x member session query answer label
    obtain ⟨one, two, rfl⟩ := List.append_of_mem member
    have run' : Run deviceMachine.system ((before ++ e :: one) ++ x :: two) w := by simpa using run
    obtain ⟨call, held, view, input, there, knows, may, -⟩ := device_lawful.asked run' label
    obtain ⟨request, rest, returned⟩ := call
    have same : request = .port s operation :=
      request_same run' (by simpa using begun) start there
    subst same
    obtain ⟨rfl, here, -⟩ := may
    have port : PortKnows x.source.shared session held view := knows
    exact gone x member (port.here here).2
  · rintro id ⟨b, begun, operation, start⟩ x member outcome label
    obtain ⟨one, two, rfl⟩ := List.append_of_mem member
    have run' : Run deviceMachine.system ((before ++ e :: one) ++ x :: two) w := by simpa using run
    obtain ⟨call, account, there, here, knows, settled⟩ := device_lawful.ended run' label
    have same : call.request = .port s operation := by
      refine request_same run' ?_ start there
      simpa using .inr (.inr (by simpa using begun))
    rw [same] at settled
    have port : PortSettled account.held account.view outcome := settled
    refine Bool.eq_false_iff.mpr (fun success => ?_)
    obtain ⟨y, found, mine, current, -⟩ :=
      seen_current run'.upto.1 there here (port.seen success) s operation same
    -- The act was made after the call began, so it is one of the silent ones.
    obtain ⟨left, right, split⟩ := List.append_of_mem begun
    have run'' : Run deviceMachine.system ((before ++ e :: left) ++ b :: right) w := by
      rw [split] at run
      simpa using run
    have fresh := began_fresh run'' start y
    have later : y ∈ one := by
      rcases List.mem_append.mp found with old | new
      · exact absurd mine (fresh (by simp [old]))
      · rcases List.mem_cons.mp new with rfl | here
        · exact absurd mine (fresh (by simp))
        · exact here
    exact gone y (List.mem_append_left _ later) current

theorem current_epoch (run : Run deviceMachine.system es w) {s : Nat} {token : IdentityToken}
    {before after : List PortEvent} {x : PortEvent} (split : es = before ++ x :: after)
    (bound : w.shared.Bound s token) (current : x.source.shared.current = some s) :
    token.identity.sessionEpoch = x.source.shared.lastEpoch := by
  subst split
  obtain ⟨its, known, same⟩ := (ports_sound run.upto.1).current s current
  have later := ports_later run (e := x) (by simp)
  have kept := later.2.bound s its (later.1.bound s its known)
  rw [bound.unique kept]
  exact same

theorem replaced_silent {before after : List PortEvent} {e : PortEvent} {id s earlier : Nat}
    {token its : IdentityToken} (run : Run deviceMachine.system (before ++ e :: after) w)
    (label : e.label = .returned id (.ok (.bound s token)))
    (returned : Returned (before ++ e :: after) earlier its)
    (less : its.identity.sessionEpoch < token.identity.sessionEpoch) :
    Silent (before ++ e :: after) after earlier := by
  refine silent_of run (fun x member current => ?_)
  obtain ⟨one, two, rfl⟩ := List.append_of_mem member
  have run' : Run deviceMachine.system ((before ++ e :: one) ++ x :: two) w := by simpa using run
  have split : before ++ e :: (one ++ x :: two) = (before ++ e :: one) ++ x :: two := by simp
  have same := current_epoch run split (returned.bound run) current
  have later := ports_until run' (e := e) (by simp)
  have least := (returned_bound run label).2
  have more := Nat.le_trans least (Nat.le_trans later.1.epoch later.2.epoch)
  omega

theorem invalidated_silent {before during after : List PortEvent} {b e : PortEvent} {id s : Nat}
    {token : IdentityToken}
    (run : Run deviceMachine.system (before ++ b :: during ++ e :: after) w)
    (begun : b.label = .began id .invalidate)
    (label : e.label = .returned id (.ok .invalidated))
    (returned : Returned before s token) :
    Silent (before ++ b :: during ++ e :: after) after s := by
  refine silent_of run (fun x member current => ?_)
  obtain ⟨call, account, there, here, -, settled⟩ := device_lawful.ended run label
  obtain ⟨request, rest, done⟩ := call
  have same : request = .invalidate := request_same run (by simp) begun there
  subst same
  obtain ⟨m, found, mine, none⟩ := cleared run.upto.1 there here settled.2
  have run' : Run deviceMachine.system (before ++ b :: (during ++ e :: after)) w := by
    simpa using run
  have inside : m ∈ during := by
    have fresh := began_fresh run' begun m
    rcases List.mem_append.mp found with old | new
    · exact absurd mine (fresh (by simp [old]))
    · rcases List.mem_cons.mp new with rfl | within
      · exact absurd mine (fresh (by simp))
      · exact within
  -- From the published epoch over the invalidation to the event that would still be current.
  have bound := Returned.bound run'.upto.1 returned
  obtain ⟨left, right, rfl⟩ := List.append_of_mem inside
  have first : Later b.source.shared m.source.shared := by
    have run'' : Run deviceMachine.system
        ((before ++ b :: left) ++ m :: (right ++ e :: after)) w := by simpa using run
    have steps := ports_until run'' (e := b) (by simp)
    exact Later.trans _ _ _ steps.1 steps.2
  obtain ⟨one, two, rfl⟩ := List.append_of_mem member
  have second : Later m.source.shared m.target.shared ∧
      Later m.target.shared x.source.shared := by
    have run'' : Run deviceMachine.system
        ((before ++ b :: (left ++ m :: right) ++ e :: one) ++ x :: two) w := by simpa using run
    exact ports_until run'' (by simp)
  have kept : w.shared.Bound s token := by
    have steps := ports_later run' (e := b) (by simp)
    exact steps.2.bound s token (steps.1.bound s token bound)
  have split : before ++ b :: (left ++ m :: right) ++ e :: (one ++ x :: two) =
      before ++ b :: (left ++ m :: right) ++ e :: one ++ x :: two := by simp
  have same := current_epoch run split kept current
  rcases second.2.withdrawn none with still | rises
  · rw [current] at still
    cases still
  · have least := Nat.le_trans bound.2 (Nat.le_trans first.epoch second.1.epoch)
    omega

theorem device_sessions (run : Run deviceMachine.system es w) : DeviceSessions es w where
  increase := (accepted_increase run).1
  accepted e member id s token label := by
    obtain ⟨before, after, rfl⟩ := List.append_of_mem member
    obtain ⟨call, account, there, here, -, settled⟩ := device_lawful.ended run label
    have published : account.view.published = some (s, token) := by
      obtain ⟨request, rest, done⟩ := call
      cases request with
      | port session operation =>
        have port : PortSettled account.held account.view (.bound s token) := settled
        exact absurd rfl (port.unbound s token)
      | activate backend profile epoch android => exact settled.2.1
      | invalidate => exact settled.elim
    obtain ⟨x, found, rest⟩ := publication run.upto.1 there here s token published
    exact ⟨x, List.mem_append_left _ found, rest⟩
  one s other x y here there mine its := by
    have sound := ports_sound run
    have one := sound.status s x here mine
    rw [sound.status other y there its] at one
    exact (Option.some.inj one).symm
  interval before e after s split current stopped x member now := by
    subst split
    obtain ⟨token, bound, -⟩ := (ports_sound run.upto.1).current s current.1
    obtain ⟨one, two, rfl⟩ := List.append_of_mem member
    have run' : Run deviceMachine.system ((before ++ e :: one) ++ x :: two) w := by simpa using run
    have steps := ports_until run' (e := e) (by simp)
    have last := (ports_later run (e := x) (by simp)).1
    have later := Later.trans _ _ _ steps.2 last
    exact stopped (later.past s token (steps.1.bound s token bound) now)
  replaced before e after id s token earlier its split label returned less := by
    subst split
    exact replaced_silent run label returned less
  invalidated before b during e after id s token split begun label returned := by
    subst split
    exact invalidated_silent run begun label returned
  stored e member id s frame answer label := by
    obtain ⟨before, after, rfl⟩ := List.append_of_mem member
    obtain ⟨call, held, view, input, -, knows, may, -⟩ := device_lawful.asked run label
    obtain ⟨request, rest, done⟩ := call
    cases request with
    | port session operation =>
      obtain ⟨rfl, status, here, token, read, own⟩ := may
      have port : PortKnows e.source.shared s held view := knows
      obtain ⟨its, bound⟩ := port.bound
      obtain ⟨-, alive⟩ := port.status status
      refine ⟨⟨(port.here here).2, alive⟩, its, bound.identity, ?_⟩
      rw [own, ← port.token token read, bound.identity]
      rfl
    | activate backend profile epoch android => exact may.elim
    | invalidate => exact may.elim
  fetched b begun e member id s operation frame start label := by
    obtain ⟨before, after, rfl⟩ := List.append_of_mem member
    obtain ⟨call, account, there, here, -, settled⟩ := device_lawful.ended run label
    have same : call.request = .port s operation := request_same run begun start there
    rw [same] at settled
    have port : PortSettled account.held account.view (.latest (some frame)) := settled
    obtain ⟨x, found, mine, current, session, held, stored⟩ :=
      read_latest run.upto.1 there here frame (port.frame frame rfl).1 s operation same
    refine ⟨x, List.mem_append_left _ found, mine, current, ⟨session, held, stored⟩, ?_⟩
    obtain ⟨one, two, rfl⟩ := List.append_of_mem found
    have sound := ports_sound run.upto.1.upto.1
    obtain ⟨token, bound, -⟩ := sound.current s current.1
    refine ⟨token, bound.identity, ?_⟩
    have own := (sound.latest s session frame held stored).2
    obtain ⟨y, again, -, named⟩ := bound.session
    rw [held] at again
    cases Option.some.inj again
    rw [own, named]
    rfl
  tokens := (ports_sound run).distinct
  failed b begun e member id backend profile epoch android failure start label x acted mine := by
    obtain ⟨before, after, rfl⟩ := List.append_of_mem member
    obtain ⟨call, account, there, here, -, settled⟩ := device_lawful.ended run label
    have same : call.request = .activate backend profile epoch android :=
      request_same run begun start there
    rw [same] at settled
    rcases List.mem_append.mp acted with earlier | later
    · exact unpublished run.upto.1 there here settled.2 backend profile epoch android same x
        earlier mine
    · exact absurd mine (returned_silent run label x later)

end Run

/-- A device that always answers well. -/
def steadyDevice : DeviceInput where
  poll := .proceed
  allocated := true
  backend
    | .identityValid => true
    | .deviceId => "emulator-5554"
    | .profileName => "CN"
    | .screenshotIntervalMs => 100
    | .capture => ()
    | .captured => .value ⟨coDetectWidth, coDetectHeight, coDetectRowStride,
        ⟨0, coDetectFrameBytes⟩⟩
    | .click _ => .value ()
    | .foregroundMatches => .value true

def acts (id count : Nat) : List (Choice DeviceRequest DeviceInput) :=
  List.replicate count (.act id steadyDevice)

/-- A click is under way when a second session is activated, and one begins after that. -/
def handover : List (Choice DeviceRequest DeviceInput) :=
  [.begin (.activate (some 0) .cn 1 true)] ++ acts 0 30 ++
  [.return 0, .begin (.port 0 (.click ⟨1, 1⟩))] ++ acts 1 6 ++
  [.begin (.activate (some 1) .cn 2 true)] ++ acts 2 17 ++ acts 1 5 ++ [.return 1] ++ acts 2 13 ++
  [.return 2, .begin (.port 0 (.click ⟨1, 1⟩))] ++ acts 3 4 ++ [.return 3]

theorem device_sessions_handover :
    ∃ es w, deviceMachine.initial.play deviceMachine handover = some (es, w) ∧
      acceptedEpochs es = [1, 2] ∧ DeviceSessions es w := by
  have played : (deviceMachine.initial.play deviceMachine handover).map
      (fun (es, _) => acceptedEpochs es) = some [1, 2] := by decide +kernel
  obtain ⟨⟨es, w⟩, same, epochs⟩ := Option.map_eq_some_iff.mp played
  have run : Run deviceMachine.system es w := by simpa using run_play (.start rfl) same
  exact ⟨es, w, same, epochs, device_sessions run⟩

end Baas.Procedure
