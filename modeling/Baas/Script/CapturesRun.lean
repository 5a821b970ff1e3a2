import Baas.Script.Names

/-! The semantic analyzer records the captures that the names of a program call for. -/
namespace Baas.Semantics

open Baas.Script (Bytes SourceSpan)
open Baas.Ast (Expression MapEntry Parameter CallArgument Block Statement)
open Ancestry

/-- No limit has been met. -/
def Engine.Unlimited (s : Engine) : Prop :=
  s.nodeLimitReported = false ∧ s.depthLimitReported = false

/-- A limit that has been met is among the diagnostics. -/
def Engine.Honest (s : Engine) : Prop :=
  ¬s.Unlimited → ∃ d ∈ s.result.diagnostics, d.code = "SEM006" ∨ d.code = "SEM007"

/-- The engine stands where the names stand, and has recorded what they call for. -/
structure Sim (s : Engine) (n : Names) : Prop where
  scopes : s.scopes = n.scopes
  current : s.currentFunction = n.current
  owners : s.result.bindings.map BindingInfo.ownerFunction = n.owners
  parents : s.result.functions.map FunctionInfo.parent = n.parents
  recorded : ∀ f info, s.result.functions[f]? = some info →
    info.id = f ∧ info.captures.Nodup ∧ ∀ b, b ∈ info.captures ↔ n.Captured f b
  sane : n.Sane

/-- From one pair of states to another by reading a part of the program. -/
structure Follows (s : Engine) (n : Names) (s' : Engine) (n' : Names) : Prop where
  honest : s.Honest → s'.Honest
  rises : s'.Unlimited → s.Unlimited
  grows : n.Grows n'
  sim : Sim s n → s'.Unlimited → Sim s' n'
  -- a limit leaves what the part that has been read calls for
  anyway : ∀ m, Sim s m → ∃ k, m.Grows k ∧ Sim s' k

section names

variable {n m k : Names}

theorem Names.Grows.refl (n : Names) : n.Grows n :=
  ⟨rfl, rfl, List.prefix_refl _, List.prefix_refl _⟩

theorem Names.Grows.trans (first : n.Grows m) (second : m.Grows k) : n.Grows k :=
  ⟨second.outer.trans first.outer, second.current.trans first.current,
    first.owners.trans second.owners, first.parents.trans second.parents⟩

theorem find_look (name : Bytes) (scopes : List (List (Bytes × BindingId))) (distance : Nat) :
    (findFrom name scopes distance).map Prod.fst =
      scopes.findSome? fun scope => scope.lookup name := by
  induction scopes generalizing distance with
  | nil => rfl
  | cons scope scopes ih =>
    rw [findFrom, List.findSome?_cons]
    cases scope.lookup name with
    | some id => rfl
    | none => exact ih (distance + 1)

/-- A binding that a name finds is one of the visible ones. -/
theorem look_visible {name : Bytes} {id : BindingId} (found : n.look name = some id) :
    ∃ scope ∈ n.scopes, (name, id) ∈ scope := by
  obtain ⟨scope, within, there⟩ := List.exists_of_findSome?_eq_some found
  refine ⟨scope, within, ?_⟩
  rw [List.lookup_eq_some_iff] at there
  obtain ⟨front, back, whole, -⟩ := there
  rw [whole]
  exact List.mem_append_right front List.mem_cons_self

/-- What is known keeps its owner. -/
theorem owner_kept {b : BindingId} (grown : n.owners <+: m.owners) (known : b < n.owners.length) :
    m.owners[b]? = n.owners[b]? := by
  obtain ⟨more, whole⟩ := grown
  rw [← whole, List.getElem?_append_left known]

/-- What is known keeps its place in the forest. -/
theorem below_kept {u f : FunctionId} (ordered : Ordered n.parents)
    (grown : n.parents <+: m.parents) (known : u < n.parents.length) :
    Below m.parents u f ↔ Below n.parents u f := by
  obtain ⟨more, whole⟩ := grown
  rw [← whole]
  exact below_append ordered known more

/-- Without new uses nothing new is captured. -/
theorem captured_kept (sane : n.Sane) (grows : n.owners <+: m.owners)
    (nested : n.parents <+: m.parents) (uses : m.uses = n.uses) (f : FunctionId) (b : BindingId) :
    m.Captured f b ↔ n.Captured f b := by
  constructor
  · rintro ⟨u, o, used, owned, below, above, other⟩
    rw [uses] at used
    have known := sane.used _ _ used
    rw [owner_kept grows known.1] at owned
    rw [below_kept sane.ordered nested (known.2 u rfl)] at below
    have inner : f < n.parents.length := Nat.lt_of_le_of_lt (below.le sane.ordered) (known.2 u rfl)
    rw [below_kept sane.ordered nested inner] at above
    exact ⟨u, o, used, owned, below, above, other⟩
  · rintro ⟨u, o, used, owned, below, above, other⟩
    have known := sane.used _ _ used
    have inner : f < n.parents.length := Nat.lt_of_le_of_lt (below.le sane.ordered) (known.2 u rfl)
    refine ⟨u, o, uses ▸ used, ?_, ?_, ?_, other⟩
    · rwa [owner_kept grows known.1]
    · rwa [below_kept sane.ordered nested (known.2 u rfl)]
    · rwa [below_kept sane.ordered nested inner]

/-- Back in the outer scopes, with what the inner ones have added. -/
theorem Names.Sane.back (sane : n.Sane) (inner : m.Sane) (grown : n.owners <+: m.owners)
    (nested : n.parents <+: m.parents) :
    Names.Sane { m with scopes := n.scopes, current := n.current } := by
  refine ⟨inner.ordered, ?_, ?_, inner.used⟩
  · intro u here
    exact Nat.lt_of_lt_of_le (sane.current u here) nested.length_le
  · intro scope within name b there
    obtain ⟨owner, owned, around⟩ := sane.visible scope within name b there
    have known : b < n.owners.length := (List.getElem?_eq_some_iff.mp owned).1
    refine ⟨owner, by rw [← owned]; exact owner_kept grown known, ?_⟩
    intro o same
    obtain ⟨u, here, below⟩ := around o same
    exact ⟨u, here, (below_kept sane.ordered nested (sane.current u here)).mpr below⟩

theorem Names.Sane.inScope (sane : n.Sane) : Names.Sane { n with scopes := [] :: n.scopes } := by
  refine ⟨sane.ordered, sane.current, ?_, sane.used⟩
  intro scope within name b there
  obtain rfl | outer := List.mem_cons.mp within
  · cases there
  · exact sane.visible scope outer name b there

/-- The names at the head of a function's parameters. -/
def Names.opened (n : Names) : Names :=
  { n with
    scopes := [] :: n.scopes
    current := some n.parents.length
    parents := n.parents ++ [n.current] }

theorem Names.Sane.opened (sane : n.Sane) : n.opened.Sane := by
  have ordered : Ordered n.opened.parents := ordered_append sane.ordered sane.current
  have nested : n.parents <+: n.opened.parents := List.prefix_append _ _
  have parent : n.opened.parents[n.parents.length]? = some n.current := by
    rw [Names.opened, List.getElem?_concat_length]
  refine ⟨ordered, ?_, ?_, ?_⟩
  · rintro u ⟨⟩
    rw [Names.opened, List.length_append, List.length_singleton]
    exact Nat.lt_succ_self _
  · intro scope within name b there
    obtain rfl | outer := List.mem_cons.mp within
    · cases there
    · obtain ⟨owner, owned, around⟩ := sane.visible scope outer name b there
      refine ⟨owner, owned, ?_⟩
      intro o same
      obtain ⟨u, here, below⟩ := around o same
      rw [here] at parent
      exact ⟨_, rfl, .up parent
        ((below_kept sane.ordered nested (sane.current u here)).mpr below)⟩
  · intro user b used
    obtain ⟨known, inside⟩ := sane.used user b used
    exact ⟨known, fun u same => Nat.lt_of_lt_of_le (inside u same) nested.length_le⟩

theorem Names.grows_inScope {inside : Names → Names}
    (grows : Names.Grows { n with scopes := [] :: n.scopes }
      (inside { n with scopes := [] :: n.scopes })) : n.Grows (n.inScope inside) :=
  ⟨rfl, grows.current, grows.owners, grows.parents⟩

theorem Names.grows_inFunction {inside : Names → Names}
    (grows : n.opened.Grows (inside n.opened)) : n.Grows (n.inFunction inside) :=
  ⟨rfl, rfl, grows.owners, (List.prefix_append _ _).trans grows.parents⟩

theorem Names.grows_bind (n : Names) (name : Bytes) : n.Grows (n.bind name) := by
  rw [Names.bind]
  split
  · exact .refl n
  · exact ⟨rfl, rfl, List.prefix_append _ _, List.prefix_refl _⟩

theorem Names.grows_use (n : Names) (name : Bytes) : n.Grows (n.use name) := by
  rw [Names.use]
  split
  · exact .refl n
  · exact ⟨rfl, rfl, List.prefix_refl _, List.prefix_refl _⟩

theorem Names.Sane.bind (sane : n.Sane) (name : Bytes) : (n.bind name).Sane := by
  rw [Names.bind]
  split
  · exact sane
  refine ⟨sane.ordered, sane.current, ?_, ?_⟩
  · have older : ∀ b, b < n.owners.length → (n.owners ++ [n.current])[b]? = n.owners[b]? :=
      fun b known => List.getElem?_append_left known
    -- what was visible is so still
    have still : ∀ scope ∈ n.scopes, ∀ other b, (other, b) ∈ scope →
        ∃ owner, (n.owners ++ [n.current])[b]? = some owner ∧
          ∀ o, owner = some o → ∃ u, n.current = some u ∧ Below n.parents u o := by
      intro scope within other b there
      obtain ⟨owner, owned, around⟩ := sane.visible scope within other b there
      exact ⟨owner, (older b (List.getElem?_eq_some_iff.mp owned).1).trans owned, around⟩
    intro scope within other b there
    obtain rfl | outer := List.mem_cons.mp within
    · obtain new | old := List.mem_cons.mp there
      · cases new
        exact ⟨n.current, List.getElem?_concat_length, fun o here => ⟨o, here, .self o⟩⟩
      · cases places : n.scopes with
        | nil => simp [places] at old
        | cons first rest =>
          rw [places] at old
          exact still first (by rw [places]; exact List.mem_cons_self) other b old
    · exact still scope (List.mem_of_mem_tail outer) other b there
  · intro user b used
    obtain ⟨known, inside⟩ := sane.used user b used
    refine ⟨?_, inside⟩
    rw [List.length_append]
    exact Nat.lt_add_right _ known

/-- A binding that a name finds is known, and its owner is around the one who reads. -/
theorem Names.Sane.found (sane : n.Sane) {name : Bytes} {id : BindingId}
    (found : n.look name = some id) : ∃ owner, n.owners[id]? = some owner ∧
      ∀ o, owner = some o → ∃ u, n.current = some u ∧ Below n.parents u o := by
  obtain ⟨scope, within, there⟩ := look_visible found
  exact sane.visible scope within name id there

theorem Names.Sane.use (sane : n.Sane) (name : Bytes) : (n.use name).Sane := by
  rw [Names.use]
  split
  · exact sane
  · rename_i id found
    refine ⟨sane.ordered, sane.current, sane.visible, ?_⟩
    intro user b used
    obtain old | new := List.mem_append.mp used
    · exact sane.used user b old
    · cases List.mem_singleton.mp new
      obtain ⟨owner, owned, -⟩ := sane.found found
      exact ⟨(List.getElem?_eq_some_iff.mp owned).1, sane.current⟩

end names

section captures

variable {b : BindingId} {o u f : FunctionId} {fuel : Nat} {functions : List FunctionInfo}

/-- Another list of captures leaves the parents alone. -/
theorem parents_set {function : FunctionInfo} (there : functions[f]? = some function)
    (captures : List BindingId) :
    (functions.set f { function with captures }).map FunctionInfo.parent =
      functions.map FunctionInfo.parent := by
  obtain ⟨known, value⟩ := List.getElem?_eq_some_iff.mp there
  rw [List.map_set, ← value]
  exact (congrArg _ (List.getElem_map FunctionInfo.parent).symm).trans
    (List.set_getElem_self (by rwa [List.length_map]))

theorem captureFrom_parents (b : BindingId) (owner : Option FunctionId) (fuel : Nat)
    (start : Option FunctionId) (functions : List FunctionInfo) :
    (captureFrom b owner fuel start functions).map FunctionInfo.parent =
      functions.map FunctionInfo.parent := by
  induction fuel generalizing start functions with
  | zero => rfl
  | succ fuel ih =>
    cases start with
    | none => rfl
    | some u =>
      rw [captureFrom]
      split
      · rfl
      cases there : functions[u]? with
      | none => rfl
      | some function => exact (ih _ _).trans (parents_set there _)

/-- A list of captures with the binding among them. -/
theorem mem_listed (captures : List BindingId) (b c : BindingId) :
    c ∈ (if b ∈ captures then captures else captures ++ [b]) ↔ c ∈ captures ∨ c = b := by
  split
  · rename_i there
    exact ⟨.inl, fun given => given.elim id fun same => same ▸ there⟩
  · rw [List.mem_append, List.mem_singleton]

theorem nodup_listed {captures : List BindingId} (once : captures.Nodup) (b : BindingId) :
    (if b ∈ captures then captures else captures ++ [b]).Nodup := by
  split
  · exact once
  · rename_i missing
    exact List.nodup_append.mpr ⟨once, List.nodup_singleton b, fun c old d new same =>
      missing (List.mem_singleton.mp new ▸ same ▸ old)⟩

/-- The way from the user to the owner leaves the binding with every function in front of the
owner, and with no other. The fuel is enough as a parent has a smaller number. -/
theorem captureFrom_lists (ordered : Ordered (functions.map FunctionInfo.parent))
    (below : Below (functions.map FunctionInfo.parent) u o) (enough : u < fuel)
    {info : FunctionInfo}
    (recorded : (captureFrom b (some o) fuel (some u) functions)[f]? = some info) :
    ∃ old, functions[f]? = some old ∧ info.id = old.id ∧
      (old.captures.Nodup → info.captures.Nodup) ∧
      ∀ c, c ∈ info.captures ↔ c ∈ old.captures ∨ c = b ∧
        Below (functions.map FunctionInfo.parent) u f ∧
        Below (functions.map FunctionInfo.parent) f o ∧ f ≠ o := by
  induction fuel generalizing u functions with
  | zero => exact absurd enough (Nat.not_lt_zero u)
  | succ fuel ih =>
    rw [captureFrom] at recorded
    obtain rfl | home := Decidable.em (u = o)
    · rw [if_pos rfl] at recorded
      refine ⟨info, recorded, rfl, id, fun c => ⟨.inl, ?_⟩⟩
      rintro (there | ⟨-, inside, around, other⟩)
      · exact there
      · exact absurd (around.antisymm ordered inside) other
    · obtain ⟨p, parent, rest⟩ := below.parent home
      have step := fun f => below_parent (f := f) ordered parent
      have earlier : p < fuel := Nat.lt_of_lt_of_le (ordered _ _ parent) (Nat.le_of_lt_succ enough)
      rw [if_neg (fun same => home (Option.some.inj same))] at recorded
      rw [List.getElem?_map, Option.map_eq_some_iff] at parent
      obtain ⟨function, there, upward⟩ := parent
      rw [there] at recorded
      dsimp only at recorded
      have same := parents_set there (if b ∈ function.captures then function.captures
        else function.captures ++ [b])
      rw [upward] at recorded same
      obtain ⟨listed, found, named, once, members⟩ :=
        ih (by rwa [same]) (by rwa [same]) earlier recorded
      rw [same] at members
      obtain rfl | apart := Decidable.em (f = u)
      · rw [List.getElem?_set_self (List.getElem?_eq_some_iff.mp there).1] at found
        cases found
        refine ⟨function, there, named, fun fresh => once (nodup_listed fresh b), ?_⟩
        intro c
        rw [members, mem_listed]
        constructor
        · rintro ((old | same) | ⟨-, inside, -⟩)
          · exact .inl old
          · exact .inr ⟨same, .self f, below, home⟩
          · exact absurd rfl ((step f).mpr inside).2
        · rintro (old | ⟨same, -⟩)
          · exact .inl (.inl old)
          · exact .inl (.inr same)
      · rw [List.getElem?_set_ne (Ne.symm apart)] at found
        refine ⟨listed, found, named, once, ?_⟩
        intro c
        rw [members, ← step f]
        constructor
        · rintro (old | ⟨same, ⟨inside, -⟩, around⟩)
          · exact .inl old
          · exact .inr ⟨same, inside, around⟩
        · rintro (old | ⟨same, inside, around⟩)
          · exact .inl old
          · exact .inr ⟨same, ⟨inside, Ne.symm apart⟩, around⟩

end captures

section steps

variable {s s' s'' : Engine} {n n' n'' : Names}

theorem Follows.refl (s : Engine) (n : Names) : Follows s n s n :=
  ⟨id, id, .refl n, fun sim _ => sim, fun m sim => ⟨m, .refl m, sim⟩⟩

theorem Follows.trans (first : Follows s n s' n') (second : Follows s' n' s'' n'') :
    Follows s n s'' n'' :=
  ⟨fun honest => second.honest (first.honest honest),
    fun still => first.rises (second.rises still),
    first.grows.trans second.grows,
    fun sim still => second.sim (first.sim sim (second.rises still)) still, fun m sim => by
      obtain ⟨k, further, there⟩ := first.anyway m sim
      obtain ⟨l, on, here⟩ := second.anyway k there
      exact ⟨l, further.trans on, here⟩⟩

/-- A step that meets no limit and forgets no diagnostic. -/
structure Calm (s s' : Engine) : Prop where
  nodes : s'.nodeLimitReported = s.nodeLimitReported
  depth : s'.depthLimitReported = s.depthLimitReported
  diagnostics : s.result.diagnostics ⊆ s'.result.diagnostics

/-- The same state for the names. -/
structure Same (s s' : Engine) : Prop where
  scopes : s'.scopes = s.scopes
  current : s'.currentFunction = s.currentFunction
  owners : s'.result.bindings.map BindingInfo.ownerFunction =
    s.result.bindings.map BindingInfo.ownerFunction
  functions : s'.result.functions = s.result.functions

/-- A step of which the names know nothing. -/
structure Quiet (s s' : Engine) : Prop extends Calm s s', Same s s'

theorem Calm.trans (first : Calm s s') (second : Calm s' s'') : Calm s s'' :=
  ⟨second.nodes.trans first.nodes, second.depth.trans first.depth,
    List.Subset.trans first.diagnostics second.diagnostics⟩

theorem Calm.unlimited (calm : Calm s s') : s'.Unlimited ↔ s.Unlimited := by
  rw [Engine.Unlimited, Engine.Unlimited, calm.nodes, calm.depth]

theorem Calm.honest (calm : Calm s s') (honest : s.Honest) : s'.Honest := by
  intro limited
  obtain ⟨d, there, code⟩ := honest fun fine => limited (calm.unlimited.mpr fine)
  exact ⟨d, calm.diagnostics there, code⟩

theorem Calm.follows (calm : Calm s s') (step : Names → Names)
    (grows : ∀ m : Names, m.Grows (step m)) (sim : ∀ m, Sim s m → Sim s' (step m)) (n : Names) :
    Follows s n s' (step n) :=
  ⟨calm.honest, calm.unlimited.mp, grows n, fun given _ => sim n given,
    fun m given => ⟨step m, grows m, sim m given⟩⟩

theorem Same.sim (same : Same s s') (sim : Sim s n) : Sim s' n :=
  ⟨same.scopes.trans sim.scopes, same.current.trans sim.current, same.owners.trans sim.owners,
    same.functions ▸ sim.parents, same.functions ▸ sim.recorded, sim.sane⟩

theorem Quiet.follows (quiet : Quiet s s') (n : Names) : Follows s n s' n :=
  quiet.toCalm.follows id Names.Grows.refl (fun _ sim => quiet.toSame.sim sim) n

theorem Quiet.refl (s : Engine) : Quiet s s :=
  ⟨⟨rfl, rfl, List.Subset.refl _⟩, ⟨rfl, rfl, rfl, rfl⟩⟩

theorem diagnose_quiet (s : Engine) (code message : String) (span : SourceSpan) :
    Quiet s (s.diagnose code message span) :=
  ⟨⟨rfl, rfl, List.subset_append_left _ _⟩, ⟨rfl, rfl, rfl, rfl⟩⟩

theorem rejectCleanupControl_quiet (s : Engine) (operation : String) (span : SourceSpan) :
    Quiet s (s.rejectCleanupControl operation span) := by
  rw [Engine.rejectCleanupControl]
  split
  · exact .refl s
  · exact diagnose_quiet s _ _ span

/-- A change of a binding that leaves its owner alone. -/
theorem owners_modify (bindings : List BindingInfo) (id : BindingId)
    {change : BindingInfo → BindingInfo}
    (same : ∀ info, (change info).ownerFunction = info.ownerFunction) :
    (bindings.modify id change).map BindingInfo.ownerFunction =
      bindings.map BindingInfo.ownerFunction := by
  apply List.ext_getElem?
  intro b
  rw [List.getElem?_map, List.getElem?_map, List.getElem?_modify]
  cases bindings[b]? with
  | none => rfl
  | some info =>
    split
    · exact congrArg Option.some (same info)
    · rfl

theorem setInitialized_quiet (s : Engine) (id : Option BindingId) :
    Quiet s (s.setInitialized id) := by
  cases id with
  | none => exact .refl s
  | some id =>
    refine ⟨⟨rfl, rfl, List.Subset.refl _⟩, ⟨rfl, rfl, ?_, rfl⟩⟩
    exact owners_modify s.result.bindings id fun _ => rfl

theorem addImport_quiet (s : Engine) (span : SourceSpan) : Quiet s (s.addImport span) :=
  ⟨⟨rfl, rfl, List.Subset.refl _⟩, ⟨rfl, rfl, rfl, rfl⟩⟩

theorem openCleanup_quiet (s : Engine) : Quiet s s.openCleanup :=
  ⟨⟨rfl, rfl, List.Subset.refl _⟩, ⟨rfl, rfl, rfl, rfl⟩⟩

theorem closeCleanup_quiet (s : Engine) : Quiet s s.closeCleanup :=
  ⟨⟨rfl, rfl, List.Subset.refl _⟩, ⟨rfl, rfl, rfl, rfl⟩⟩

/-- A node is entered, or a limit is met and told of. -/
theorem enter_cases (s : Engine) (span : SourceSpan) (depth : Nat) :
    (∃ t, s.enter span depth = (true, t) ∧ Quiet s t) ∨
    ∃ t, s.enter span depth = (false, t) ∧ ¬t.Unlimited ∧ (s.Honest → t.Honest) ∧
      Same s t := by
  rw [Engine.enter]
  split
  · right
    split
    · rename_i told
      exact ⟨s, rfl, fun fine => Bool.noConfusion (fine.1.symm.trans told), id,
        ⟨rfl, rfl, rfl, rfl⟩⟩
    · refine ⟨_, rfl, fun fine => Bool.noConfusion fine.1, fun _ _ => ?_, ⟨rfl, rfl, rfl, rfl⟩⟩
      exact ⟨_, List.mem_append_right _ (List.mem_singleton_self _), .inl rfl⟩
  · dsimp only
    split
    · right
      split
      · rename_i told
        exact ⟨_, rfl, fun fine => Bool.noConfusion (fine.2.symm.trans told),
          fun honest => honest, ⟨rfl, rfl, rfl, rfl⟩⟩
      · refine ⟨_, rfl, fun fine => Bool.noConfusion fine.2, fun _ _ => ?_, ⟨rfl, rfl, rfl, rfl⟩⟩
        exact ⟨_, List.mem_append_right _ (List.mem_singleton_self _), .inr rfl⟩
    · left
      exact ⟨_, rfl, ⟨rfl, rfl, List.Subset.refl _⟩, ⟨rfl, rfl, rfl, rfl⟩⟩

theorem entering_follows {span : SourceSpan} {depth : Nat} {visit : Engine → Engine}
    (inside : ∀ t, Follows t n (visit t) n') : Follows s n (s.entering span depth visit) n' := by
  rw [Engine.entering]
  obtain ⟨t, entered, quiet⟩ | ⟨t, refused, limited, honest, same⟩ := enter_cases s span depth
  · rw [entered]
    exact (quiet.follows n).trans (inside t)
  · rw [refused]
    exact ⟨honest, fun fine => absurd fine limited, (inside t).grows,
      fun _ fine => absurd fine limited, fun m sim => ⟨m, .refl m, same.sim sim⟩⟩

@[simp] theorem Names.use_scopes (n : Names) (name : Bytes) : (n.use name).scopes = n.scopes := by
  rw [Names.use]
  split <;> rfl

@[simp] theorem Names.use_current (n : Names) (name : Bytes) :
    (n.use name).current = n.current := by
  rw [Names.use]
  split <;> rfl

@[simp] theorem Names.use_owners (n : Names) (name : Bytes) : (n.use name).owners = n.owners := by
  rw [Names.use]
  split <;> rfl

@[simp] theorem Names.use_parents (n : Names) (name : Bytes) :
    (n.use name).parents = n.parents := by
  rw [Names.use]
  split <;> rfl

/-- What a reader adds to the captures: the binding, for the functions between him and its owner. -/
theorem Names.captured_use {name : Bytes} {id : BindingId}
    (found : n.look name = some id) (f : FunctionId) (b : BindingId) :
    (n.use name).Captured f b ↔ n.Captured f b ∨ b = id ∧ ∃ u o, n.current = some u ∧
      n.owners[id]? = some (some o) ∧ Below n.parents u f ∧ Below n.parents f o ∧ f ≠ o := by
  rw [Names.use, found]
  constructor
  · rintro ⟨u, o, used, owned, between⟩
    obtain old | new := List.mem_append.mp used
    · exact .inl ⟨u, o, old, owned, between⟩
    · obtain ⟨here, rfl⟩ := Prod.mk.inj (List.mem_singleton.mp new)
      exact .inr ⟨rfl, u, o, here.symm, owned, between⟩
  · rintro (⟨u, o, used, owned, between⟩ | ⟨rfl, u, o, here, owned, between⟩)
    · exact ⟨u, o, List.mem_append_left _ used, owned, between⟩
    · exact ⟨u, o, List.mem_append_right _ (List.mem_singleton.mpr (by rw [here])), owned, between⟩

theorem addCapture_calm (s : Engine) (id : BindingId) : Calm s (s.addCapture id) := by
  rw [Engine.addCapture]
  split
  · exact (Quiet.refl s).toCalm
  · exact ⟨rfl, rfl, List.Subset.refl _⟩

theorem refer_calm (s : Engine) (span : SourceSpan) (access : AccessMode) (id : BindingId)
    (distance : Nat) (owner : Option FunctionId) :
    Calm s (s.refer span access id distance owner) := by
  have recorded : ∀ t : Engine, ∀ references, Calm t { t with result := { t.result with
      references } } := fun t references => ⟨rfl, rfl, List.Subset.refl _⟩
  rw [Engine.refer]
  dsimp only
  split
  · exact (addCapture_calm s id).trans (recorded _ _)
  · exact recorded _ _

theorem resolve_calm (s : Engine) (span : SourceSpan) (name : Bytes) (access : AccessMode) :
    Calm s (s.resolve span name access) := by
  rw [Engine.resolve]
  split
  · exact (diagnose_quiet s _ _ span).toCalm
  · split
    · exact (Quiet.refl s).toCalm
    · dsimp only
      split
      · exact (diagnose_quiet s _ _ span).toCalm.trans (refer_calm ..)
      · exact refer_calm ..

theorem use_local (sim : Sim s n) {name : Bytes} {id : BindingId} (found : n.look name = some id)
    {owner : Option FunctionId} (owned : n.owners[id]? = some owner)
    (home : ∀ u o, n.current = some u → owner = some o → u = o) : Sim s (n.use name) := by
  refine ⟨by rw [sim.scopes, Names.use_scopes], by rw [sim.current, Names.use_current],
    by rw [sim.owners, Names.use_owners], by rw [sim.parents, Names.use_parents], ?_,
    sim.sane.use name⟩
  intro f info there
  obtain ⟨named, once, members⟩ := sim.recorded f info there
  refine ⟨named, once, fun b => ?_⟩
  rw [members, n.captured_use found]
  constructor
  · exact .inl
  · rintro (known | ⟨-, u, o, here, ownedBy, below, above, other⟩)
    · exact known
    · rw [owned] at ownedBy
      cases home u o here (Option.some.inj ownedBy)
      exact absurd (above.antisymm sim.sane.ordered below) other

theorem addCapture_sim (sim : Sim s n) {name : Bytes} {id : BindingId}
    (found : n.look name = some id) {u o : FunctionId} (here : n.current = some u)
    (owned : n.owners[id]? = some (some o)) : Sim (s.addCapture id) (n.use name) := by
  obtain ⟨owner, ownedBy, around⟩ := sim.sane.found found
  rw [owned] at ownedBy
  cases ownedBy
  obtain ⟨user, same, below⟩ := around o rfl
  rw [here] at same
  cases same
  have start : s.currentFunction = some u := sim.current.trans here
  have owner : s.result.bindings[id]?.bind BindingInfo.ownerFunction = some o := by
    have listed := owned
    rw [← sim.owners, List.getElem?_map, Option.map_eq_some_iff] at listed
    obtain ⟨info, there, same⟩ := listed
    rw [there]
    exact same
  rw [Engine.addCapture, start]
  dsimp only
  rw [owner]
  refine ⟨by rw [Names.use_scopes]; exact sim.scopes,
    by rw [Names.use_current]; exact here.symm, ?_, ?_, ?_, sim.sane.use name⟩
  · rw [Names.use_owners, ← sim.owners]
    exact owners_modify s.result.bindings id fun _ => rfl
  · rw [Names.use_parents, ← sim.parents]
    exact captureFrom_parents ..
  · intro f info there
    have forest := sim.parents
    obtain ⟨old, known, named, once, members⟩ := captureFrom_lists
      (by rw [forest]; exact sim.sane.ordered) (by rw [forest]; exact below)
      (Nat.lt_succ_self u) there
    rw [forest] at members
    obtain ⟨number, before, listed⟩ := sim.recorded f old known
    refine ⟨named.trans number, once before, fun b => ?_⟩
    rw [members, listed, n.captured_use found]
    constructor
    · rintro (known | ⟨same, inside, above, other⟩)
      · exact .inl known
      · exact .inr ⟨same, u, o, here, owned, inside, above, other⟩
    · rintro (known | ⟨same, user, owner, current, ownedBy, inside, above, other⟩)
      · exact .inl known
      · rw [here] at current
        rw [owned] at ownedBy
        cases current
        cases ownedBy
        exact .inr ⟨same, inside, above, other⟩

theorem refer_sim (sim : Sim s n) {name : Bytes} {id : BindingId} (found : n.look name = some id)
    {owner : Option FunctionId} (owned : n.owners[id]? = some owner) (span : SourceSpan)
    (access : AccessMode) (distance : Nat) :
    Sim (s.refer span access id distance owner) (n.use name) := by
  have recorded : ∀ t : Engine, ∀ references, Quiet t { t with result := { t.result with
      references } } := fun t references => ⟨⟨rfl, rfl, List.Subset.refl _⟩, ⟨rfl, rfl, rfl, rfl⟩⟩
  rw [Engine.refer]
  dsimp only
  split
  · rename_i reached
    rw [Bool.and_eq_true, Bool.and_eq_true, sim.current, Option.isSome_iff_exists,
      Option.isSome_iff_exists] at reached
    obtain ⟨⟨⟨u, here⟩, o, rfl⟩, -⟩ := reached
    exact (recorded _ _).toSame.sim (addCapture_sim sim found here owned)
  · rename_i within
    refine (recorded _ _).toSame.sim (use_local sim found owned ?_)
    rintro u o here rfl
    rw [sim.current, here] at within
    by_contra apart
    exact within (by simp [apart])

theorem resolve_follows (s : Engine) (n : Names) (span : SourceSpan) (name : Bytes)
    (access : AccessMode) : Follows s n (s.resolve span name access) (n.use name) := by
  refine (resolve_calm s span name access).follows (fun n => n.use name)
    (fun m => m.grows_use name) ?_ n
  intro n sim
  have look : (s.find name).map Prod.fst = n.look name := by
    rw [Names.look, ← sim.scopes]
    exact find_look name s.scopes 0
  rw [Engine.resolve]
  cases search : s.find name with
  | none =>
    rw [search] at look
    rw [Names.use, ← look]
    exact (diagnose_quiet s _ _ span).toSame.sim sim
  | some place =>
    obtain ⟨id, distance⟩ := place
    rw [search] at look
    have found : n.look name = some id := look.symm
    obtain ⟨owner, owned, -⟩ := sim.sane.found found
    have listed := owned
    rw [← sim.owners, List.getElem?_map, Option.map_eq_some_iff] at listed
    obtain ⟨binding, there, rfl⟩ := listed
    dsimp only
    rw [there]
    dsimp only
    split
    · exact refer_sim ((diagnose_quiet s _ _ span).toSame.sim sim) found owned span access distance
    · exact refer_sim sim found owned span access distance

theorem declare_follows (s : Engine) (n : Names) (name : Bytes) (kind : BindingKind)
    (span : SourceSpan) (initialized parameter : Bool) :
    Follows s n (s.declare name kind span initialized parameter).2 (n.bind name) := by
  have calm : Calm s (s.declare name kind span initialized parameter).2 := by
    rw [Engine.declare]
    split
    · dsimp only
      split
      · exact (diagnose_quiet s _ _ span).toCalm
      · exact (diagnose_quiet s _ _ span).toCalm
    · exact ⟨rfl, rfl, List.Subset.refl _⟩
  refine calm.follows (fun n => n.bind name) (fun m => m.grows_bind name) ?_ n
  intro n sim
  rw [Engine.declare, Names.bind, sim.scopes]
  split
  · dsimp only
    split
    · exact (diagnose_quiet s _ _ span).toSame.sim sim
    · exact (diagnose_quiet s _ _ span).toSame.sim sim
  · rename_i fresh
    have number : s.result.bindings.length = n.owners.length := by
      rw [← sim.owners, List.length_map]
    have sane := sim.sane.bind name
    rw [Names.bind, if_neg fresh] at sane
    refine ⟨by rw [number], sim.current, ?_, sim.parents, ?_, sane⟩
    · rw [List.map_append, sim.owners, List.map_singleton, sim.current]
    · intro f info there
      obtain ⟨named, once, members⟩ := sim.recorded f info there
      refine ⟨named, once, fun b => ?_⟩
      rw [members]
      refine Iff.symm (captured_kept sim.sane ?_ ?_ ?_ f b)
      · exact List.prefix_append n.owners [n.current]
      · exact List.prefix_refl n.parents
      · rfl

/-- At the end of a scope the outer ones are back. -/
theorem closeScope_sim {m : Names} (sim : Sim s n)
    (grows : Names.Grows { n with scopes := [] :: n.scopes } m) (after : Sim s' m) :
    Sim s'.closeScope { m with scopes := n.scopes } := by
  refine ⟨?_, after.current, after.owners, after.parents, after.recorded, ?_⟩
  · exact (congrArg List.tail after.scopes).trans grows.outer
  · have sane := sim.sane.back after.sane grows.owners grows.parents
    rwa [← grows.current] at sane

theorem openScope_sim (sim : Sim s n) : Sim s.openScope { n with scopes := [] :: n.scopes } :=
  ⟨congrArg _ sim.scopes, sim.current, sim.owners, sim.parents, sim.recorded, sim.sane.inScope⟩

theorem inScope_follows {visit : Engine → Engine} {inside : Names → Names}
    (within : ∀ t, ∀ m : Names, Follows t m (visit t) (inside m)) :
    Follows s n (visit s.openScope).closeScope (n.inScope inside) := by
  have body := within s.openScope { n with scopes := [] :: n.scopes }
  refine ⟨body.honest, body.rises, Names.grows_inScope body.grows, ?_, ?_⟩
  · intro sim still
    exact closeScope_sim sim body.grows (body.sim (openScope_sim sim) still)
  · intro m sim
    obtain ⟨k, grows, after⟩ := body.anyway _ (openScope_sim sim)
    exact ⟨{ k with scopes := m.scopes }, ⟨rfl, grows.current, grows.owners, grows.parents⟩,
      closeScope_sim sim grows after⟩

theorem openFunction_sim (sim : Sim s n) (node : SourceSpan) :
    Sim (s.openFunction node) n.opened := by
  have nested : n.parents <+: n.opened.parents := List.prefix_append _ _
  have number : s.result.functions.length = n.parents.length := by
    rw [← sim.parents, List.length_map]
  refine ⟨congrArg _ sim.scopes, congrArg _ number, sim.owners, ?_, ?_, sim.sane.opened⟩
  · rw [Engine.openFunction, Names.opened, List.map_append, sim.parents, List.map_singleton,
      sim.current]
  · intro f info there
    have captured := captured_kept (m := n.opened) sim.sane (List.prefix_refl _) nested rfl f
    obtain old | new := Nat.lt_or_ge f s.result.functions.length
    · rw [Engine.openFunction, List.getElem?_append_left old] at there
      obtain ⟨named, once, members⟩ := sim.recorded f info there
      exact ⟨named, once, fun b => (members b).trans (captured b).symm⟩
    · rw [Engine.openFunction, List.getElem?_append_right new] at there
      obtain ⟨last, rfl⟩ := List.getElem?_eq_some_iff.mp there
      have here : s.result.functions.length = f :=
        Nat.le_antisymm new (Nat.sub_eq_zero_iff_le.mp (Nat.lt_one_iff.mp last))
      rw [List.getElem_singleton]
      refine ⟨here, List.nodup_nil, fun b => ⟨fun none => (List.not_mem_nil none).elim, ?_⟩⟩
      intro given
      -- nobody has been inside of the new function
      obtain ⟨u, o, used, -, below, -⟩ := (captured b).mp given
      have inner := (sim.sane.used _ _ used).2 u rfl
      have outer : f < n.parents.length := Nat.lt_of_le_of_lt (below.le sim.sane.ordered) inner
      exact absurd (here.symm.trans number) (Nat.ne_of_lt outer)

/-- At the end of a function the reader is back in the one around it. -/
theorem closeFunction_sim {m : Names} (sim : Sim s n) (grows : n.opened.Grows m)
    (after : Sim s' m) :
    Sim (s'.closeFunction s) { m with scopes := n.scopes, current := n.current } := by
  refine ⟨?_, sim.current, after.owners, after.parents, after.recorded, ?_⟩
  · exact (congrArg List.tail after.scopes).trans grows.outer
  · exact sim.sane.back after.sane grows.owners ((List.prefix_append _ _).trans grows.parents)

theorem inFunction_follows {visit : Engine → Engine} {inside : Names → Names}
    (within : ∀ t, ∀ m : Names, Follows t m (visit t) (inside m)) (node : SourceSpan) :
    Follows s n ((visit (s.openFunction node)).closeFunction s) (n.inFunction inside) := by
  have body := within (s.openFunction node) n.opened
  refine ⟨body.honest, body.rises, Names.grows_inFunction body.grows, ?_, ?_⟩
  · intro sim still
    exact closeFunction_sim sim body.grows (body.sim (openFunction_sim sim node) still)
  · intro m sim
    obtain ⟨k, grows, after⟩ := body.anyway _ (openFunction_sim sim node)
    exact ⟨{ k with scopes := m.scopes, current := m.current },
      ⟨rfl, rfl, grows.owners, (List.prefix_append _ _).trans grows.parents⟩,
      closeFunction_sim sim grows after⟩

end steps

mutual

theorem visitExpression_follows : ∀ (expression : Expression) (depth : Nat) (access : AccessMode)
    (s : Engine) (n : Names),
    Follows s n (visitExpression expression depth access s) (nameExpression expression n)
  | .literal span _, depth, _, s, n => by
    rw [visitExpression, nameExpression]
    exact entering_follows fun t => .refl t n
  | .identifier span name, depth, access, s, n => by
    rw [visitExpression, nameExpression]
    exact entering_follows fun t => resolve_follows t n span name access
  | .list span elements, depth, _, s, n => by
    rw [visitExpression, nameExpression]
    exact entering_follows fun t => visitExpressions_follows elements _ t n
  | .map span entries, depth, _, s, n => by
    rw [visitExpression, nameExpression]
    exact entering_follows fun t => visitEntries_follows entries _ t n
  | .function span _ parameters (.mk bodySpan statements), depth, _, s, n => by
    rw [visitExpression, nameExpression]
    exact entering_follows fun t => inFunction_follows (fun t m =>
      (visitParameters_follows parameters _ t m).trans
        (entering_follows fun t => visitStatements_follows statements _ t _)) span
  | .unary span _ operand, depth, _, s, n => by
    rw [visitExpression, nameExpression]
    exact entering_follows fun t => visitExpression_follows operand _ _ t n
  | .binary span _ left right, depth, _, s, n => by
    rw [visitExpression, nameExpression]
    exact entering_follows fun t => (visitExpression_follows left _ _ t n).trans
      (visitExpression_follows right _ _ _ _)
  | .assignment span operation target value, depth, _, s, n => by
    rw [visitExpression.eq_def, nameExpression]
    exact entering_follows fun t => (visitExpression_follows target _ _ t n).trans
      (visitExpression_follows value _ _ _ _)
  | .member span object _, depth, _, s, n => by
    rw [visitExpression, nameExpression]
    exact entering_follows fun t => visitExpression_follows object _ _ t n
  | .index span object position, depth, _, s, n => by
    rw [visitExpression, nameExpression]
    exact entering_follows fun t => (visitExpression_follows object _ _ t n).trans
      (visitExpression_follows position _ _ _ _)
  | .slice span object start stop step, depth, _, s, n => by
    rw [visitExpression, nameExpression]
    exact entering_follows fun t => (visitExpression_follows object _ _ t n).trans
      ((visitOptional_follows start _ _ _).trans
        ((visitOptional_follows stop _ _ _).trans (visitOptional_follows step _ _ _)))
  | .call span callee arguments, depth, _, s, n => by
    rw [visitExpression, nameExpression]
    exact entering_follows fun t => (visitExpression_follows callee _ _ t n).trans
      (visitArguments_follows arguments _ _ _)
  | .await span value, depth, _, s, n => by
    rw [visitExpression, nameExpression]
    exact entering_follows fun t => ((rejectCleanupControl_quiet t _ span).follows n).trans
      (visitExpression_follows value _ _ _ n)

theorem visitExpressions_follows : ∀ (expressions : List Expression) (depth : Nat) (s : Engine)
    (n : Names),
    Follows s n (visitExpressions expressions depth s) (nameExpressions expressions n)
  | [], _, s, n => by
    rw [visitExpressions, nameExpressions]
    exact .refl s n
  | expression :: rest, depth, s, n => by
    rw [visitExpressions, nameExpressions]
    exact (visitExpression_follows expression depth _ s n).trans
      (visitExpressions_follows rest depth _ _)

theorem visitOptional_follows : ∀ (expression : Option Expression) (depth : Nat) (s : Engine)
    (n : Names), Follows s n (visitOptional expression depth s) (nameOptional expression n)
  | none, _, s, n => by
    rw [visitOptional, nameOptional]
    exact .refl s n
  | some expression, depth, s, n => by
    rw [visitOptional, nameOptional]
    exact visitExpression_follows expression depth _ s n

theorem visitEntries_follows : ∀ (entries : List MapEntry) (depth : Nat) (s : Engine) (n : Names),
    Follows s n (visitEntries entries depth s) (nameEntries entries n)
  | [], _, s, n => by
    rw [visitEntries, nameEntries]
    exact .refl s n
  | .mk key value _ :: rest, depth, s, n => by
    rw [visitEntries, nameEntries]
    exact ((visitExpression_follows key depth _ s n).trans
      (visitExpression_follows value depth _ _ _)).trans (visitEntries_follows rest depth _ _)

theorem visitArguments_follows : ∀ (arguments : List CallArgument) (depth : Nat) (s : Engine)
    (n : Names), Follows s n (visitArguments arguments depth s) (nameArguments arguments n)
  | [], _, s, n => by
    rw [visitArguments, nameArguments]
    exact .refl s n
  | .mk _ value _ :: rest, depth, s, n => by
    rw [visitArguments, nameArguments]
    exact (visitExpression_follows value depth _ s n).trans (visitArguments_follows rest depth _ _)

theorem visitParameters_follows : ∀ (parameters : List Parameter) (depth : Nat) (s : Engine)
    (n : Names), Follows s n (visitParameters parameters depth s) (nameParameters parameters n)
  | [], _, s, n => by
    rw [visitParameters, nameParameters]
    exact .refl s n
  | .mk name defaultValue span :: rest, depth, s, n => by
    rw [visitParameters, nameParameters]
    exact (((declare_follows s n name _ span _ _).trans
      (visitOptional_follows defaultValue depth _ _)).trans
        ((setInitialized_quiet _ _).follows _)).trans (visitParameters_follows rest depth _ _)

theorem visitStatement_follows : ∀ (statement : Statement) (depth : Nat) (s : Engine) (n : Names),
    Follows s n (visitStatement statement depth s) (nameStatement statement n)
  | .block (.mk span statements), depth, s, n => by
    rw [visitStatement, nameStatement]
    exact entering_follows fun t =>
      inScope_follows fun t m => visitStatements_follows statements _ t m
  | .letStatement span name initializer, depth, s, n => by
    rw [visitStatement, nameStatement]
    exact entering_follows fun t => ((declare_follows t n name _ span _ _).trans
      (visitExpression_follows initializer _ _ _ _)).trans ((setInitialized_quiet _ _).follows _)
  | .expressionStatement span expression, depth, s, n => by
    rw [visitStatement, nameStatement]
    exact entering_follows fun t => visitExpression_follows expression _ _ t n
  | .ifStatement span condition consequent alternate, depth, s, n => by
    rw [visitStatement, nameStatement]
    exact entering_follows fun t => ((visitExpression_follows condition _ _ t n).trans
      (visitStatement_follows consequent _ _ _)).trans (visitAlternate_follows alternate _ _ _)
  | .whileStatement span condition body, depth, s, n => by
    rw [visitStatement, nameStatement]
    exact entering_follows fun t => (visitExpression_follows condition _ _ t n).trans
      (visitStatement_follows body _ _ _)
  | .forStatement span binding iterable body, depth, s, n => by
    rw [visitStatement, nameStatement]
    exact entering_follows fun t => (visitExpression_follows iterable _ _ t n).trans
      (inScope_follows fun t m => (declare_follows t m binding _ span _ _).trans
        (visitStatement_follows body _ _ _))
  | .functionDeclaration span name _ parameters (.mk bodySpan statements), depth, s, n => by
    rw [visitStatement, nameStatement]
    exact entering_follows fun t => (declare_follows t n name _ span _ _).trans
      (inFunction_follows (fun t m => (visitParameters_follows parameters _ t m).trans
        (entering_follows fun t => visitStatements_follows statements _ t _)) span)
  | .returnStatement span value, depth, s, n => by
    rw [visitStatement, nameStatement]
    exact entering_follows fun t => ((rejectCleanupControl_quiet t _ span).follows n).trans
      (visitOptional_follows value _ _ n)
  | .breakStatement span, depth, s, n => by
    rw [visitStatement, nameStatement]
    exact entering_follows fun t => (rejectCleanupControl_quiet t _ span).follows n
  | .continueStatement span, depth, s, n => by
    rw [visitStatement, nameStatement]
    exact entering_follows fun t => (rejectCleanupControl_quiet t _ span).follows n
  | .importStatement span _ aliasName, depth, s, n => by
    rw [visitStatement, nameStatement]
    exact entering_follows fun t => ((addImport_quiet t span).follows n).trans
      (declare_follows _ n aliasName _ span _ _)
  | .throwStatement span value, depth, s, n => by
    rw [visitStatement, nameStatement]
    exact entering_follows fun t => visitExpression_follows value _ _ t n
  | .tryCatchStatement span (.mk trySpan attempted) binding (.mk catchSpan caught), depth, s, n => by
    rw [visitStatement, nameStatement]
    exact entering_follows fun t => (entering_follows fun t =>
      inScope_follows fun t m => visitStatements_follows attempted _ t m).trans
        (inScope_follows fun t m => (declare_follows t m binding _ catchSpan _ _).trans
          (entering_follows fun t =>
            inScope_follows fun t m => visitStatements_follows caught _ t m))
  | .deferStatement span statement, depth, s, n => by
    rw [visitStatement, nameStatement]
    exact entering_follows fun t => ((((rejectCleanupControl_quiet t _ span).follows n).trans
      ((openCleanup_quiet _).follows n)).trans (visitStatement_follows statement _ _ n)).trans
        ((closeCleanup_quiet _).follows _)

theorem visitAlternate_follows : ∀ (statement : Option Statement) (depth : Nat) (s : Engine)
    (n : Names), Follows s n (visitAlternate statement depth s) (nameAlternate statement n)
  | none, _, s, n => by
    rw [visitAlternate, nameAlternate]
    exact .refl s n
  | some statement, depth, s, n => by
    rw [visitAlternate, nameAlternate]
    exact visitStatement_follows statement depth s n

theorem visitStatements_follows : ∀ (statements : List Statement) (depth : Nat) (s : Engine)
    (n : Names), Follows s n (visitStatements statements depth s) (nameStatements statements n)
  | [], _, s, n => by
    rw [visitStatements, nameStatements]
    exact .refl s n
  | statement :: rest, depth, s, n => by
    rw [visitStatements, nameStatements]
    exact (visitStatement_follows statement depth s n).trans
      (visitStatements_follows rest depth _ _)

end

theorem initial_sim (options : SemanticOptions) : Sim (.initial options) noNames := by
  refine ⟨rfl, rfl, rfl, rfl, ?_, ?_, ?_, ?_, ?_⟩
  · rintro f info ⟨⟩
  · rintro u p ⟨⟩
  · rintro u ⟨⟩
  · intro scope within name b there
    cases List.mem_singleton.mp within
    cases there
  · rintro user b ⟨⟩

/-- Without a diagnostic about a limit the whole program has been read. -/
theorem run_sim (options : SemanticOptions) (program : Ast.Program)
    (whole : ∀ d ∈ (analyzeSemantics options program).diagnostics,
      d.code ≠ "SEM006" ∧ d.code ≠ "SEM007") :
    Sim (run options program) (names program) := by
  have follows := visitStatements_follows program.statements 1 (.initial options) noNames
  refine follows.sim (initial_sim options) ?_
  by_contra limited
  obtain ⟨d, there, code⟩ := follows.honest (fun met => absurd ⟨rfl, rfl⟩ met) limited
  exact code.elim (whole d there).1 (whole d there).2

/-- What a function lists is owned further out, and the functions on the way list it too. -/
theorem Sim.listed {s : Engine} {n : Names} (sim : Sim s n) {f : FunctionId} {info : FunctionInfo}
    (there : s.result.functions[f]? = some info) {b : BindingId} (listed : b ∈ info.captures) :
    ∃ o, n.owners[b]? = some (some o) ∧ Below n.parents f o ∧ f ≠ o ∧
      ∀ g outer, s.result.functions[g]? = some outer → Below n.parents f g → Below n.parents g o →
        g ≠ o → b ∈ outer.captures := by
  obtain ⟨u, o, used, owned, below, above, other⟩ := ((sim.recorded f info there).2.2 b).mp listed
  refine ⟨o, owned, above, other, ?_⟩
  intro g outer found inside around apart
  exact ((sim.recorded g outer found).2.2 b).mpr
    ⟨u, o, used, owned, below.trans inside, around, apart⟩

/-- The captures of every function are, once each, the bindings that are owned by a function around
it and referred to in it or in a function nested in it. Where a limit has been reported, it is the
part of the program that has been read which counts. -/
theorem analyzeSemantics_captures (options : SemanticOptions) (program : Ast.Program) :
    let result := analyzeSemantics options program
    let parents := result.functions.map FunctionInfo.parent
    let owners := result.bindings.map BindingInfo.ownerFunction
    (∀ f info, result.functions[f]? = some info →
      info.id = f ∧ info.captures.Nodup ∧ ∀ b ∈ info.captures, ∃ o, owners[b]? = some (some o) ∧
        Below parents f o ∧ f ≠ o ∧ ∀ g outer, result.functions[g]? = some outer →
          Below parents f g → Below parents g o → g ≠ o → b ∈ outer.captures) ∧
    ((∀ d ∈ result.diagnostics, d.code ≠ "SEM006" ∧ d.code ≠ "SEM007") →
      parents = (names program).parents ∧ owners = (names program).owners ∧
      ∀ f info, result.functions[f]? = some info →
        ∀ b, b ∈ info.captures ↔ (names program).Captured f b) := by
  intro result parents owners
  constructor
  · intro f info there
    have follows := visitStatements_follows program.statements 1 (.initial options) noNames
    obtain ⟨n, -, sim⟩ := follows.anyway noNames (initial_sim options)
    obtain ⟨named, once, -⟩ := sim.recorded f info there
    refine ⟨named, once, fun b listed => ?_⟩
    have outside := sim.listed there listed
    rwa [← sim.parents, ← sim.owners] at outside
  · intro whole
    have sim := run_sim options program whole
    exact ⟨sim.parents, sim.owners, fun f info there => (sim.recorded f info there).2.2⟩

/-- `fn f() { let a = null; fn g() { a; } }`, with the positions left out. -/
def nestedReader : Ast.Program :=
  let here : SourceSpan := ⟨⟨0, 1, 1⟩, ⟨0, 1, 1⟩⟩
  let reader : Statement := .functionDeclaration here [103] false []
    (.mk here [.expressionStatement here (.identifier here [97])])
  ⟨[.functionDeclaration here [102] false []
    (.mk here [.letStatement here [97] (.literal here .null), reader])], here⟩

theorem analyzeSemantics_captures_nested : (names nestedReader).Captured 1 1 :=
  (((analyzeSemantics_captures ⟨8, 256⟩ nestedReader).2 (by decide)).2.2 1 _ rfl 1).mp (by decide)

/-- With one node less the reader is not visited, and nothing is captured. -/
theorem analyzeSemantics_captures_limited : ¬∀ options program f info,
    (analyzeSemantics options program).functions[f]? = some info →
      ∀ b, b ∈ info.captures ↔ (names program).Captured f b := by
  intro every
  have captured : (names nestedReader).Captured 1 1 :=
    ⟨1, 0, by decide, by decide, .self 1, .up (p := 0) (by decide) (.self 0), by decide⟩
  have listed := (every ⟨7, 256⟩ nestedReader 1 _ rfl 1).mpr captured
  revert listed
  decide

end Baas.Semantics
