import Mathlib.Init

/-! Reachability and worklist searches for it.
A search keeps a set of seen nodes and a frontier of nodes still to expand; when
the frontier is empty, seen and reachable coincide. -/

variable {α : Type*}

inductive Reach (root : α → Prop) (edge : α → α → Prop) : α → Prop where
  | root {a : α} : root a → Reach root edge a
  | step {a b : α} : Reach root edge a → edge a b → Reach root edge b

/-- A set that contains the roots and is closed under edges contains what is reachable. -/
theorem Reach.within {root : α → Prop} {edge : α → α → Prop} {seen : α → Prop}
    (start : ∀ a, root a → seen a) (closed : ∀ a b, seen a → edge a b → seen b) {a : α}
    (h : Reach root edge a) : seen a := by
  induction h with
  | root isRoot => exact start _ isRoot
  | step _ along ih => exact closed _ _ ih along

theorem Reach.mono {root root' : α → Prop} {edge edge' : α → α → Prop}
    (roots : ∀ a, root a → root' a)
    (edges : ∀ a b, Reach root edge a → edge a b → edge' a b) {a : α}
    (h : Reach root edge a) : Reach root' edge' a := by
  induction h with
  | root isRoot => exact .root (roots _ isRoot)
  | step prior along ih => exact .step ih (edges _ _ prior along)

/-- What a worklist search knows before and after every expansion. -/
structure Frontier (root : α → Prop) (edge : α → α → Prop) (seen pending : α → Prop) : Prop where
  start : ∀ a, root a → seen a
  reached : ∀ a, seen a → Reach root edge a
  expanded : ∀ a b, seen a → ¬pending a → edge a b → seen b

theorem Frontier.complete {root : α → Prop} {edge : α → α → Prop} {seen pending : α → Prop}
    (frontier : Frontier root edge seen pending) (empty : ∀ a, ¬pending a) (a : α) :
    seen a ↔ Reach root edge a :=
  ⟨frontier.reached a,
    Reach.within frontier.start (fun a b h => frontier.expanded a b h (empty a))⟩

/-- Expanding one node: everything new is one of its successors and pending, and all
its successors are seen. -/
theorem Frontier.expand {root : α → Prop} {edge : α → α → Prop}
    {seen pending seen' pending' : α → Prop} {node : α}
    (frontier : Frontier root edge seen pending) (member : seen node)
    (grows : ∀ a, seen a → seen' a)
    (fresh : ∀ a, seen' a → seen a ∨ edge node a ∧ pending' a)
    (keeps : ∀ a, pending a → a ≠ node → pending' a)
    (covers : ∀ a, edge node a → seen' a) :
    Frontier root edge seen' pending' where
  start a h := grows a (frontier.start a h)
  reached a h := by
    rcases fresh a h with old | ⟨along, _⟩
    · exact frontier.reached a old
    · exact .step (frontier.reached node member) along
  expanded a b h done along := by
    rcases fresh a h with old | ⟨_, waiting⟩
    · by_cases same : a = node
      · subst same
        exact covers b along
      · have idle : ¬pending a := fun waiting => done (keeps a waiting same)
        exact grows b (frontier.expanded a b old idle along)
    · exact absurd waiting done
