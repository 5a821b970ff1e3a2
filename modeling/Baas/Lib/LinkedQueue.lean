import Mathlib.Data.List.Nodup
import Mathlib.Logic.Function.Basic

/-! Singly linked queues: what a head pointer and `next` pointers spell. -/
namespace LinkedQueue

variable {ι : Type*}

def Chain (next : ι → Option ι) : Option ι → List ι → Prop
  | head, [] => head = none
  | head, j :: rest => head = some j ∧ Chain next (next j) rest

/-- A chain reads only the pointers of its own cells. -/
theorem Chain.congr {next next' : ι → Option ι} {q : List ι} {head : Option ι}
    (chain : Chain next head q) (same : ∀ j ∈ q, next' j = next j) : Chain next' head q := by
  induction q generalizing head with
  | nil => exact chain
  | cons j rest ih =>
    refine ⟨chain.1, ?_⟩
    rw [same j (by simp)]
    exact ih chain.2 (fun k member => same k (by simp [member]))

theorem Chain.head {next : ι → Option ι} {q : List ι} {head : Option ι}
    (chain : Chain next head q) : head = q.head? := by
  cases q with
  | nil => exact chain
  | cons j rest => exact chain.1

variable [DecidableEq ι]

/-- Linking a new cell behind the last one. -/
theorem Chain.append {next : ι → Option ι} {q : List ι} {head : Option ι} {last j : ι}
    (chain : Chain next head q) (tail : q.getLast? = some last) (distinct : q.Nodup)
    (fresh : j ∉ q) (loose : next j = none) :
    Chain (Function.update next last (some j)) head (q ++ [j]) := by
  induction q generalizing head with
  | nil => simp at tail
  | cons k rest ih =>
    refine ⟨chain.1, ?_⟩
    cases rest with
    | nil =>
      simp only [List.getLast?_singleton, Option.some.injEq] at tail
      subst tail
      have apart : j ≠ k := by simpa using fresh
      simp [Chain, apart, loose]
    | cons l rest =>
      have last' : (l :: rest).getLast? = some last := by simpa using tail
      have apart : k ≠ last := by
        rintro rfl
        exact (List.nodup_cons.mp distinct).1 (List.mem_of_getLast? last')
      rw [Function.update_of_ne apart]
      exact ih chain.2 last' (List.nodup_cons.mp distinct).2 (fun h => fresh (by simp [h]))

end LinkedQueue
