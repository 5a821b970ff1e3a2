import Mathlib.Data.List.Basic

/-! The syntax of UTF-8, octet by octet, and what preserves it. -/
namespace Utf8

def Tail (b : UInt8) : Prop := 0x80 ≤ b ∧ b ≤ 0xBF

/-- The encoding of one character. -/
inductive Character : List UInt8 → Prop
  | one {a : UInt8} : a ≤ 0x7F → Character [a]
  | two {a b : UInt8} : 0xC2 ≤ a → a ≤ 0xDF → Tail b → Character [a, b]
  | afterE0 {b c : UInt8} : 0xA0 ≤ b → b ≤ 0xBF → Tail c → Character [0xE0, b, c]
  | three {a b c : UInt8} : 0xE1 ≤ a → a ≤ 0xEC → Tail b → Tail c → Character [a, b, c]
  | afterED {b c : UInt8} : 0x80 ≤ b → b ≤ 0x9F → Tail c → Character [0xED, b, c]
  | threeHigh {a b c : UInt8} : 0xEE ≤ a → a ≤ 0xEF → Tail b → Tail c → Character [a, b, c]
  | afterF0 {b c d : UInt8} : 0x90 ≤ b → b ≤ 0xBF → Tail c → Tail d → Character [0xF0, b, c, d]
  | four {a b c d : UInt8} : 0xF1 ≤ a → a ≤ 0xF3 → Tail b → Tail c → Tail d →
      Character [a, b, c, d]
  | afterF4 {b c d : UInt8} : 0x80 ≤ b → b ≤ 0x8F → Tail c → Tail d → Character [0xF4, b, c, d]

inductive Octets : List UInt8 → Prop
  | nil : Octets []
  | cons {c rest : List UInt8} : Character c → Octets rest → Octets (c ++ rest)

variable {a b : List UInt8}

theorem Octets.append (first : Octets a) (second : Octets b) : Octets (a ++ b) := by
  induction first with
  | nil => exact second
  | cons character _ ih =>
    rw [List.append_assoc]
    exact .cons character ih

theorem Octets.of_ascii (ascii : ∀ c ∈ a, c ≤ 0x7F) : Octets a := by
  induction a with
  | nil => exact .nil
  | cons c rest ih =>
    have head : Character [c] := .one (ascii c List.mem_cons_self)
    exact .cons head (ih (fun other member => ascii other (List.mem_cons_of_mem c member)))

/-- A character is one low octet, or only high ones. -/
theorem Character.low_or_high (character : Character a) :
    (∃ c, a = [c] ∧ c ≤ 0x7F) ∨ ∀ c ∈ a, 0x80 ≤ c := by
  have above {low c : UInt8} (least : 0x80 ≤ low) (more : low ≤ c) : 0x80 ≤ c :=
    UInt8.le_trans least more
  cases character with
  | one low => exact .inl ⟨_, rfl, low⟩
  | two la _ tb =>
    refine .inr (fun x member => ?_)
    simp only [List.mem_cons, List.not_mem_nil, or_false] at member
    rcases member with rfl | rfl
    · exact above (by decide) la
    · exact tb.1
  | afterE0 lb _ tc | afterED lb _ tc =>
    refine .inr (fun x member => ?_)
    simp only [List.mem_cons, List.not_mem_nil, or_false] at member
    rcases member with rfl | rfl | rfl
    · decide
    · exact above (by decide) lb
    · exact tc.1
  | three la _ tb tc | threeHigh la _ tb tc =>
    refine .inr (fun x member => ?_)
    simp only [List.mem_cons, List.not_mem_nil, or_false] at member
    rcases member with rfl | rfl | rfl
    · exact above (by decide) la
    · exact tb.1
    · exact tc.1
  | afterF0 lb _ tc td | afterF4 lb _ tc td =>
    refine .inr (fun x member => ?_)
    simp only [List.mem_cons, List.not_mem_nil, or_false] at member
    rcases member with rfl | rfl | rfl | rfl
    · decide
    · exact above (by decide) lb
    · exact tc.1
    · exact td.1
  | four la _ tb tc td =>
    refine .inr (fun x member => ?_)
    simp only [List.mem_cons, List.not_mem_nil, or_false] at member
    rcases member with rfl | rfl | rfl | rfl
    · exact above (by decide) la
    · exact tb.1
    · exact tc.1
    · exact td.1

/-- Replacing low octets by low octets and nothing else. -/
theorem Octets.flatMap {f : UInt8 → List UInt8} (low : ∀ c ≤ 0x7F, ∀ d ∈ f c, d ≤ 0x7F)
    (high : ∀ c, 0x80 ≤ c → f c = [c]) (octets : Octets a) : Octets (a.flatMap f) := by
  induction octets with
  | nil => exact .nil
  | @cons c rest character _ ih =>
    rw [List.flatMap_append]
    refine Octets.append ?_ ih
    rcases character.low_or_high with ⟨x, rfl, below⟩ | above
    · rw [List.flatMap_singleton]
      exact .of_ascii (low x below)
    · have same : c.flatMap f = c := by
        have each (l : List UInt8) (all : ∀ x ∈ l, 0x80 ≤ x) : l.flatMap f = l := by
          induction l with
          | nil => rfl
          | cons x more ih =>
            rw [List.flatMap_cons, high x (all x List.mem_cons_self),
              ih (fun y member => all y (List.mem_cons_of_mem x member))]
            rfl
        exact each c above
      rw [same]
      have whole := Octets.cons character .nil
      rwa [List.append_nil] at whole

end Utf8
