import Mathlib.Data.Finset.BooleanAlgebra
import Mathlib.Data.Fintype.Card
import Mathlib.Logic.Relation

/-!
# Following links

An element may link to another one, and links may lead back. A search follows the links of a finite
graph until an element meets a test or was seen before. It ends, and it succeeds exactly when an
element on the chain of links meets the test: what was seen before failed the test and links only
to what was seen.
-/

namespace Chase

variable {α : Type} {link : α → Option α} {test : α → Bool}

/-- The element `b` is on the chain of links that starts at `a`. -/
def OnChain (link : α → Option α) (a b : α) : Prop :=
  Relation.ReflTransGen (fun a b => link a = some b) a b

/-- An element meets the test on a chain that starts at an element, if there is one. -/
def Meets (link : α → Option α) (test : α → Bool) (current : Option α) : Prop :=
  ∃ a, current = some a ∧ ∃ b, OnChain link a b ∧ test b = true

theorem meets_none :
  ¬ Meets link test none
  := by
  rintro ⟨a, ha, -⟩
  cases ha

/-- A chain meets the test at its start or after it. -/
theorem meets_some {a : α} :
  Meets link test (some a) ↔ test a = true ∨ Meets link test (link a)
  := by
  constructor
  · rintro ⟨_, ⟨⟩, b, hchain, hb⟩
    rcases Relation.ReflTransGen.cases_head hchain with rfl | ⟨next, hnext, hrest⟩
    · exact .inl hb
    · exact .inr ⟨next, hnext, b, hrest, hb⟩
  · rintro (ha | ⟨next, hnext, b, hrest, hb⟩)
    · exact ⟨a, rfl, a, .refl, ha⟩
    · exact ⟨a, rfl, b, .head hnext hrest, hb⟩

/-- What was seen failed the test, and links to what was seen or to the current element. -/
structure Seen (link : α → Option α) (test : α → Bool) (seen : Finset α)
    (current : Option α) : Prop where
  failed : ∀ a ∈ seen, test a = false
  closed : ∀ a ∈ seen, ∀ b, link a = some b → b ∈ seen ∨ current = some b

theorem Seen.empty (current : Option α) :
  Seen link test ∅ current
  := by constructor <;> simp

/-- Nothing is missed on a chain that comes back to what was seen. -/
theorem Seen.not_meets {seen : Finset α} {a : α} (h : Seen link test seen (some a))
    (ha : a ∈ seen) :
  ¬ Meets link test (some a)
  := by
  rintro ⟨_, ⟨⟩, b, hchain, hb⟩
  have hseen : b ∈ seen := by
    clear hb
    induction hchain with
    | refl => exact ha
    | tail _ hlink ih =>
      rcases h.closed _ ih _ hlink with hseen | hcurrent
      · apply hseen
      · cases hcurrent
        apply ha
  rw [h.failed b hseen] at hb
  cases hb

variable [DecidableEq α]

/-- The current element is seen, and the next one is current. -/
theorem Seen.insert {seen : Finset α} {a : α} (h : Seen link test seen (some a))
    (ha : test a = false) :
  Seen link test (insert a seen) (link a)
  := by
  constructor
  · intro b hb
    rcases Finset.mem_insert.mp hb with rfl | hb
    · apply ha
    · apply h.failed b hb
  · intro b hb c hc
    rcases Finset.mem_insert.mp hb with rfl | hb
    · exact .inr hc
    · rcases h.closed b hb c hc with hseen | hcurrent
      · exact .inl (Finset.mem_insert_of_mem hseen)
      · cases hcurrent
        exact .inl (Finset.mem_insert_self a seen)

/-- There is less to see once an element is seen that was not. -/
theorem card_compl_insert_lt [Fintype α] {seen : Finset α} {a : α} (h : a ∉ seen) :
  (insert a seen)ᶜ.card < seenᶜ.card
  := by
  apply Finset.card_lt_card
  rw [Finset.compl_ssubset_compl]
  apply Finset.ssubset_insert h

/-- The search from the current element, if there is one, with the elements seen so far. -/
def search [Fintype α] (link : α → Option α) (test : α → Bool) (seen : Finset α) :
    Option α → Bool
  | none => false
  | some a =>
    if _h : a ∈ seen then false
    else if test a then true
    else search link test (insert a seen) (link a)
termination_by seenᶜ.card
decreasing_by exact card_compl_insert_lt _h

/-- The search succeeds exactly when the chain meets the test. -/
theorem search_iff [Fintype α] {seen : Finset α} {current : Option α}
    (h : Seen link test seen current) :
  search link test seen current = true ↔ Meets link test current
  := by
  induction hleft : seenᶜ.card using Nat.strong_induction_on generalizing seen current with
  | _ left ih =>
    cases current with
    | none => simp [search, meets_none]
    | some a =>
      rw [search]
      split
      case isTrue ha => simp [h.not_meets ha]
      case isFalse ha =>
        cases htest : test a with
        | true => simp [meets_some, htest]
        | false =>
          subst hleft
          have hnext := ih _ (card_compl_insert_lt ha) (h.insert htest) rfl
          simp [meets_some, htest, hnext]

end Chase
