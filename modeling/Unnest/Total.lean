import Unnest.OrderedMap

/-!
# Totals and counters

Things are counted item by item along a list.  The total of a list that is put together is the sum
of the totals of its parts.

What an operation counts is a map from the name of a counter, with its label, to a number.  A
counter that was never touched is absent; one that was raised by zero is present.
-/

namespace Unnest

/-- The sum of a count over the items of a list. -/
def total {α : Type} (count : α → Nat) : List α → Nat
  | [] => 0
  | item :: rest => count item + total count rest

@[simp]
theorem total_nil {α : Type} (count : α → Nat) : total count [] = 0 := rfl

@[simp]
theorem total_cons {α : Type} (count : α → Nat) (item : α) (rest : List α) :
    total count (item :: rest) = count item + total count rest := rfl

@[simp]
theorem total_append {α : Type} (count : α → Nat) (first second : List α) :
    total count (first ++ second) = total count first + total count second := by
  induction first with
  | nil => simp
  | cons item rest inductionHypothesis =>
      simp only [List.cons_append, total_cons, inductionHypothesis]
      omega

theorem total_congr {α : Type} {first second : α → Nat} {items : List α}
    (same : ∀ item ∈ items, first item = second item) : total first items = total second items := by
  induction items with
  | nil => rfl
  | cons item rest inductionHypothesis =>
      rw [total_cons, total_cons, same item List.mem_cons_self,
        inductionHypothesis fun other member => same other (List.mem_cons_of_mem _ member)]

@[simp]
theorem total_zero {α : Type} (items : List α) : total (fun _ => 0) items = 0 := by
  induction items with
  | nil => rfl
  | cons item rest inductionHypothesis => rw [total_cons, inductionHypothesis]

theorem total_map {α β : Type} (count : β → Nat) (change : α → β) (items : List α) :
    total count (items.map change) = total (fun item => count (change item)) items := by
  induction items with
  | nil => rfl
  | cons item rest inductionHypothesis =>
      rw [List.map_cons, total_cons, total_cons, inductionHypothesis]

theorem total_add {α : Type} (first second : α → Nat) (items : List α) :
    total (fun item => first item + second item) items =
      total first items + total second items := by
  induction items with
  | nil => rfl
  | cons item rest inductionHypothesis =>
      simp only [total_cons, inductionHypothesis]
      omega

theorem total_perm {α : Type} {count : α → Nat} {left right : List α} (same : left.Perm right) :
    total count left = total count right := by
  induction same with
  | nil => rfl
  | cons item _ inductionHypothesis => rw [total_cons, total_cons, inductionHypothesis]
  | swap first second rest =>
      simp only [total_cons]
      omega
  | trans _ _ firstHypothesis secondHypothesis => exact firstHypothesis.trans secondHypothesis

theorem length_flatMap_eq_total {α β : Type} (parts : α → List β) (items : List α) :
    (items.flatMap parts).length = total (fun item => (parts item).length) items := by
  induction items with
  | nil => rfl
  | cons item rest inductionHypothesis =>
      rw [List.flatMap_cons, List.length_append, total_cons, inductionHypothesis]

/-! ## Counters -/

/-- Counters by name. -/
abbrev Counters := OrderedMap String Nat

namespace Counters

/-- Raise a counter. -/
def raise (name : String) (amount : Nat) (counters : Counters) : Counters :=
  OrderedMap.insert name ((OrderedMap.find? name counters).getD 0 + amount) counters

/-- The name of a counter with a label. -/
def labelled (name label value : String) : String :=
  name ++ "," ++ label ++ "=" ++ value

/-- Raise one counter by one for each value of its label. -/
def raiseEach (name label : String) (values : List String) (counters : Counters) : Counters :=
  values.foldl (fun counters value => raise (labelled name label value) 1 counters) counters

end Counters

end Unnest
