import Mathlib.Data.List.Basic

/-!
# First-match updates and bounded eviction on lists

Two list operations that a bounded queue is built from: rewriting the first
element accepted by a partial function (`List.replaceF`), and removing the
first `count` elements of a class (`dropFirst`).  The lemmas say what each
leaves unchanged.
-/

namespace FirstMatch

universe u

variable {α : Type u}

/-- Rewriting the first match changes one position of the list: the one that
`find?` returns. -/
theorem replaceF_of_find? {p : α → Bool} (rewrite : α → α) {items : List α}
    {old : α} (found : items.find? p = some old) :
    ∃ before after, items = before ++ old :: after ∧
      items.replaceF (fun item => if p item then some (rewrite item) else none) =
        before ++ rewrite old :: after ∧
      ∀ item ∈ before, p item = false := by
  induction items with
  | nil => cases found
  | cons head tail ih =>
      cases matched : p head with
      | true =>
          obtain rfl : head = old := by simpa [matched] using found
          exact ⟨[], tail, rfl, by simp [matched],
            by simp⟩
      | false =>
          have later : tail.find? p = some old := by
            simpa [matched] using found
          obtain ⟨before, after, split, replaced, unmatched⟩ := ih later
          refine ⟨head :: before, after, by rw [split]; rfl, ?_, ?_⟩
          · simp [matched, replaced]
          · intro item member
            rcases List.mem_cons.mp member with rfl | earlier
            · exact matched
            · exact unmatched item earlier

/-- Replacing one element keeps a pairwise relation that the new element
inherits from the old one. -/
theorem pairwise_swap {related : α → α → Prop} {before after : List α}
    {old new : α} (left : ∀ other, related other old → related other new)
    (right : ∀ other, related old other → related new other)
    (pairwise : (before ++ old :: after).Pairwise related) :
    (before ++ new :: after).Pairwise related := by
  rw [List.pairwise_append, List.pairwise_cons] at pairwise ⊢
  obtain ⟨first, ⟨head, second⟩, across⟩ := pairwise
  refine ⟨first, ⟨fun other member => right other (head other member), second⟩,
    ?_⟩
  intro item member other otherMember
  rcases List.mem_cons.mp otherMember with rfl | later
  · exact left item (across item member old List.mem_cons_self)
  · exact across item member other (List.mem_cons_of_mem _ later)

/-- Remove the first `count` elements that satisfy `old`, front to back; the
counter goes down at each removal. -/
def dropFirst (old : α → Bool) : Nat → List α → List α
  | _, [] => []
  | count, item :: rest =>
      if 0 < count ∧ old item = true then dropFirst old (count - 1) rest
      else item :: dropFirst old count rest

variable {old : α → Bool}

@[simp] theorem dropFirst_nil (count : Nat) :
    dropFirst old count ([] : List α) = [] := by
  cases count <;> rfl

theorem dropFirst_cons_old {item : α} (isOld : old item = true)
    (count : Nat) (rest : List α) :
    dropFirst old (count + 1) (item :: rest) = dropFirst old count rest := by
  simp [dropFirst, isOld]

theorem dropFirst_cons_young {item : α} (young : old item = false)
    (count : Nat) (rest : List α) :
    dropFirst old count (item :: rest) = item :: dropFirst old count rest := by
  simp [dropFirst, young]

@[simp] theorem dropFirst_zero (items : List α) :
    dropFirst old 0 items = items := by
  induction items with
  | nil => rfl
  | cons item rest ih => simp [dropFirst, ih]

theorem dropFirst_sublist (old : α → Bool) (count : Nat) (items : List α) :
    (dropFirst old count items).Sublist items := by
  induction items generalizing count with
  | nil => simp
  | cons item rest ih =>
      unfold dropFirst
      split
      · exact (ih (count - 1)).cons item
      · exact (ih count).cons_cons item

theorem filter_not_dropFirst (old : α → Bool) (count : Nat) (items : List α) :
    (dropFirst old count items).filter (fun item => !old item) =
      items.filter (fun item => !old item) := by
  induction items generalizing count with
  | nil => simp
  | cons item rest ih =>
      cases isOld : old item with
      | false => simp [dropFirst_cons_young isOld, isOld, ih]
      | true =>
          cases count with
          | zero => simp
          | succ count => simp [dropFirst_cons_old isOld, isOld, ih]

theorem filter_dropFirst (old : α → Bool) (count : Nat) (items : List α) :
    (dropFirst old count items).filter old =
      (items.filter old).drop count := by
  induction items generalizing count with
  | nil => simp
  | cons item rest ih =>
      cases isOld : old item with
      | false => simp [dropFirst_cons_young isOld, isOld, ih]
      | true =>
          cases count with
          | zero => simp
          | succ count => simp [dropFirst_cons_old isOld, isOld, ih]

theorem mem_dropFirst_of_young {count : Nat} {items : List α} {item : α}
    (member : item ∈ items) (young : old item = false) :
    item ∈ dropFirst old count items := by
  have kept : item ∈ (dropFirst old count items).filter
      (fun item => !old item) := by
    rw [filter_not_dropFirst]
    exact List.mem_filter.mpr ⟨member, by simp [young]⟩
  exact (List.mem_filter.mp kept).1

theorem length_dropFirst (old : α → Bool) (count : Nat) (items : List α) :
    (dropFirst old count items).length =
      items.length - min count (items.countP old) := by
  induction items generalizing count with
  | nil => simp
  | cons item rest ih =>
      have bounded : rest.countP old ≤ rest.length := List.countP_le_length
      cases isOld : old item with
      | false =>
          rw [dropFirst_cons_young isOld, List.length_cons, ih,
            List.countP_cons_of_neg (by simp [isOld]), List.length_cons]
          omega
      | true =>
          cases count with
          | zero => simp
          | succ count =>
              rw [dropFirst_cons_old isOld, ih,
                List.countP_cons_of_pos isOld, List.length_cons]
              omega

end FirstMatch
