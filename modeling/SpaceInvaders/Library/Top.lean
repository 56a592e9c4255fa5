import Mathlib.Data.List.Sort

namespace Top

variable {β : Type*} [LinearOrder β]

-- `kept` holds the `count` largest entries, or all if there are fewer, with
-- their multiplicity and from the largest down.
structure IsTop (count : Nat) (entries kept : List β) : Prop where
  sorted : kept.Pairwise (· ≥ ·)
  length_eq : kept.length = min count entries.length
  largest : ∃ rest, (kept ++ rest).Perm entries ∧ ∀ value ∈ kept, ∀ other ∈ rest, other ≤ value

def descending (entries : List β) : List β :=
  entries.mergeSort fun first second => second ≤ first

theorem descending_sorted (entries : List β) : (descending entries).Pairwise (· ≥ ·) := by
  have h : (descending entries).Pairwise fun first second => decide (second ≤ first) = true :=
    List.pairwise_mergeSort
      (fun a b c hab hbc => by simp only [decide_eq_true_eq] at *; exact hbc.trans hab)
      (fun a b => by simpa using le_total b a) entries
  exact h.imp fun hab => of_decide_eq_true hab

theorem descending_perm (entries : List β) : (descending entries).Perm entries :=
  List.mergeSort_perm entries _

theorem isTop_take (count : Nat) (entries : List β) :
    IsTop count entries ((descending entries).take count) := by
  have hsorted := descending_sorted entries
  have hlength := (descending_perm entries).length_eq
  refine ⟨hsorted.sublist (List.take_sublist ..), by rw [List.length_take, hlength], ?_⟩
  refine ⟨(descending entries).drop count, ?_, ?_⟩
  · rw [List.take_append_drop]
    exact descending_perm entries
  · rw [← List.take_append_drop count (descending entries), List.pairwise_append] at hsorted
    exact hsorted.2.2

-- There is only one such list.
theorem IsTop.eq_take {count : Nat} {entries kept : List β} (h : IsTop count entries kept) :
    kept = (descending entries).take count := by
  obtain ⟨rest, hperm, hlargest⟩ := h.largest
  have hsorted : (kept ++ descending rest).Pairwise (· ≥ ·) := by
    refine List.pairwise_append.mpr ⟨h.sorted, descending_sorted rest, ?_⟩
    exact fun value hv other ho => hlargest value hv other ((descending_perm rest).mem_iff.mp ho)
  have heq : kept ++ descending rest = descending entries := by
    refine List.Perm.eq_of_pairwise' hsorted (descending_sorted entries) ?_
    exact ((descending_perm rest).append_left kept).trans
      (hperm.trans (descending_perm entries).symm)
  have hlength := hperm.length_eq
  rw [List.length_append] at hlength
  rw [← heq]
  rcases Nat.le_total count entries.length with hc | hc
  · rw [List.take_left' (by rw [h.length_eq]; omega)]
  · have hrest : rest = [] := List.eq_nil_of_length_eq_zero (by have := h.length_eq; omega)
    have hkept : kept.length ≤ count := by have := h.length_eq; omega
    simp [hrest, descending, List.take_of_length_le hkept]

theorem isTop_self {count : Nat} {entries : List β} (hlength : entries.length ≤ count)
    (hsorted : entries.Pairwise (· ≥ ·)) : IsTop count entries entries :=
  ⟨hsorted, (Nat.min_eq_right hlength).symm, [], by simp, by simp⟩

-- The list is its own top.
theorem IsTop.self {count : Nat} {entries kept : List β} (h : IsTop count entries kept) :
    IsTop count kept kept :=
  isTop_self (h.length_eq ▸ Nat.min_le_left ..) h.sorted

end Top
