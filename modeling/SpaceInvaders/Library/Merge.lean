import Mathlib.Data.List.Infix
import Mathlib.Order.Lattice

namespace Merge

variable {κ α τ : Type*} [LinearOrder τ]

-- Streams that are cut into rounds by a key: each round takes from every stream what
-- has the key of the round, and what is left comes later than every round.
structure Synchronised (key : α → τ) (streams : κ → List α) (rounds : List (τ × (κ → List α)))
    (rest : κ → List α) : Prop where
  ascending : rounds.Pairwise (·.1 < ·.1)
  keyed : ∀ round ∈ rounds, ∀ k, ∀ item ∈ round.2 k, key item = round.1
  filled : ∀ round ∈ rounds, ∃ k, round.2 k ≠ []
  flow : ∀ k, streams k = rounds.flatMap (·.2 k) ++ rest k
  later : ∀ k, ∀ item ∈ rest k, ∀ round ∈ rounds, round.1 < key item

variable {key : α → τ} {streams : κ → List α} {rounds others : List (τ × (κ → List α))}
  {rest tail : κ → List α}

-- Without its first round the rest of the streams is cut as before.
theorem Synchronised.drop {round : τ × (κ → List α)}
    (h : Synchronised key streams (round :: rounds) rest) :
    Synchronised key (fun k => rounds.flatMap (·.2 k) ++ rest k) rounds rest where
  ascending := (List.pairwise_cons.mp h.ascending).2
  keyed := fun other hother => h.keyed other (List.mem_cons_of_mem _ hother)
  filled := fun other hother => h.filled other (List.mem_cons_of_mem _ hother)
  flow := fun _ => rfl
  later := fun k item hitem other hother => h.later k item hitem other (List.mem_cons_of_mem _ hother)

-- A stream that has something in the first round begins with it, and everything
-- else is later.
theorem Synchronised.first_le {round : τ × (κ → List α)}
    (h : Synchronised key streams (round :: rounds) rest) (k : κ) :
    ∀ item ∈ streams k, round.1 ≤ key item := by
  intro item hitem
  rw [h.flow, List.flatMap_cons, List.append_assoc] at hitem
  rcases List.mem_append.mp hitem with hfirst | hlater
  · exact (h.keyed round (List.mem_cons_self ..) k item hfirst).ge
  rcases List.mem_append.mp hlater with hround | hrest
  · obtain ⟨other, hother, hitem⟩ := List.mem_flatMap.mp hround
    rw [h.keyed other (List.mem_cons_of_mem _ hother) k item hitem]
    exact ((List.pairwise_cons.mp h.ascending).1 other hother).le
  · exact (h.later k item hrest round (List.mem_cons_self ..)).le

theorem Synchronised.later_first {round : τ × (κ → List α)}
    (h : Synchronised key streams (round :: rounds) rest) (k : κ) :
    ∀ item ∈ rounds.flatMap (·.2 k) ++ rest k, round.1 < key item := by
  intro item hitem
  rcases List.mem_append.mp hitem with hround | hrest
  · obtain ⟨other, hother, hitem⟩ := List.mem_flatMap.mp hround
    rw [h.keyed other (List.mem_cons_of_mem _ hother) k item hitem]
    exact (List.pairwise_cons.mp h.ascending).1 other hother
  · exact h.later k item hrest round (List.mem_cons_self ..)

-- The first round is the part of each stream with the least key of all.
theorem Synchronised.first_eq {round : τ × (κ → List α)}
    (h : Synchronised key streams (round :: rounds) rest) (k : κ) :
    (streams k).takeWhile (key · ≤ round.1) = round.2 k ∧
      (streams k).dropWhile (key · ≤ round.1) = rounds.flatMap (·.2 k) ++ rest k := by
  have hall : ∀ item ∈ round.2 k, decide (key item ≤ round.1) = true := by
    intro item hitem
    simp [h.keyed round (List.mem_cons_self ..) k item hitem]
  have hlater := h.later_first k
  rw [h.flow, List.flatMap_cons, List.append_assoc, List.takeWhile_append_of_pos hall,
    List.dropWhile_append_of_pos hall]
  cases htail : rounds.flatMap (·.2 k) ++ rest k with
  | nil => simp
  | cons item items =>
      rw [htail] at hlater
      have hitem := hlater item (List.mem_cons_self ..)
      rw [List.takeWhile_cons_of_neg (by simpa using hitem),
        List.dropWhile_cons_of_neg (by simpa using hitem), List.append_nil]
      exact ⟨rfl, rfl⟩

-- The rounds depend on the streams alone: of two ways to cut the same streams one goes on
-- where the other has stopped.
theorem Synchronised.prefix_or (h : Synchronised key streams rounds rest)
    (h' : Synchronised key streams others tail) : rounds <+: others ∨ others <+: rounds := by
  induction rounds generalizing streams others with
  | nil => exact .inl List.nil_prefix
  | cons round rounds ih =>
      cases others with
      | nil => exact .inr List.nil_prefix
      | cons other others =>
          have hkey : ∀ (first second : τ × (κ → List α)) (front back : List (τ × (κ → List α)))
              (rest tail : κ → List α), Synchronised key streams (first :: front) rest →
              Synchronised key streams (second :: back) tail → second.1 ≤ first.1 := by
            intro first second front back rest tail hf hs
            obtain ⟨k, hk⟩ := hf.filled first (List.mem_cons_self ..)
            obtain ⟨item, hitem⟩ := List.exists_mem_of_ne_nil _ hk
            rw [← hf.keyed first (List.mem_cons_self ..) k item hitem]
            apply hs.first_le k item
            rw [hf.flow]
            simp [hitem]
          have hfirst : round.1 = other.1 := le_antisymm (hkey _ _ _ _ _ _ h' h) (hkey _ _ _ _ _ _ h h')
          have hround : round = other := by
            apply Prod.ext hfirst
            funext k
            rw [← (h.first_eq k).1, ← (h'.first_eq k).1, hfirst]
          have hrest : (fun k => rounds.flatMap (·.2 k) ++ rest k) =
              fun k => others.flatMap (·.2 k) ++ tail k := by
            funext k
            rw [← (h.first_eq k).2, ← (h'.first_eq k).2, hfirst]
          rw [hround]
          simp only [List.prefix_cons_inj]
          exact ih h.drop (hrest ▸ h'.drop)

theorem Synchronised.eq_of_prefix (h : Synchronised key streams rounds fun _ => [])
    (h' : Synchronised key streams others tail) (hshorter : rounds <+: others) : rounds = others := by
  obtain ⟨more, rfl⟩ := hshorter
  cases more with
  | nil => exact (List.append_nil rounds).symm
  | cons round more =>
      obtain ⟨k, hk⟩ := h'.filled round (by simp)
      have hflow := (h.flow k).symm.trans (h'.flow k)
      simp only [List.flatMap_append, List.flatMap_cons, List.append_nil, List.append_assoc,
        List.self_eq_append_right, List.append_eq_nil_iff] at hflow
      exact absurd hflow.1 hk

-- Two cuts that both leave nothing are the same.
theorem Synchronised.unique (h : Synchronised key streams rounds fun _ => [])
    (h' : Synchronised key streams others fun _ => []) : rounds = others := by
  cases h.prefix_or h' with
  | inl hshorter => exact h.eq_of_prefix h' hshorter
  | inr hshorter => exact (h'.eq_of_prefix h hshorter).symm

omit [LinearOrder τ] in
-- Items that come in the order of keys that tell the values apart.
theorem prefix_of_keys (key : α → τ) (items values : List α) (extra : List τ)
    (hnodup : (values.map key ++ extra).Nodup) (hmem : ∀ item ∈ items, item ∈ values)
    (hkeys : items.map key <+: values.map key ++ extra) : items <+: values := by
  induction items generalizing values with
  | nil => exact List.nil_prefix
  | cons item items ih =>
      cases values with
      | nil => exact absurd (hmem item (List.mem_cons_self ..)) List.not_mem_nil
      | cons value values =>
          rw [List.map_cons, List.cons_append, List.nodup_cons] at hnodup
          rw [List.map_cons, List.map_cons, List.cons_append, List.cons_prefix_cons] at hkeys
          obtain ⟨hnew, hnodup⟩ := hnodup
          obtain ⟨hkey, hkeys⟩ := hkeys
          rw [List.forall_mem_cons] at hmem
          have heq : item = value := by
            rcases List.mem_cons.mp hmem.1 with heq | hlater
            · exact heq
            · exact absurd (List.mem_append_left _ (hkey ▸ List.mem_map_of_mem hlater)) hnew
          rw [heq, List.cons_prefix_cons]
          refine ⟨rfl, ih values hnodup (fun other hother => ?_) hkeys⟩
          rcases List.mem_cons.mp (hmem.2 other hother) with rfl | hlater
          · exact absurd (hkeys.subset (List.mem_map_of_mem hother)) hnew
          · exact hlater

end Merge
