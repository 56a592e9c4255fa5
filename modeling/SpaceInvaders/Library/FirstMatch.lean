import SpaceInvaders.Library.Run

namespace FirstMatch

variable {β γ : Type*}

-- A loop that may rewrite the current element and return: it stops at the
-- first element for which the body answers.
def updateFirst (body : β → Option (β × γ)) : List β → Option (List β × γ)
  | [] => none
  | item :: rest =>
      match body item with
      | some (changed, result) => some (changed :: rest, result)
      | none => (updateFirst body rest).map fun found => (item :: found.1, found.2)

theorem updateFirst_eq_none_iff (body : β → Option (β × γ)) (items : List β) :
    updateFirst body items = none ↔ ∀ item ∈ items, body item = none := by
  induction items with
  | nil => simp [updateFirst]
  | cons item rest ih =>
      cases h : body item with
      | none => simp [updateFirst, h, ih]
      | some found => simp [updateFirst, h]

theorem updateFirst_eq_some_iff (body : β → Option (β × γ)) (items changed : List β) (result : γ) :
    updateFirst body items = some (changed, result) ↔
      ∃ before item after next, items = before ++ item :: after ∧
        (∀ other ∈ before, body other = none) ∧ body item = some (next, result) ∧
        changed = before ++ next :: after := by
  induction items generalizing changed with
  | nil => simp [updateFirst]
  | cons head rest ih =>
      cases h : body head with
      | some found =>
          simp only [updateFirst, h, Option.some.injEq, Prod.mk.injEq]
          constructor
          · rintro ⟨rfl, rfl⟩
            exact ⟨[], head, rest, found.1, rfl, by simp, h, rfl⟩
          · rintro ⟨before, item, after, next, hitems, hnone, hitem, rfl⟩
            cases before with
            | nil =>
                obtain ⟨rfl, rfl⟩ := List.cons.inj hitems
                cases h.symm.trans hitem
                exact ⟨rfl, rfl⟩
            | cons first before =>
                obtain ⟨rfl, _⟩ := List.cons.inj hitems
                simp [h] at hnone
      | none =>
          simp only [updateFirst, h, Option.map_eq_some_iff, Prod.exists, Prod.mk.injEq]
          constructor
          · rintro ⟨found, _, hfound, rfl, rfl⟩
            obtain ⟨before, item, after, next, rfl, hnone, hitem, rfl⟩ := (ih found).mp hfound
            refine ⟨head :: before, item, after, next, rfl, ?_, hitem, rfl⟩
            simpa [h] using hnone
          · rintro ⟨before, item, after, next, hitems, hnone, hitem, rfl⟩
            cases before with
            | nil =>
                obtain ⟨rfl, rfl⟩ := List.cons.inj hitems
                rw [h] at hitem
                cases hitem
            | cons first before =>
                obtain ⟨rfl, rfl⟩ := List.cons.inj hitems
                refine ⟨before ++ next :: after, result, ?_, rfl, rfl⟩
                exact (ih _).mpr ⟨before, item, after, next, rfl,
                  fun other ho => hnone other (List.mem_cons_of_mem _ ho), hitem, rfl⟩

-- The same by the number of the element that the loop stops at.
theorem updateFirst_at (body : β → Option (β × γ)) (items : List β) (index : Nat) (item next : β)
    (result : γ) (hitem : items[index]? = some item) (hbody : body item = some (next, result))
    (hnone : ∀ (earlier : Nat) (other : β), earlier < index → items[earlier]? = some other →
      body other = none) :
    updateFirst body items = some (items.set index next, result) := by
  obtain ⟨hlt, rfl⟩ := List.getElem?_eq_some_iff.mp hitem
  refine (updateFirst_eq_some_iff _ _ _ _).mpr
    ⟨items.take index, items[index], items.drop (index + 1), next, ?_, ?_, hbody, ?_⟩
  · rw [List.getElem_cons_drop, List.take_append_drop]
  · intro other ho
    obtain ⟨earlier, he⟩ := List.mem_iff_getElem?.mp ho
    obtain ⟨hearlier, _⟩ := List.getElem?_eq_some_iff.mp he
    rw [List.length_take] at hearlier
    rw [List.getElem?_take_of_lt (by omega)] at he
    exact hnone earlier other (by omega) he
  · rw [List.set_eq_take_append_cons_drop, if_pos hlt]

-- `thin` is `full` without some of the elements that satisfy `drop`.
inductive Thinned (drop : β → Prop) : List β → List β → Prop
  | nil : Thinned drop [] []
  | keep (item : β) {full thin : List β} :
      Thinned drop full thin → Thinned drop (item :: full) (item :: thin)
  | skip (item : β) {full thin : List β} :
      drop item → Thinned drop full thin → Thinned drop (item :: full) thin

-- Removes the elements that are spent and whose place in the list is chosen.
def sift (spent : β → Bool) (chosen : Nat → Bool) : List β → List β
  | [] => []
  | item :: rest =>
      let siftedRest := sift spent (fun place => chosen (place + 1)) rest
      if spent item && chosen 0 then siftedRest else item :: siftedRest

namespace Thinned

variable {drop : β → Prop}

theorem refl (items : List β) : Thinned drop items items := by
  induction items with
  | nil => exact .nil
  | cons item rest ih => exact .keep item ih

theorem append {full thin full' thin' : List β} (h : Thinned drop full thin)
    (h' : Thinned drop full' thin') : Thinned drop (full ++ full') (thin ++ thin') := by
  induction h with
  | nil => exact h'
  | keep item _ ih => exact .keep item ih
  | skip item hd _ ih => exact .skip item hd ih

theorem map {f : β → β} {full thin : List β} (h : Thinned drop full thin)
    (hf : ∀ item ∈ full, drop item → drop (f item)) : Thinned drop (full.map f) (thin.map f) := by
  induction h with
  | nil => exact .nil
  | keep item _ ih =>
      exact .keep (f item) (ih fun other ho => hf other (List.mem_cons_of_mem _ ho))
  | skip item hd _ ih =>
      exact .skip (f item) (hf item (List.mem_cons_self ..) hd)
        (ih fun other ho => hf other (List.mem_cons_of_mem _ ho))

theorem trans {full mid thin : List β} (h : Thinned drop full mid) (h' : Thinned drop mid thin) :
    Thinned drop full thin := by
  induction h generalizing thin with
  | nil => exact h'
  | skip item hd _ ih => exact .skip item hd (ih h')
  | keep item _ ih =>
      cases h' with
      | keep _ h' => exact .keep item (ih h')
      | skip _ hd h' => exact .skip item hd (ih h')

theorem mem {full thin : List β} (h : Thinned drop full thin) (item : β) (hm : item ∈ thin) :
    item ∈ full := by
  induction h with
  | nil => exact hm
  | keep other _ ih =>
      rcases List.mem_cons.mp hm with rfl | hm
      · exact List.mem_cons_self ..
      · exact List.mem_cons_of_mem _ (ih hm)
  | skip other _ _ ih => exact List.mem_cons_of_mem _ (ih hm)

theorem sift (spent : β → Bool) (chosen : Nat → Bool) (items : List β) :
    Thinned (fun item => spent item = true) items (FirstMatch.sift spent chosen items) := by
  induction items generalizing chosen with
  | nil => exact .nil
  | cons item rest ih =>
      simp only [FirstMatch.sift]
      split_ifs with h
      · simp only [Bool.and_eq_true] at h
        exact .skip item h.1 (ih _)
      · exact .keep item (ih _)

end Thinned

-- Dropped elements for which the body does not answer are not missed.
theorem updateFirst_thinned (body : β → Option (β × γ)) (drop : β → Prop)
    (hdrop : ∀ item, drop item → body item = none) {full thin : List β}
    (h : Thinned drop full thin) :
    Option.Rel (fun found other => Thinned drop found.1 other.1 ∧ found.2 = other.2)
      (updateFirst body full) (updateFirst body thin) := by
  induction h with
  | nil => exact .none
  | keep item h ih =>
      cases hb : body item with
      | some found =>
          simp only [updateFirst, hb]
          exact .some ⟨.keep found.1 h, rfl⟩
      | none =>
          simp only [updateFirst, hb]
          exact Transition.rel_map (fun _ _ hr => ⟨.keep item hr.1, hr.2⟩) ih
  | skip item hd h ih =>
      simp only [updateFirst, hdrop item hd]
      have hmap := Transition.rel_map (S := fun found other : List β × γ =>
        Thinned drop found.1 other.1 ∧ found.2 = other.2)
        (f := fun found => (item :: found.1, found.2)) (g := id)
        (fun _ _ hr => ⟨.skip item hd hr.1, hr.2⟩) ih
      simpa using hmap

end FirstMatch
