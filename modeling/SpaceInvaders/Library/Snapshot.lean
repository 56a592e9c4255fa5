import Mathlib.Data.List.Basic

namespace Snapshot

variable {β : Type*}

-- A writer replaces a shared value, a reader reads it. Each of the two is atomic.
inductive Event (β : Type*) where
  | publish (value : β)
  | read
  deriving DecidableEq

-- The values that the reads return, in order.
def seen (current : β) : List (Event β) → List β
  | [] => []
  | .publish value :: rest => seen value rest
  | .read :: rest => current :: seen current rest

-- The values that are current at some moment.
def during (current : β) : List (Event β) → List β
  | [] => [current]
  | .publish value :: rest => current :: during value rest
  | .read :: rest => during current rest

-- When something happens, without the values.
def Event.forget : Event β → Event Unit
  | .publish _ => .publish ()
  | .read => .read

-- No publication falls between the first read and the last one.
def Uninterrupted (count : Nat) (schedule : List (Event Unit)) : Prop :=
  ∃ before after, schedule = List.replicate before (.publish ()) ++
    (List.replicate count .read ++ List.replicate after (.publish ()))

theorem mem_during (current : β) (events : List (Event β)) : current ∈ during current events := by
  induction events with
  | nil => exact List.mem_singleton_self current
  | cons event rest ih =>
      cases event with
      | publish value => exact List.mem_cons_self ..
      | read => exact ih

theorem seen_of_no_read (current : β) (events : List (Event β))
    (h : ∃ count, events.map Event.forget = List.replicate count (.publish ())) :
    seen current events = [] := by
  induction events generalizing current with
  | nil => rfl
  | cons event rest ih =>
      obtain ⟨count, hc⟩ := h
      cases count with
      | zero => cases hc
      | succ count =>
          obtain ⟨he, hr⟩ := List.cons.inj hc
          cases event with
          | read => cases he
          | publish value => exact ih value ⟨count, hr⟩

-- Before the first publication every read sees the value from the beginning.
theorem seen_reads_first (count after : Nat) (current : β) (events : List (Event β))
    (h : events.map Event.forget =
      List.replicate count .read ++ List.replicate after (.publish ())) :
    seen current events = List.replicate count current := by
  induction count generalizing events with
  | zero => exact seen_of_no_read current events ⟨after, h⟩
  | succ count ih =>
      cases events with
      | nil => cases h
      | cons event rest =>
          rw [List.map_cons, List.replicate_succ, List.cons_append] at h
          obtain ⟨he, hr⟩ := List.cons.inj h
          cases event with
          | publish value => cases he
          | read => rw [seen, ih rest hr, List.replicate_succ]

-- Uninterrupted reads all see one of the values that were current.
theorem seen_uninterrupted (count : Nat) (current : β) (events : List (Event β))
    (h : Uninterrupted count (events.map Event.forget)) :
    ∃ value ∈ during current events, seen current events = List.replicate count value := by
  obtain ⟨before, after, hschedule⟩ := h
  induction events generalizing current before count with
  | nil =>
      have hlength := congrArg List.length hschedule
      simp only [List.map_nil, List.length_nil, List.length_append, List.length_replicate] at hlength
      obtain rfl : count = 0 := by omega
      exact ⟨current, mem_during current [], rfl⟩
  | cons event rest ih =>
      cases before with
      | succ before =>
          rw [List.map_cons, List.replicate_succ, List.cons_append] at hschedule
          obtain ⟨he, hr⟩ := List.cons.inj hschedule
          cases event with
          | read => cases he
          | publish value =>
              obtain ⟨found, hf, hs⟩ := ih count value before hr
              exact ⟨found, List.mem_cons_of_mem _ hf, hs⟩
      | zero =>
          rw [List.replicate_zero, List.nil_append] at hschedule
          exact ⟨current, mem_during current _, seen_reads_first count after current _ hschedule⟩

-- Every publication carries `value`.
def fill (value : β) (schedule : List (Event Unit)) : List (Event β) :=
  schedule.map fun
    | .publish _ => .publish value
    | .read => .read

-- The publications before the first read carry `first` and the others `later`.
def tear (first later : β) : List (Event Unit) → List (Event β)
  | [] => []
  | .publish _ :: rest => .publish first :: tear first later rest
  | .read :: rest => .read :: fill later rest

theorem forget_fill (value : β) (schedule : List (Event Unit)) :
    (fill value schedule).map Event.forget = schedule := by
  induction schedule with
  | nil => rfl
  | cons event rest ih => cases event <;> exact congrArg _ ih

theorem forget_tear (first later : β) (schedule : List (Event Unit)) :
    (tear first later schedule).map Event.forget = schedule := by
  induction schedule with
  | nil => rfl
  | cons event rest ih =>
      cases event with
      | publish value => exact congrArg _ ih
      | read => exact congrArg _ (forget_fill later rest)

theorem during_fill (current value : β) (schedule : List (Event Unit)) :
    ∀ found ∈ during current (fill value schedule), found = current ∨ found = value := by
  induction schedule generalizing current with
  | nil => exact fun found hf => .inl (List.mem_singleton.mp hf)
  | cons event rest ih =>
      cases event with
      | read => exact ih current
      | publish published =>
          intro found hf
          rcases List.mem_cons.mp hf with rfl | hf
          · exact .inl rfl
          · rcases ih value found hf with h | h <;> exact .inr h

theorem during_tear (first later : β) (schedule : List (Event Unit)) :
    ∀ found ∈ during first (tear first later schedule), found = first ∨ found = later := by
  induction schedule with
  | nil => exact fun found hf => .inl (List.mem_singleton.mp hf)
  | cons event rest ih =>
      cases event with
      | read => exact during_fill first later rest
      | publish published =>
          intro found hf
          rcases List.mem_cons.mp hf with rfl | hf
          · exact .inl rfl
          · exact ih found hf

theorem count_read_publish (published : Unit) (schedule : List (Event Unit)) :
    (.publish published :: schedule).count .read = schedule.count .read :=
  List.count_cons_of_ne (by simp)

theorem seen_fill_same (value : β) (schedule : List (Event Unit)) :
    seen value (fill value schedule) = List.replicate (schedule.count .read) value := by
  induction schedule with
  | nil => rfl
  | cons event rest ih =>
      cases event with
      | publish published =>
          rw [count_read_publish]
          exact ih
      | read =>
          rw [List.count_cons_self, List.replicate_succ]
          exact congrArg _ ih

-- The reads before the first publication see `current`, the others `value`.
theorem seen_fill (current value : β) (schedule : List (Event Unit)) :
    ∃ early late, early + late = schedule.count .read ∧
      seen current (fill value schedule) =
        List.replicate early current ++ List.replicate late value ∧
      (late = 0 → ∃ after,
        schedule = List.replicate early .read ++ List.replicate after (.publish ())) := by
  induction schedule with
  | nil => exact ⟨0, 0, rfl, rfl, fun _ => ⟨0, rfl⟩⟩
  | cons event rest ih =>
      cases event with
      | read =>
          obtain ⟨early, late, hcount, hseen, hlate⟩ := ih
          refine ⟨early + 1, late, ?_, ?_, ?_⟩
          · rw [List.count_cons_self]
            omega
          · rw [List.replicate_succ, List.cons_append, ← hseen]
            rfl
          · intro h
            obtain ⟨after, hrest⟩ := hlate h
            exact ⟨after, by rw [List.replicate_succ, List.cons_append, ← hrest]⟩
      | publish published =>
          refine ⟨0, rest.count .read, ?_, ?_, ?_⟩
          · rw [count_read_publish, Nat.zero_add]
          · rw [List.replicate_zero, List.nil_append]
            exact seen_fill_same value rest
          · intro h
            have hno : Event.read ∉ rest := List.count_eq_zero.mp h
            refine ⟨rest.length + 1, ?_⟩
            rw [List.replicate_zero, List.nil_append, List.replicate_succ]
            refine congrArg _ (List.eq_replicate_of_mem fun event hevent => ?_)
            cases event with
            | publish published => rfl
            | read => exact absurd hevent hno

-- Any schedule that interrupts the reads can split them between two values.
theorem seen_tear (first later : β) (schedule : List (Event Unit))
    (hreads : 0 < schedule.count .read)
    (h : ¬ Uninterrupted (schedule.count .read) schedule) :
    ∃ early late, early + late + 2 = schedule.count .read ∧
      seen first (tear first later schedule) =
        List.replicate (early + 1) first ++ List.replicate (late + 1) later := by
  induction schedule with
  | nil => cases hreads
  | cons event rest ih =>
      cases event with
      | publish published =>
          rw [count_read_publish] at hreads h ⊢
          refine ih hreads fun ⟨before, after, hrest⟩ => h ⟨before + 1, after, ?_⟩
          rw [List.replicate_succ, List.cons_append, ← hrest]
      | read =>
          obtain ⟨early, late, hcount, hseen, hlate⟩ := seen_fill first later rest
          rw [List.count_cons_self] at h ⊢
          cases late with
          | zero =>
              obtain ⟨after, hrest⟩ := hlate rfl
              refine absurd ⟨0, after, ?_⟩ h
              rw [← hcount, List.replicate_zero, List.nil_append, Nat.add_zero,
                List.replicate_succ, List.cons_append, ← hrest]
          | succ late =>
              refine ⟨early, late, by omega, ?_⟩
              rw [List.replicate_succ, List.cons_append, ← hseen]
              rfl

end Snapshot
