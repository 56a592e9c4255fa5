import Mathlib.Data.List.Basic

namespace Tagged

variable {β : Type*}

-- A record with a tag and the length of its body in one byte.
def field (tag : UInt8) (body : List UInt8) : List UInt8 := tag :: UInt8.ofNat body.length :: body

def encode (tag : UInt8) (write : β → List UInt8) (items : List β) : List UInt8 :=
  items.flatMap fun item => field tag (write item)

-- The records up to the first one of another tag, at most `fuel` of them.
def decode (tag : UInt8) (read : List UInt8 → β) : Nat → List UInt8 → List β
  | fuel + 1, found :: length :: rest =>
      if found = tag then
        read (rest.take length.toNat) :: decode tag read fuel (rest.drop length.toNat)
      else
        []
  | _, _ => []

theorem decode_encode (tag : UInt8) (write : β → List UInt8) (read : List UInt8 → β)
    (hread : ∀ item, read (write item) = item) (hshort : ∀ item, (write item).length < 256)
    (items : List β) (fuel : Nat) (hfuel : items.length ≤ fuel) :
    decode tag read fuel (encode tag write items) = items := by
  induction items generalizing fuel with
  | nil => cases fuel <;> rfl
  | cons item rest ih =>
      cases fuel with
      | zero => simp at hfuel
      | succ fuel =>
          have hlength : (UInt8.ofNat (write item).length).toNat = (write item).length :=
            UInt8.toNat_ofNat_of_lt' (hshort item)
          have hrest := ih fuel (by simpa using hfuel)
          have hcons : encode tag write (item :: rest) =
              tag :: UInt8.ofNat (write item).length :: (write item ++ encode tag write rest) := rfl
          rw [hcons, decode, if_pos rfl, hlength, List.take_left' rfl, List.drop_left' rfl, hread, hrest]

theorem length_le_encode (tag : UInt8) (write : β → List UInt8) (items : List β) :
    items.length ≤ (encode tag write items).length := by
  induction items with
  | nil => exact Nat.le_refl _
  | cons item rest ih =>
      have hcons : encode tag write (item :: rest) =
          tag :: UInt8.ofNat (write item).length :: (write item ++ encode tag write rest) := rfl
      simp only [hcons, List.length_cons, List.length_append]
      omega

end Tagged
