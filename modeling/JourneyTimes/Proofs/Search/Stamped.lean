import JourneyTimes.Search.Stamped

/-!
# Stamped vectors are vectors that can be reset

No stamp of a stamped vector lies ahead of its current generation.  A reset
therefore leaves no entry with a current stamp, whatever was set before and
also when the generations run out, and setting an entry changes that entry
alone.
-/

namespace JourneyTimes.Stamped

variable {β : Type}

/-- The arrays of a vector agree in size, and no stamp is from the future. -/
structure Valid (vector : Stamped β) (size : Nat) : Prop where
  data_size : vector.data.size = size
  stamps_size : vector.stamps.size = size
  current_pos : 0 < vector.current.toNat
  stamp_le : ∀ stamp ∈ vector.stamps, stamp.toNat ≤ vector.current.toNat

theorem valid_make (size : Nat) (default : β) : (make size default).Valid size where
  data_size := by simp [make]
  stamps_size := by simp [make]
  current_pos := by simp [make]
  stamp_le := by
    intro stamp member
    have zero : stamp = 0 := by simp_all [make]
    simp [zero]

@[simp]
theorem default_make (size : Nat) (default : β) :
    (make size default).default = default := rfl

@[simp]
theorem default_reset (vector : Stamped β) :
    vector.reset.default = vector.default := by
  unfold reset
  dsimp only
  split <;> rfl

@[simp]
theorem default_set (vector : Stamped β) (index : Nat) (value : β) :
    (vector.set index value).default = vector.default := rfl

@[simp]
theorem size_make (size : Nat) (default : β) : (make size default).size = size := by
  simp [make, Stamped.size]

@[simp]
theorem size_set (vector : Stamped β) (index : Nat) (value : β) :
    (vector.set index value).size = vector.size := by
  simp [Stamped.set, Stamped.size]

@[simp]
theorem size_reset (vector : Stamped β) : vector.reset.size = vector.size := by
  unfold Stamped.reset
  dsimp only
  split <;> rfl

/-- The generation after the current one, unless the generations run out. -/
theorem toNat_current_succ {vector : Stamped β} (more : vector.current + 1 ≠ 0) :
    (vector.current + 1).toNat = vector.current.toNat + 1 := by
  have bound := vector.current.toNat_lt
  have sum : (vector.current + 1).toNat = (vector.current.toNat + 1) % 2 ^ 32 := by
    simp [UInt32.toNat_add]
  rw [sum]
  refine Nat.mod_eq_of_lt (Nat.lt_of_le_of_ne (by omega) fun wraps => more ?_)
  apply UInt32.toNat_inj.mp
  simp [sum, wraps]

theorem Valid.reset {vector : Stamped β} {size : Nat} (valid : vector.Valid size) :
    vector.reset.Valid size := by
  unfold Stamped.reset
  dsimp only
  split
  · refine ⟨valid.data_size, by simp [valid.stamps_size], by simp, ?_⟩
    intro stamp member
    have zero : stamp = 0 := by simp_all
    simp [zero]
  · rename_i more
    refine ⟨valid.data_size, valid.stamps_size, ?_, ?_⟩
    · simp [toNat_current_succ more]
    · intro stamp member
      have past := valid.stamp_le stamp member
      simp only [toNat_current_succ more]
      omega

theorem Valid.set {vector : Stamped β} {size : Nat} (valid : vector.Valid size)
    (index : Nat) (value : β) : (vector.set index value).Valid size where
  data_size := by simp [Stamped.set, valid.data_size]
  stamps_size := by simp [Stamped.set, valid.stamps_size]
  current_pos := valid.current_pos
  stamp_le := by
    intro stamp member
    rcases Array.mem_or_eq_of_mem_setIfInBounds member with old | new
    · exact valid.stamp_le stamp old
    · simp [new, Stamped.set]

theorem Valid.size_eq {vector : Stamped β} {size : Nat} (valid : vector.Valid size) :
    vector.size = size :=
  valid.data_size

/-- After a reset no entry counts as set. -/
theorem Valid.isSet_reset {vector : Stamped β} {size : Nat}
    (valid : vector.Valid size) (index : Nat) : vector.reset.isSet index = false := by
  unfold Stamped.reset
  dsimp only
  split
  · by_cases inside : index < vector.stamps.size <;> simp [isSet, inside]
  · rename_i more
    apply Bool.eq_false_iff.mpr
    intro isSet
    obtain ⟨inside, current⟩ : ∃ inside : index < vector.stamps.size,
        vector.stamps[index] = vector.current + 1 := by
      simpa [Stamped.isSet, Array.getElem?_eq_some_iff] using isSet
    have past := valid.stamp_le _ (Array.getElem_mem inside)
    rw [current, toNat_current_succ more] at past
    omega

/-- A reset puts the default into every place. -/
theorem Valid.get_reset {vector : Stamped β} {size : Nat}
    (valid : vector.Valid size) (index : Nat) :
    vector.reset.get index = vector.default := by
  rw [get, valid.isSet_reset]
  simp

@[simp]
theorem isSet_make (size : Nat) (default : β) (index : Nat) :
    (make size default).isSet index = false := by
  by_cases inside : index < size <;> simp [isSet, make, inside]

@[simp]
theorem get_make (size : Nat) (default : β) (index : Nat) :
    (make size default).get index = default := by
  rw [get, isSet_make]
  rfl

theorem Valid.get_set {vector : Stamped β} {size : Nat} (valid : vector.Valid size)
    {index : Nat} (inside : index < size) (value : β) (other : Nat) :
    (vector.set index value).get other =
      if other = index then value else vector.get other := by
  have data : index < vector.data.size := by rw [valid.data_size]; exact inside
  have stamps : index < vector.stamps.size := by rw [valid.stamps_size]; exact inside
  by_cases same : other = index
  · subst same
    simp [get, isSet, Stamped.set, data, stamps]
  · have apart : index ≠ other := fun equal => same equal.symm
    simp [get, isSet, Stamped.set, same, apart, Array.getD_eq_getD_getElem?]

theorem Valid.isSet_set {vector : Stamped β} {size : Nat} (valid : vector.Valid size)
    {index : Nat} (inside : index < size) (value : β) (other : Nat) :
    (vector.set index value).isSet other =
      if other = index then true else vector.isSet other := by
  have stamps : index < vector.stamps.size := by rw [valid.stamps_size]; exact inside
  by_cases same : other = index
  · subst same
    simp [isSet, Stamped.set, stamps]
  · have apart : index ≠ other := fun equal => same equal.symm
    simp [isSet, Stamped.set, same, apart]

/-- There is nothing to set outside of a vector. -/
theorem Valid.set_of_size_le {vector : Stamped β} {size : Nat} (valid : vector.Valid size)
    {index : Nat} (outside : size ≤ index) (value : β) : vector.set index value = vector := by
  have data : vector.data.size ≤ index := by rw [valid.data_size]; exact outside
  have stamps : vector.stamps.size ≤ index := by rw [valid.stamps_size]; exact outside
  rw [Stamped.set, Array.setIfInBounds_eq_of_size_le data,
    Array.setIfInBounds_eq_of_size_le stamps]

/-- An entry counts as set once it is set, and the others count as before. -/
theorem Valid.isSet_set_iff {vector : Stamped β} {size : Nat} (valid : vector.Valid size)
    {other : Nat} (inside : other < size) (index : Nat) (value : β) :
    (vector.set index value).isSet other = true ↔
      other = index ∨ vector.isSet other = true := by
  by_cases written : index < size
  · rw [valid.isSet_set written]
    by_cases same : other = index <;> simp [same]
  · have apart : other ≠ index := fun equal => written (equal ▸ inside)
    rw [valid.set_of_size_le (Nat.le_of_not_lt written)]
    simp [apart]

/-- Vectors of one size that nothing but their stamps tells apart. -/
structure Alike (size : Nat) (left right : Stamped β) : Prop where
  leftValid : left.Valid size
  rightValid : right.Valid size
  get_eq : ∀ index, left.get index = right.get index

theorem Alike.set {left right : Stamped β} {size : Nat} (alike : Alike size left right)
    (index : Nat) (value : β) : Alike size (left.set index value) (right.set index value) where
  leftValid := alike.leftValid.set index value
  rightValid := alike.rightValid.set index value
  get_eq other := by
    by_cases inside : index < size
    · rw [alike.leftValid.get_set inside, alike.rightValid.get_set inside, alike.get_eq]
    · have outside : size ≤ index := Nat.le_of_not_lt inside
      rw [alike.leftValid.set_of_size_le outside, alike.rightValid.set_of_size_le outside,
        alike.get_eq]

end JourneyTimes.Stamped
