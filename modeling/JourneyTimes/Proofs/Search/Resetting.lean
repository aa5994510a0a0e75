import JourneyTimes.Proofs.Search.Stamped
import Mathlib.Data.List.Basic
import Mathlib.Data.List.Induction

/-!
# Stamped vectors are plain vectors

A plain vector keeps a mark beside every entry.  Resetting it goes through all of it, puts the
default into every entry and takes every mark away.

Whoever reads a stamped vector reads such a plain vector, however often it is reset.  The
generations run from one to the largest word and then begin anew, so a generation comes back
after every `2 ^ 32 - 1` resets.  Its stamps have been cleared by then: a stamp of the current
generation always belongs to an entry that was set since the last reset.
-/

namespace JourneyTimes

/-- What can be done to a vector. -/
inductive Stamped.Change (β : Type) where
  | set (index : Nat) (value : β)
  | reset
deriving Repr, DecidableEq

/-- A vector in which every entry is marked if it has been set. -/
structure PlainVector (β : Type) where
  entries : Array β
  marks : Array Bool
  default : β
deriving Repr, DecidableEq

variable {β : Type}

namespace PlainVector

/-- A vector in which nothing is set. -/
def make (size : Nat) (default : β) : PlainVector β :=
  { entries := Array.replicate size default
    marks := Array.replicate size false
    default }

/-- Overwrite every entry and every mark. -/
def reset (vector : PlainVector β) : PlainVector β :=
  { vector with
    entries := vector.entries.map fun _ => vector.default
    marks := vector.marks.map fun _ => false }

/-- Set an entry and mark it.  Outside of the vector there is nothing to set. -/
def set (vector : PlainVector β) (index : Nat) (value : β) : PlainVector β :=
  { vector with
    entries := vector.entries.setIfInBounds index value
    marks := vector.marks.setIfInBounds index true }

theorem set_of_size_le {vector : PlainVector β} {index : Nat}
    (entries : vector.entries.size ≤ index) (marks : vector.marks.size ≤ index) (value : β) :
    vector.set index value = vector := by
  rw [set, Array.setIfInBounds_eq_of_size_le entries, Array.setIfInBounds_eq_of_size_le marks]

/-- Make a change. -/
def perform (vector : PlainVector β) : Stamped.Change β → PlainVector β
  | .set index value => vector.set index value
  | .reset => vector.reset

/-- The vector after some changes. -/
def after (vector : PlainVector β) (changes : List (Stamped.Change β)) : PlainVector β :=
  changes.foldl perform vector

end PlainVector

namespace Stamped

/-- Make a change. -/
def perform (vector : Stamped β) : Change β → Stamped β
  | .set index value => vector.set index value
  | .reset => vector.reset

/-- The vector after some changes. -/
def after (vector : Stamped β) (changes : List (Change β)) : Stamped β :=
  changes.foldl perform vector

theorem after_append (vector : Stamped β) (changes : List (Change β)) (change : Change β) :
    vector.after (changes ++ [change]) = (vector.after changes).perform change :=
  List.foldl_concat ..

variable {vector : Stamped β} {size : Nat}

theorem Valid.perform (valid : vector.Valid size) (change : Change β) :
    (vector.perform change).Valid size := by
  cases change with
  | set index value => exact valid.set index value
  | reset => exact valid.reset

theorem Valid.after (valid : vector.Valid size) (changes : List (Change β)) :
    (vector.after changes).Valid size := by
  induction changes generalizing vector with
  | nil => exact valid
  | cons change changes ih => exact ih (valid.perform change)

/-! ## The plain vector that is read -/

/-- The plain vector that holds what a stamped vector shows. -/
def toPlain (vector : Stamped β) : PlainVector β :=
  { entries := (Array.range vector.size).map vector.get
    marks := (Array.range vector.size).map vector.isSet
    default := vector.default }

theorem Valid.entries_toPlain (valid : vector.Valid size) {index : Nat} (inside : index < size) :
    vector.toPlain.entries[index]? = some (vector.get index) := by
  simp [toPlain, valid.size_eq, inside]

theorem Valid.marks_toPlain (valid : vector.Valid size) {index : Nat} (inside : index < size) :
    vector.toPlain.marks[index]? = some (vector.isSet index) := by
  simp [toPlain, valid.size_eq, inside]

/-- Writing into a table of values changes the value at that place. -/
theorem setIfInBounds_map_range {γ : Type} (shown : Nat → γ) (size index : Nat) (value : γ) :
    ((Array.range size).map shown).setIfInBounds index value =
      (Array.range size).map fun other => if other = index then value else shown other := by
  refine Array.ext_getElem? fun other => ?_
  rw [Array.getElem?_setIfInBounds]
  by_cases inside : other < size
  · by_cases same : index = other
    · simp [same, inside]
    · simp [same, inside, Ne.symm same]
  · simpa [inside] using fun same : index = other => same ▸ Nat.le_of_not_lt inside

theorem toPlain_make (size : Nat) (default : β) :
    (make size default).toPlain = PlainVector.make size default := by
  have get_eq : (make size default).get = fun _ => default := funext (get_make size default)
  have isSet_eq : (make size default).isSet = fun _ => false := funext (isSet_make size default)
  rw [toPlain, size_make, get_eq, isSet_eq, Array.map_const', Array.map_const', Array.size_range]
  rfl

theorem Valid.toPlain_reset (valid : vector.Valid size) :
    vector.reset.toPlain = vector.toPlain.reset := by
  have get_eq : vector.reset.get = fun _ => vector.default := funext valid.get_reset
  have isSet_eq : vector.reset.isSet = fun _ => false := funext valid.isSet_reset
  rw [toPlain, size_reset, get_eq, isSet_eq, default_reset, toPlain, PlainVector.reset,
    Array.map_map, Array.map_map]
  rfl

theorem Valid.toPlain_set (valid : vector.Valid size) (index : Nat) (value : β) :
    (vector.set index value).toPlain = vector.toPlain.set index value := by
  by_cases inside : index < size
  · -- What is shown changes at one place, and so do the tables of what is shown.
    have get_eq := funext (valid.get_set inside value)
    have isSet_eq := funext (valid.isSet_set inside value)
    rw [toPlain, size_set, get_eq, isSet_eq, default_set, toPlain, PlainVector.set,
      setIfInBounds_map_range, setIfInBounds_map_range]
  · have outside : size ≤ index := Nat.le_of_not_lt inside
    rw [valid.set_of_size_le outside, PlainVector.set_of_size_le]
    · simpa [toPlain, valid.size_eq] using outside
    · simpa [toPlain, valid.size_eq] using outside

/-- A change to a stamped vector changes what it shows as it changes a plain vector. -/
theorem Valid.toPlain_perform (valid : vector.Valid size) (change : Change β) :
    (vector.perform change).toPlain = vector.toPlain.perform change := by
  cases change with
  | set index value => exact valid.toPlain_set index value
  | reset => exact valid.toPlain_reset

theorem Valid.toPlain_after (valid : vector.Valid size) (changes : List (Change β)) :
    (vector.after changes).toPlain = vector.toPlain.after changes := by
  induction changes generalizing vector with
  | nil => rfl
  | cons change changes ih =>
      show ((vector.perform change).after changes).toPlain =
        (vector.toPlain.perform change).after changes
      rw [ih (valid.perform change), valid.toPlain_perform]

/-! ## Generations -/

/-- Whether a change is a reset. -/
def Change.isReset : Change β → Bool
  | .set _ _ => false
  | .reset => true

/-- The generations are counted on, and begin anew when they run out. -/
theorem toNat_current_reset (vector : Stamped β) :
    vector.reset.current.toNat = vector.current.toNat % (UInt32.size - 1) + 1 := by
  have bound : vector.current.toNat < UInt32.size := vector.current.toNat_lt_size
  unfold Stamped.reset
  dsimp only
  split
  · -- Zero is passed over, so the last generation is followed by the first.
    rename_i wraps
    have last : (vector.current.toNat + 1) % UInt32.size = 0 := by
      simpa [UInt32.toNat_add] using congrArg UInt32.toNat wraps
    have largest : vector.current.toNat = UInt32.size - 1 := by
      have divides : UInt32.size ∣ vector.current.toNat + 1 := Nat.dvd_of_mod_eq_zero last
      have least := Nat.le_of_dvd (Nat.succ_pos _) divides
      omega
    rw [largest, Nat.mod_self]
    rfl
  · rename_i more
    have next : (vector.current + 1).toNat < UInt32.size := (vector.current + 1).toNat_lt_size
    rw [toNat_current_succ more] at next ⊢
    rw [Nat.mod_eq_of_lt (by omega)]

theorem toNat_current_after (size : Nat) (default : β) (changes : List (Change β)) :
    ((make size default).after changes).current.toNat =
      changes.countP Change.isReset % (UInt32.size - 1) + 1 := by
  induction changes using List.reverseRecOn with
  | nil => rfl
  | append_singleton changes change ih =>
      rw [after_append, List.countP_append]
      cases change with
      | set index value => exact ih
      | reset =>
          show ((make size default).after changes).reset.current.toNat = _
          rw [toNat_current_reset, ih, Nat.mod_add_mod]
          rfl

/-- When the generations run out, neither the entries of the last one nor those of the first
still count as set. -/
example :
    let last : Stamped Bool := { (make 2 false).set 0 true with current := 4294967295 }
    let vector := (last.set 1 true).reset
    vector.current = 1 ∧ vector.isSet 0 = false ∧ vector.isSet 1 = false ∧
      (vector.set 0 true).get 0 = true := by
  decide

/-! ## Entries set since the last reset -/

/-- An entry was set, and there was no reset afterwards. -/
def IsSetSinceReset (changes : List (Change β)) (index : Nat) : Prop :=
  ∃ value later, .set index value :: later <:+ changes ∧
    ∀ change ∈ later, change.isReset = false

theorem isSetSinceReset_append {changes : List (Change β)} {change : Change β} {index : Nat} :
    IsSetSinceReset (changes ++ [change]) index ↔
      (∃ value, change = .set index value) ∨
        change.isReset = false ∧ IsSetSinceReset changes index := by
  constructor
  · rintro ⟨value, later, isSuffix, noReset⟩
    rcases List.suffix_concat_iff.mp isSuffix with empty | ⟨earlier, split, isEarlier⟩
    · cases empty
    · cases earlier with
      | nil =>
          cases split
          exact .inl ⟨value, rfl⟩
      | cons first earlier =>
          cases split
          exact .inr ⟨noReset change (by simp), value, earlier, isEarlier,
            fun other member => noReset other (by simp [member])⟩
  · rintro (⟨value, rfl⟩ | ⟨isSet, value, later, ⟨earlier, rfl⟩, noReset⟩)
    · exact ⟨value, [], ⟨changes, rfl⟩, by simp⟩
    · refine ⟨value, later ++ [change], ⟨earlier, by simp⟩, fun other member => ?_⟩
      rcases List.mem_append.mp member with old | last
      · exact noReset other old
      · rw [List.mem_singleton.mp last]
        exact isSet

/-- The entries that count as set are those that were set since the last reset. -/
theorem isSet_after (default : β) (changes : List (Change β)) {index : Nat}
    (inside : index < size) :
    ((make size default).after changes).isSet index = true ↔ IsSetSinceReset changes index := by
  induction changes using List.reverseRecOn with
  | nil => simp [after, IsSetSinceReset]
  | append_singleton changes change ih =>
      have valid := (valid_make size default).after changes
      rw [after_append, isSetSinceReset_append]
      cases change with
      | set other value =>
          have same_iff : (∃ written, Change.set other value = .set index written) ↔
              index = other := by
            simp [eq_comm (a := index)]
          show (((make size default).after changes).set other value).isSet index = true ↔ _
          rw [valid.isSet_set_iff inside, same_iff, ih]
          simp [Change.isReset]
      | reset =>
          show ((make size default).after changes).reset.isSet index = true ↔ _
          rw [valid.isSet_reset]
          simp [Change.isReset]

/-- A vector after some changes shows what a plain vector holds after them. -/
structure ResetsFully (size : Nat) (default : β) (changes : List (Change β))
    (vector : Stamped β) : Prop where
  size_eq : vector.size = size
  /-- An entry has the value that the plain vector holds. -/
  entries_eq : ∀ index < size,
    ((PlainVector.make size default).after changes).entries[index]? = some (vector.get index)
  /-- An entry counts as set if the plain vector marks it. -/
  marks_eq : ∀ index < size,
    ((PlainVector.make size default).after changes).marks[index]? = some (vector.isSet index)
  /-- No stamp lies ahead of the generation. -/
  stamp_le : ∀ stamp ∈ vector.stamps, stamp ≤ vector.current
  /-- Only entries set since the last reset have stamps of the generation. -/
  stamp_eq_iff : ∀ index < size,
    vector.stamps[index]? = some vector.current ↔ IsSetSinceReset changes index
  /-- The generations run from one to the largest word and begin anew after it. -/
  current_eq : vector.current.toNat = changes.countP Change.isReset % (UInt32.size - 1) + 1

/-- However often a stamped vector is reset and whatever is set in it, it shows what a vector
shows that a reset overwrites. -/
theorem after_resetsFully (size : Nat) (default : β) (changes : List (Change β)) :
    ((make size default).after changes).ResetsFully size default changes := by
  have valid := (valid_make size default).after changes
  have plain : ((make size default).after changes).toPlain =
      (PlainVector.make size default).after changes := by
    rw [(valid_make size default).toPlain_after, toPlain_make]
  refine ⟨valid.size_eq, ?_, ?_, ?_, ?_, toNat_current_after size default changes⟩
  · intro index inside
    rw [← plain, valid.entries_toPlain inside]
  · intro index inside
    rw [← plain, valid.marks_toPlain inside]
  · intro stamp member
    exact UInt32.le_iff_toNat_le.mpr (valid.stamp_le stamp member)
  · intro index inside
    rw [← isSet_after default changes inside, isSet, beq_iff_eq]

end Stamped

end JourneyTimes
