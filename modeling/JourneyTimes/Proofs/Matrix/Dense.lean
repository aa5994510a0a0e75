import JourneyTimes.Matrix.Dense
import JourneyTimes.Proofs.Outcome
import Mathlib.Data.List.Induction
import Mathlib.Data.List.Nodup
import Mathlib.Tactic.SplitIfs

/-!
# Rows of dense matrices

A matrix files every zone under its position, and nothing else.  Writing a row
replaces the cells of one position and leaves all other ones, so rows of different
zones may be written in any order.
-/

namespace JourneyTimes.Matrix

variable {ζ α : Type} [BEq ζ] [Hashable ζ]

/-- Zones are filed under their positions. -/
structure Indexed (zones : Array ζ) (positions : Std.HashMap ζ Nat) : Prop where
  nodup : zones.toList.Nodup
  position_iff : ∀ (zone : ζ) (position : Nat),
    positions[zone]? = some position ↔ zones[position]? = some zone

section

variable [LawfulBEq ζ]

theorem Indexed.empty : Indexed (#[] : Array ζ) ∅ where
  nodup := List.nodup_nil
  position_iff := by simp

theorem Indexed.mem_iff {zones : Array ζ} {positions : Std.HashMap ζ Nat}
    (indexed : Indexed zones positions) {zone : ζ} :
    positions.contains zone = true ↔ zone ∈ zones := by
  rw [Std.HashMap.contains_eq_isSome_getElem?, Option.isSome_iff_exists, Array.mem_iff_getElem?]
  exact exists_congr fun position => indexed.position_iff zone position

theorem Indexed.addZone {known : Array ζ × Std.HashMap ζ Nat} (indexed : Indexed known.1 known.2)
    (zone : ζ) : Indexed (Matrix.addZone known zone).1 (Matrix.addZone known zone).2 := by
  unfold Matrix.addZone
  split_ifs with isKnown
  · exact indexed
  · have isNew : zone ∉ known.1 := fun member => isKnown (indexed.mem_iff.mpr member)
    refine ⟨?_, ?_⟩
    · rw [Array.toList_push, List.nodup_append]
      refine ⟨indexed.nodup, List.nodup_singleton zone, ?_⟩
      rintro other member _ new rfl
      rw [List.mem_singleton.mp new] at member
      exact isNew (Array.mem_toList_iff.mp member)
    · intro other position
      rw [Std.HashMap.getElem?_insert, Array.getElem?_push]
      by_cases isLast : position = known.1.size
      · rw [if_pos isLast, isLast]
        by_cases same : zone = other
        · simp [same]
        · have unfiled : known.2[other]? ≠ some known.1.size := by
            rw [Ne, indexed.position_iff]
            simp
          simp [same, unfiled]
      · rw [if_neg isLast, ← indexed.position_iff]
        by_cases same : zone = other
        · have unfiled : known.2[other]? ≠ some position := by
            rw [Ne, indexed.position_iff, ← same]
            exact fun found => isNew (Array.mem_of_getElem? found)
          simp [same, unfiled, Ne.symm isLast]
        · simp [same]

theorem Indexed.foldl_addZone {known : Array ζ × Std.HashMap ζ Nat}
    (indexed : Indexed known.1 known.2) (zones : List ζ) :
    Indexed (zones.foldl Matrix.addZone known).1 (zones.foldl Matrix.addZone known).2 := by
  induction zones generalizing known with
  | nil => exact indexed
  | cons zone zones ih => exact ih (indexed.addZone zone)

/-- Zones come out once each, in the order in which they came first. -/
theorem zones_foldl_addZone (zones : List ζ) :
    (zones.foldl Matrix.addZone (#[], ∅)).1.toList = zones.eraseDups := by
  induction zones using List.reverseRecOn with
  | nil => rfl
  | append_singleton zones zone ih =>
      have isKnown_iff :
          (zones.foldl Matrix.addZone (#[], ∅)).2.contains zone = true ↔ zone ∈ zones := by
        rw [(Indexed.empty.foldl_addZone zones).mem_iff, ← Array.mem_toList_iff, ih,
          List.mem_eraseDups]
      rw [List.foldl_concat, List.eraseDups_append, ← ih, Matrix.addZone]
      split_ifs with isKnown
      · have known := isKnown_iff.mp isKnown
        simp [List.removeAll, known]
      · have new := isKnown_iff.not.mp isKnown
        simp [List.removeAll, new, List.eraseDups_cons]

omit [Hashable ζ] in
theorem eraseDups_of_nodup {zones : List ζ} (nodup : zones.Nodup) : zones.eraseDups = zones := by
  induction zones with
  | nil => rfl
  | cons zone zones ih =>
      rcases List.nodup_cons.mp nodup with ⟨isNew, rest⟩
      have others : zones.filter (fun other => !other == zone) = zones := by
        refine List.filter_eq_self.mpr fun other member => ?_
        simpa using fun same : other = zone => isNew (same ▸ member)
      rw [List.eraseDups_cons, others, ih rest]

end

/-! ## Matrices over zones -/

/-- A matrix over some zones: it files each of them under its position, and has a row
for each of them. -/
structure IsOver (zones : List ζ) (matrix : Matrix ζ α) : Prop where
  zones_eq : matrix.zones.toList = zones
  indexed : Indexed matrix.zones matrix.positions
  rows_size : matrix.rows.size = zones.length

/-- The cells of the row of a zone. -/
def row? (matrix : Matrix ζ α) (zone : ζ) : Option (Array (Option α)) :=
  (matrix.position? zone).bind fun position => matrix.rows[position]?

/-- A new matrix is over the zones it is made for, each once. -/
theorem make_isOver_eraseDups [LawfulBEq ζ] (zones : List ζ) :
    (Matrix.make zones : Matrix ζ α).IsOver zones.eraseDups := by
  have zonesEq : (Matrix.make zones : Matrix ζ α).zones.toList = zones.eraseDups :=
    zones_foldl_addZone zones
  have rowsSize : (Matrix.make zones : Matrix ζ α).rows.size =
      (Matrix.make zones : Matrix ζ α).zones.size := Array.size_replicate
  refine ⟨zonesEq, Indexed.empty.foldl_addZone zones, ?_⟩
  rw [rowsSize, ← Array.length_toList, zonesEq]

theorem make_isOver [LawfulBEq ζ] {zones : List ζ} (nodup : zones.Nodup) :
    (Matrix.make zones : Matrix ζ α).IsOver zones := by
  have isOver : (Matrix.make zones : Matrix ζ α).IsOver zones.eraseDups :=
    make_isOver_eraseDups zones
  rwa [eraseDups_of_nodup nodup] at isOver

variable [ZoneName ζ] [Scalar α] {zones : List ζ} {matrix next : Matrix ζ α}

/-- Everything that writing a row does. -/
theorem setRow_eq_ok {origin : ζ} {values : List α} :
    matrix.setRow origin values = .ok next ↔ ∃ position,
      matrix.position? origin = some position ∧ values.length = matrix.zones.size ∧
      next =
        { matrix with
          rows := matrix.rows.setIfInBounds position (values.map cellOf).toArray } := by
  unfold setRow require
  cases found : matrix.position? origin with
  | none => simp [bind, Except.bind]
  | some position =>
      by_cases fits : values.length = matrix.zones.size
      · simp [fits, eq_comm, bind, Except.bind, pure, Except.pure]
      · simp [fits, bind, Except.bind, throw, throwThe, MonadExceptOf.throw]

namespace IsOver

theorem setRow (isOver : matrix.IsOver zones) {origin : ζ} {values : List α}
    (written : matrix.setRow origin values = .ok next) : next.IsOver zones := by
  rcases setRow_eq_ok.mp written with ⟨position, -, -, rfl⟩
  exact ⟨isOver.zones_eq, isOver.indexed, by simpa using isOver.rows_size⟩

/-- A row of the right length is written at the position of its zone. -/
theorem setRow_ok (isOver : matrix.IsOver zones) {origin : ζ} {position : Nat}
    (found : zones[position]? = some origin) {values : List α}
    (fits : values.length = zones.length) :
    ∃ next, matrix.setRow origin values = .ok next := by
  refine ⟨_, setRow_eq_ok.mpr ⟨position, ?_, ?_, rfl⟩⟩
  · refine (isOver.indexed.position_iff origin position).mpr ?_
    rwa [← isOver.zones_eq, Array.getElem?_toList] at found
  · rw [fits, ← isOver.zones_eq, Array.length_toList]

omit [ZoneName ζ] [Scalar α] in
/-- The position at which a zone is filed. -/
theorem position?_eq (isOver : matrix.IsOver zones) {zone : ζ} {position : Nat} :
    matrix.position? zone = some position ↔ zones[position]? = some zone := by
  rw [position?, isOver.indexed.position_iff, ← isOver.zones_eq, Array.getElem?_toList]

omit [ZoneName ζ] [Scalar α] in
theorem row?_eq (isOver : matrix.IsOver zones) {zone : ζ} {position : Nat}
    (found : zones[position]? = some zone) : matrix.row? zone = matrix.rows[position]? := by
  rw [row?, isOver.position?_eq.mpr found]
  rfl

omit [ZoneName ζ] [Scalar α] in
/-- The cell of two zones is the one at their positions. -/
theorem get?_eq (isOver : matrix.IsOver zones) {origin destination : ζ} {row column : Nat}
    (originFound : zones[row]? = some origin)
    (destinationFound : zones[column]? = some destination) :
    matrix.get? origin destination = matrix.cell? row column := by
  rw [get?, isOver.position?_eq.mpr originFound, isOver.position?_eq.mpr destinationFound]
  rfl

omit [ZoneName ζ] [Scalar α] in
/-- A matrix is complete if all cells of all rows are defined. -/
theorem isComplete (isOver : matrix.IsOver zones)
    (full : ∀ cells ∈ matrix.rows, cells.size = zones.length ∧ ∀ cell ∈ cells, cell.isSome = true) :
    matrix.isComplete = true := by
  have sizes : (matrix.rows.toList.map fun cells => cells.toList.length) =
      List.replicate zones.length zones.length := by
    refine List.eq_replicate_iff.mpr ⟨by simpa using isOver.rows_size, ?_⟩
    intro size member
    rcases List.mem_map.mp member with ⟨cells, cellsMember, rfl⟩
    exact (full cells (Array.mem_toList_iff.mp cellsMember)).1
  have defined : matrix.count = (matrix.rows.toList.flatMap Array.toList).length := by
    refine List.countP_eq_length.mpr ?_
    intro cell member
    rcases List.mem_flatMap.mp member with ⟨cells, cellsMember, cellMember⟩
    exact (full cells (Array.mem_toList_iff.mp cellsMember)).2 cell
      (Array.mem_toList_iff.mp cellMember)
  have zonesSize : matrix.zones.size = zones.length := by
    rw [← isOver.zones_eq, Array.length_toList]
  rw [Matrix.isComplete, defined, List.length_flatMap, sizes, List.sum_replicate_nat, zonesSize,
    beq_self_eq_true]

/-- The row that has been written. -/
theorem row?_setRow_self (isOver : matrix.IsOver zones) {origin : ζ} {values : List α}
    (written : matrix.setRow origin values = .ok next) :
    next.row? origin = some (values.map cellOf).toArray := by
  rcases setRow_eq_ok.mp written with ⟨position, filed, -, rfl⟩
  have inside : position < matrix.rows.size := by
    rw [isOver.rows_size]
    exact (List.getElem?_eq_some_iff.mp (isOver.position?_eq.mp filed)).1
  change (matrix.position? origin).bind _ = _
  rw [filed]
  exact Array.getElem?_setIfInBounds_self_of_lt inside

/-- Writing a row leaves the rows of all other zones. -/
theorem row?_setRow_of_ne (isOver : matrix.IsOver zones) {origin zone : ζ}
    (different : zone ≠ origin) {values : List α}
    (written : matrix.setRow origin values = .ok next) :
    next.row? zone = matrix.row? zone := by
  rcases setRow_eq_ok.mp written with ⟨position, filed, -, rfl⟩
  rw [row?, row?]
  change (matrix.position? zone).bind _ = _
  cases found : matrix.position? zone with
  | none => rfl
  | some other =>
      refine Array.getElem?_setIfInBounds_ne ?_
      rintro rfl
      rw [isOver.position?_eq] at filed found
      rw [filed] at found
      exact different (Option.some.inj found).symm

/-- Rows of different zones may be written in any order. -/
theorem setRow_comm (isOver : matrix.IsOver zones) {first second : ζ} (different : first ≠ second)
    {firstValues secondValues : List α} {last : Matrix ζ α}
    (firstWritten : matrix.setRow first firstValues = .ok next)
    (secondWritten : next.setRow second secondValues = .ok last) :
    ∃ other, matrix.setRow second secondValues = .ok other ∧
      other.setRow first firstValues = .ok last := by
  rcases setRow_eq_ok.mp firstWritten with ⟨row, filed, fits, rfl⟩
  rcases setRow_eq_ok.mp secondWritten with ⟨otherRow, otherFiled, otherFits, rfl⟩
  refine ⟨_, setRow_eq_ok.mpr ⟨otherRow, otherFiled, otherFits, rfl⟩,
    setRow_eq_ok.mpr ⟨row, filed, fits, ?_⟩⟩
  have apart : row ≠ otherRow := by
    rintro rfl
    have firstFound := isOver.position?_eq.mp filed
    have secondFound := isOver.position?_eq.mp otherFiled
    rw [firstFound] at secondFound
    exact different (Option.some.inj secondFound)
  simp only [mk.injEq, true_and]
  exact Array.setIfInBounds_comm _ _ apart

end IsOver

end JourneyTimes.Matrix
