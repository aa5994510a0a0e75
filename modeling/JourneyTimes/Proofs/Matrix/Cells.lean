import JourneyTimes.Numeral.Shortest
import JourneyTimes.Proofs.Matrix.Dense
import JourneyTimes.Proofs.Table.Csv
import JourneyTimes.Scalar.Double
import Mathlib.Data.Set.Card

/-!
# Dense matrices are partial maps

A matrix is written to in place: single cells, and whole rows in the order of the zones.  A
write that names a zone which the matrix lacks, or a row of the wrong length, is refused
before anything is changed.

Whatever has been written, a cell shows the value that was written to it last, unless that is
undefined.  The number of defined cells, and the table that a matrix is written as, are those
of this partial map.
-/

namespace JourneyTimes.Matrix

variable {ζ α : Type} [BEq ζ] [Hashable ζ] [ZoneName ζ] [Scalar α]

/-! ## Writes in place -/

/-- What can be written to a matrix. -/
inductive Write (ζ α : Type) where
  | cell (origin destination : ζ) (value : α)
  | row (origin : ζ) (values : List α)

/-- Look up a zone that the matrix in place must have. -/
def positionOf (zone : ζ) : EStateM Error (Matrix ζ α) Nat := do
  let matrix ← get
  match matrix.position? zone with
  | some position => pure position
  | none => throw (.unknownZone (ZoneName.shown zone))

/-- Write to a matrix in place.  Zones are looked up, the origin first, and the length of a row
is checked before anything is changed. -/
def Write.perform : Write ζ α → EStateM Error (Matrix ζ α) Unit
  | .cell origin destination value => do
    let row ← positionOf origin
    let column ← positionOf destination
    modify fun matrix =>
      { matrix with
        rows := matrix.rows.modify row (·.setIfInBounds column (cellOf value)) }
  | .row origin values => do
    let row ← positionOf origin
    let matrix ← get
    if values.length = matrix.zones.size then
      modify fun matrix =>
        { matrix with rows := matrix.rows.setIfInBounds row (values.map cellOf).toArray }
    else throw (.config (.rowLength values.length matrix.zones.size))

/-- What writing to a copy of a matrix gives. -/
def Write.result (matrix : Matrix ζ α) : Write ζ α → Except Error (Matrix ζ α)
  | .cell origin destination value => matrix.set origin destination value
  | .row origin values => matrix.setRow origin values

omit [Scalar α] in
theorem positionOf_eq (matrix : Matrix ζ α) (zone : ζ) :
    positionOf zone matrix =
      match matrix.require zone with
      | .ok position => .ok position matrix
      | .error error => .error error matrix := by
  show (match matrix.position? zone with
    | some position => pure position
    | none => throw (.unknownZone (ZoneName.shown zone)) :
    EStateM Error (Matrix ζ α) Nat) matrix = _
  rw [require]
  cases matrix.position? zone <;> rfl

/-- Writing in place gives what writing to a copy does, and a write that is refused changes
nothing. -/
theorem perform_eq (matrix : Matrix ζ α) (write : Write ζ α) :
    write.perform matrix =
      match write.result matrix with
      | .ok next => .ok () next
      | .error error => .error error matrix := by
  cases write with
  | cell origin destination value =>
      show EStateM.bind (positionOf origin) (fun row => EStateM.bind (positionOf destination)
        fun column => modify fun matrix =>
          { matrix with
            rows := matrix.rows.modify row (·.setIfInBounds column (cellOf value)) }) matrix = _
      rw [EStateM.bind, positionOf_eq, Write.result, set]
      cases matrix.require origin with
      | error error => rfl
      | ok row =>
          dsimp only
          rw [EStateM.bind, positionOf_eq]
          cases matrix.require destination <;> rfl
  | row origin values =>
      show EStateM.bind (positionOf origin) _ matrix = _
      rw [EStateM.bind, positionOf_eq, Write.result, setRow]
      cases matrix.require origin with
      | error error => rfl
      | ok row =>
          show (if values.length = matrix.zones.size then
              modify fun matrix =>
                { matrix with rows := matrix.rows.setIfInBounds row (values.map cellOf).toArray }
            else throw (.config (.rowLength values.length matrix.zones.size)) :
            EStateM Error (Matrix ζ α) Unit) matrix = _
          by_cases fits : values.length = matrix.zones.size
          · rw [if_pos fits, ok_bind, if_neg (not_not_intro fits)]
            rfl
          · rw [if_neg fits, ok_bind, if_pos fits]
            rfl

/-- The matrix that is left of a write, be it made or refused. -/
def afterWrite (matrix : Matrix ζ α) (write : Write ζ α) : Matrix ζ α :=
  match write.perform matrix with
  | .ok _ changed => changed
  | .error _ refused => refused

/-- The matrix after some writes. -/
def after (matrix : Matrix ζ α) (writes : List (Write ζ α)) : Matrix ζ α :=
  writes.foldl afterWrite matrix

theorem after_append (matrix : Matrix ζ α) (writes : List (Write ζ α)) (write : Write ζ α) :
    matrix.after (writes ++ [write]) = (matrix.after writes).afterWrite write :=
  List.foldl_concat ..

/-! ## The partial map -/

namespace Write

/-- Whether a write is accepted by a matrix over some zones. -/
def fits (zones : List ζ) : Write ζ α → Bool
  | .cell origin destination _ => zones.contains origin && zones.contains destination
  | .row origin values => zones.contains origin && values.length == zones.length

/-- The value that a write puts into the cell of two zones.  The values of a row go to the
zones one after another. -/
def value? (zones : List ζ) (origin destination : ζ) : Write ζ α → Option α
  | .cell first second value =>
    if first == origin && second == destination then some value else none
  | .row first values => if first == origin then (zones.zip values).lookup destination else none

end Write

/-- The value that was written last to the cell of two zones, by a write that was accepted. -/
def lastWritten? (zones : List ζ) (writes : List (Write ζ α)) (origin destination : ζ) :
    Option α :=
  ((writes.filter (·.fits zones)).filterMap (·.value? zones origin destination)).getLast?

theorem bind_cellOf (written : Option α) :
    written.bind cellOf = written.filter fun value => !Scalar.isUndefined value := by
  cases written with
  | none => rfl
  | some value =>
      rw [Option.bind_some, cellOf, Option.filter_some]
      cases Scalar.isUndefined value <;> rfl

/-- A matrix over some zones has a cell for any two of them. -/
structure IsSquare (zones : List ζ) (matrix : Matrix ζ α) : Prop extends
    IsOver zones matrix where
  cells_size : ∀ cells ∈ matrix.rows, cells.size = zones.length

section

variable {zones : List ζ} {matrix next : Matrix ζ α} {origin destination : ζ}

omit [ZoneName ζ] [Scalar α] in
theorem make_isSquare [LawfulBEq ζ] (zones : List ζ) :
    (make zones : Matrix ζ α).IsSquare zones.eraseDups := by
  have isOver : (make zones : Matrix ζ α).IsOver zones.eraseDups := make_isOver_eraseDups zones
  refine ⟨isOver, fun cells member => ?_⟩
  have empty : cells = Array.replicate (make zones : Matrix ζ α).zones.size none :=
    (Array.mem_replicate.mp member).2
  rw [empty, Array.size_replicate, ← Array.length_toList, isOver.zones_eq]

/-- Everything that writing to a cell does. -/
theorem set_eq_ok {value : α} :
    matrix.set origin destination value = .ok next ↔ ∃ row column,
      matrix.position? origin = some row ∧ matrix.position? destination = some column ∧
      next =
        { matrix with
          rows := matrix.rows.modify row (·.setIfInBounds column (cellOf value)) } := by
  unfold set require
  cases matrix.position? origin with
  | none => simp [bind, Except.bind]
  | some row =>
      cases matrix.position? destination with
      | none => simp [bind, Except.bind]
      | some column => simp [bind, Except.bind, pure, Except.pure, eq_comm]

omit [ZoneName ζ] [Scalar α] in
/-- The cell of two zones is the one at the position of the second in the row of the first. -/
theorem get?_eq_row? (matrix : Matrix ζ α) (origin destination : ζ) :
    matrix.get? origin destination = (matrix.row? origin).bind fun cells =>
      (matrix.position? destination).bind fun column => (cells[column]?).join := by
  unfold get? row? cell?
  cases matrix.position? origin with
  | none => rfl
  | some row => cases matrix.position? destination <;> simp

omit [Hashable ζ] [ZoneName ζ] [Scalar α] in
/-- A zone is paired with the value at its position. -/
theorem lookup_zip [LawfulBEq ζ] (nodup : zones.Nodup) {position : Nat}
    (found : zones[position]? = some destination) (values : List α) :
    (zones.zip values).lookup destination = values[position]? := by
  induction zones generalizing position values with
  | nil => cases found
  | cons zone zones ih =>
      cases values with
      | nil => rfl
      | cons value values =>
          rcases List.nodup_cons.mp nodup with ⟨isNew, rest⟩
          rw [List.zip_cons_cons, List.lookup_cons]
          cases position with
          | zero =>
              have same : zone = destination := by simpa using found
              simp [same]
          | succ position =>
              rw [List.getElem?_cons_succ] at found ⊢
              have different : (destination == zone) = false := by
                refine beq_eq_false_iff_ne.mpr ?_
                rintro rfl
                exact isNew (List.mem_of_getElem? found)
              rw [different]
              exact ih rest found values

namespace IsSquare

variable (isSquare : matrix.IsSquare zones)
include isSquare

omit [ZoneName ζ] [Scalar α] in
theorem nodup : zones.Nodup :=
  isSquare.zones_eq ▸ isSquare.indexed.nodup

omit [ZoneName ζ] [Scalar α] in
/-- Zones are those that have a position. -/
theorem exists_position? {zone : ζ} (member : zone ∈ zones) :
    ∃ position, matrix.position? zone = some position ∧ zones[position]? = some zone := by
  rcases List.mem_iff_getElem?.mp member with ⟨position, found⟩
  exact ⟨position, isSquare.position?_eq.mpr found, found⟩

omit [ZoneName ζ] [Scalar α] in
theorem position?_of_not_mem {zone : ζ} (absent : zone ∉ zones) :
    matrix.position? zone = none := by
  cases found : matrix.position? zone with
  | none => rfl
  | some position =>
      exact (absent (List.mem_of_getElem? (isSquare.position?_eq.mp found))).elim

omit [ZoneName ζ] [Scalar α] in
theorem exists_row? {zone : ζ} (member : zone ∈ zones) :
    ∃ cells, matrix.row? zone = some cells ∧ cells.size = zones.length := by
  rcases isSquare.exists_position? member with ⟨position, filed, found⟩
  have inside : position < matrix.rows.size := by
    rw [isSquare.rows_size]
    exact (List.getElem?_eq_some_iff.mp found).1
  refine ⟨matrix.rows[position], ?_, isSquare.cells_size _ (Array.getElem_mem inside)⟩
  rw [isSquare.row?_eq found, Array.getElem?_eq_getElem inside]

omit [ZoneName ζ] [Scalar α] in
/-- Outside of the zones there are no cells. -/
theorem get?_of_not_mem (absent : origin ∉ zones ∨ destination ∉ zones) :
    matrix.get? origin destination = none := by
  rw [get?_eq_row?]
  rcases absent with absent | absent
  · rw [row?, isSquare.position?_of_not_mem absent]
    rfl
  · rw [isSquare.position?_of_not_mem absent]
    cases matrix.row? origin <;> rfl

/-! ### One write -/

theorem set {value : α} (written : matrix.set origin destination value = .ok next) :
    next.IsSquare zones := by
  rcases set_eq_ok.mp written with ⟨row, column, -, -, rfl⟩
  refine ⟨⟨isSquare.zones_eq, isSquare.indexed, by simpa using isSquare.rows_size⟩, ?_⟩
  intro cells member
  rcases Array.mem_iff_getElem?.mp member with ⟨position, found⟩
  rw [Array.getElem?_modify] at found
  split_ifs at found with isRow
  · rcases Option.map_eq_some_iff.mp found with ⟨before, there, rfl⟩
    rw [Array.size_setIfInBounds]
    exact isSquare.cells_size before (Array.mem_of_getElem? there)
  · exact isSquare.cells_size cells (Array.mem_of_getElem? found)

theorem setRow {values : List α} (written : matrix.setRow origin values = .ok next) :
    next.IsSquare zones := by
  refine ⟨isSquare.toIsOver.setRow written, ?_⟩
  rcases setRow_eq_ok.mp written with ⟨row, -, fits, rfl⟩
  intro cells member
  rcases Array.mem_or_eq_of_mem_setIfInBounds member with there | rfl
  · exact isSquare.cells_size cells there
  · rw [List.size_toArray, List.length_map, fits, ← Array.length_toList, isSquare.zones_eq]

variable [LawfulBEq ζ]

omit [ZoneName ζ] [Scalar α] [LawfulBEq ζ] in
/-- Different zones have different positions. -/
theorem position_eq_iff {position other : Nat} {first second : ζ}
    (filed : matrix.position? first = some position)
    (otherFiled : matrix.position? second = some other) : position = other ↔ first = second := by
  constructor
  · rintro rfl
    rw [isSquare.position?_eq] at filed otherFiled
    exact Option.some.inj (filed.symm.trans otherFiled)
  · rintro rfl
    exact Option.some.inj (filed.symm.trans otherFiled)

/-- Writing to a cell changes its row alone. -/
theorem row?_set {value : α} (written : matrix.set origin destination value = .ok next)
    {column : Nat} (filed : matrix.position? destination = some column) (zone : ζ) :
    next.row? zone =
      if origin == zone then (matrix.row? zone).map (·.setIfInBounds column (cellOf value))
      else matrix.row? zone := by
  rcases set_eq_ok.mp written with ⟨row, other, originFiled, otherFiled, rfl⟩
  obtain rfl : other = column := Option.some.inj (otherFiled.symm.trans filed)
  rw [row?, row?]
  change (matrix.position? zone).bind (fun position => (matrix.rows.modify row _)[position]?) = _
  cases found : matrix.position? zone with
  | none => simp
  | some position =>
      rw [Option.bind_some, Option.bind_some, Array.getElem?_modify]
      by_cases same : origin = zone
      · rw [if_pos ((isSquare.position_eq_iff originFiled found).mpr same),
          if_pos (beq_iff_eq.mpr same)]
      · rw [if_neg ((isSquare.position_eq_iff originFiled found).not.mpr same),
          if_neg (by simpa using same)]

/-- Writing to a cell changes this cell alone. -/
theorem get?_set {value : α} (written : matrix.set origin destination value = .ok next)
    (first second : ζ) :
    next.get? first second =
      if origin == first && destination == second then cellOf value
      else matrix.get? first second := by
  rcases set_eq_ok.mp written with ⟨row, column, originFiled, destinationFiled, made⟩
  have samePosition : next.position? second = matrix.position? second := by rw [made]; rfl
  rw [get?_eq_row?, samePosition, isSquare.row?_set written destinationFiled,
    get?_eq_row? matrix]
  by_cases same : origin = first
  · subst same
    have member : origin ∈ zones :=
      List.mem_of_getElem? (isSquare.position?_eq.mp originFiled)
    rcases isSquare.exists_row? member with ⟨cells, found, size⟩
    rw [found, beq_self_eq_true, if_pos rfl, Option.map_some, Option.bind_some, Option.bind_some]
    by_cases sameColumn : destination = second
    · subst sameColumn
      have inside : column < cells.size := by
        rw [size]
        exact (List.getElem?_eq_some_iff.mp (isSquare.position?_eq.mp destinationFiled)).1
      simp [destinationFiled, inside]
    · have different : (destination == second) = false := beq_eq_false_iff_ne.mpr sameColumn
      cases filed : matrix.position? second with
      | none => simp [different]
      | some position =>
          have apart : column ≠ position :=
            (isSquare.position_eq_iff destinationFiled filed).not.mpr sameColumn
          simp [different, Array.getElem?_setIfInBounds_ne apart]
  · have different : (origin == first) = false := beq_eq_false_iff_ne.mpr same
    simp [different]

/-- Writing a row changes the cells of this row alone. -/
theorem get?_setRow {values : List α} (written : matrix.setRow origin values = .ok next)
    (first second : ζ) :
    next.get? first second =
      if origin == first then ((zones.zip values).lookup second).bind cellOf
      else matrix.get? first second := by
  have samePosition : next.position? second = matrix.position? second := by
    rcases setRow_eq_ok.mp written with ⟨_, _, _, rfl⟩
    rfl
  rw [get?_eq_row?, samePosition]
  by_cases same : origin = first
  · subst same
    rw [isSquare.row?_setRow_self written, beq_self_eq_true, if_pos rfl, Option.bind_some]
    by_cases member : second ∈ zones
    · rcases isSquare.exists_position? member with ⟨column, filed, found⟩
      rw [filed, lookup_zip isSquare.nodup found]
      simp only [Option.bind_some, List.getElem?_toArray, List.getElem?_map]
      cases values[column]? <;> rfl
    · have unpaired : (zones.zip values).lookup second = none := by
        refine List.lookup_eq_none_iff.mpr fun pair paired => ?_
        refine bne_iff_ne.mpr ?_
        rintro rfl
        exact member (List.of_mem_zip paired).1
      rw [isSquare.position?_of_not_mem member, unpaired]
      rfl
  · rw [isSquare.row?_setRow_of_ne (Ne.symm same) written, if_neg (by simpa using same),
      get?_eq_row? matrix]

variable {write : Write ζ α}

/-- A write is made exactly if it fits the zones. -/
theorem fits_iff : write.fits zones = true ↔ ∃ next, write.result matrix = .ok next := by
  cases write with
  | cell origin destination value =>
      simp only [Write.fits, Write.result, Bool.and_eq_true, List.contains_iff_mem]
      constructor
      · rintro ⟨originMember, destinationMember⟩
        rcases isSquare.exists_position? originMember with ⟨row, originFiled, -⟩
        rcases isSquare.exists_position? destinationMember with ⟨column, destinationFiled, -⟩
        exact ⟨_, set_eq_ok.mpr ⟨row, column, originFiled, destinationFiled, rfl⟩⟩
      · rintro ⟨next, written⟩
        rcases set_eq_ok.mp written with ⟨row, column, originFiled, destinationFiled, -⟩
        exact ⟨List.mem_of_getElem? (isSquare.position?_eq.mp originFiled),
          List.mem_of_getElem? (isSquare.position?_eq.mp destinationFiled)⟩
  | row origin values =>
      simp only [Write.fits, Write.result, Bool.and_eq_true, List.contains_iff_mem, beq_iff_eq]
      constructor
      · rintro ⟨member, length⟩
        rcases isSquare.exists_position? member with ⟨row, -, found⟩
        exact isSquare.setRow_ok found length
      · rintro ⟨next, written⟩
        rcases setRow_eq_ok.mp written with ⟨row, filed, length, -⟩
        refine ⟨List.mem_of_getElem? (isSquare.position?_eq.mp filed), ?_⟩
        rw [length, ← Array.length_toList, isSquare.zones_eq]

omit [LawfulBEq ζ] in
theorem result (made : write.result matrix = .ok next) : next.IsSquare zones := by
  cases write with
  | cell origin destination value => exact isSquare.set made
  | row origin values => exact isSquare.setRow made

/-- A write that is made changes the cells that it has a value for. -/
theorem get?_result (made : write.result matrix = .ok next) (first second : ζ) :
    next.get? first second =
      match write.value? zones first second with
      | some value => cellOf value
      | none => matrix.get? first second := by
  cases write with
  | cell origin destination value =>
      rw [isSquare.get?_set made, Write.value?]
      cases origin == first && destination == second <;> rfl
  | row origin values =>
      rw [isSquare.get?_setRow made, Write.value?]
      by_cases isRow : (origin == first) = true
      · rw [if_pos isRow, if_pos isRow]
        cases paired : (zones.zip values).lookup second with
        | some value => rfl
        | none =>
            refine (isSquare.get?_of_not_mem (.inr fun member => ?_)).symm
            rcases isSquare.exists_position? member with ⟨column, -, found⟩
            rcases setRow_eq_ok.mp made with ⟨row, -, length, -⟩
            rw [lookup_zip isSquare.nodup found, List.getElem?_eq_none_iff, length,
              ← Array.length_toList, isSquare.zones_eq] at paired
            exact absurd (List.getElem?_eq_some_iff.mp found).1 (Nat.not_lt.mpr paired)
      · rw [if_neg isRow, if_neg isRow]

/-- A write that does not fit changes nothing. -/
theorem perform_of_not_fits (refused : write.fits zones = false) :
    ∃ error, write.perform matrix = .error error matrix ∧
      write.result matrix = .error error := by
  cases made : write.result matrix with
  | ok next =>
      rw [isSquare.fits_iff.mpr ⟨next, made⟩] at refused
      cases refused
  | error error =>
      rw [perform_eq, made]
      exact ⟨error, rfl, rfl⟩

theorem afterWrite_of_fits (fits : write.fits zones = true) :
    write.perform matrix = .ok () (matrix.afterWrite write) ∧
      write.result matrix = .ok (matrix.afterWrite write) := by
  rcases isSquare.fits_iff.mp fits with ⟨next, made⟩
  rw [afterWrite, perform_eq, made]
  exact ⟨rfl, rfl⟩

theorem afterWrite_of_not_fits (refused : write.fits zones = false) :
    matrix.afterWrite write = matrix := by
  rcases isSquare.perform_of_not_fits refused with ⟨error, performed, -⟩
  rw [afterWrite, performed]

end IsSquare

/-! ### Any number of writes -/

omit [Hashable ζ] [ZoneName ζ] [Scalar α] in
theorem lastWritten?_append (zones : List ζ) (writes : List (Write ζ α)) (write : Write ζ α)
    (origin destination : ζ) :
    lastWritten? zones (writes ++ [write]) origin destination =
      ((if write.fits zones then write.value? zones origin destination else none).or
        (lastWritten? zones writes origin destination)) := by
  unfold lastWritten?
  rw [List.filter_append, List.filterMap_append, List.getLast?_append]
  cases fits : write.fits zones with
  | false => simp [fits]
  | true => cases given : write.value? zones origin destination <;> simp [fits, given]

omit [ZoneName ζ] [Scalar α] in
/-- No cell of a new matrix is defined. -/
theorem get?_make (zones : List ζ) (origin destination : ζ) :
    (make zones : Matrix ζ α).get? origin destination = none := by
  rw [get?_eq_row?]
  cases found : (make zones : Matrix ζ α).row? origin with
  | none => rfl
  | some cells =>
      rcases Option.bind_eq_some_iff.mp found with ⟨row, -, there⟩
      have empty : cells = Array.replicate (make zones : Matrix ζ α).zones.size none :=
        (Array.mem_replicate.mp (Array.mem_of_getElem? there)).2
      cases (make zones : Matrix ζ α).position? destination with
      | none => rfl
      | some column =>
          rw [Option.bind_some, Option.bind_some, empty, Array.getElem?_replicate]
          split_ifs <;> rfl

theorem after_isSquare [LawfulBEq ζ] (zones : List ζ) (writes : List (Write ζ α)) :
    ((make zones : Matrix ζ α).after writes).IsSquare zones.eraseDups := by
  induction writes using List.reverseRecOn with
  | nil => exact make_isSquare zones
  | append_singleton writes write ih =>
      rw [after_append]
      cases fits : write.fits zones.eraseDups with
      | true => exact ih.result (ih.afterWrite_of_fits fits).2
      | false => rwa [ih.afterWrite_of_not_fits fits]

theorem get?_after [LawfulBEq ζ] (zones : List ζ) (writes : List (Write ζ α))
    (origin destination : ζ) :
    ((make zones : Matrix ζ α).after writes).get? origin destination =
      (lastWritten? zones.eraseDups writes origin destination).bind cellOf := by
  induction writes using List.reverseRecOn with
  | nil => exact get?_make zones origin destination
  | append_singleton writes write ih =>
      have isSquare := after_isSquare zones writes
      rw [after_append, lastWritten?_append]
      cases fits : write.fits zones.eraseDups with
      | true =>
          rw [isSquare.get?_result (isSquare.afterWrite_of_fits fits).2, if_pos rfl]
          cases write.value? zones.eraseDups origin destination with
          | some value => rfl
          | none => exact ih
      | false =>
          rw [isSquare.afterWrite_of_not_fits fits]
          exact ih

/-! ## All cells together -/

/-- What passes a check is counted by a list that has it all once. -/
theorem ncard_setOf_eq_countP {β : Type} {items : List β} (nodup : items.Nodup)
    {check : β → Bool} (listed : ∀ item, check item = true → item ∈ items) :
    Set.ncard {item | check item = true} = items.countP check := by
  classical
  have same : {item | check item = true} = ((items.filter check).toFinset : Set β) := by
    ext item
    simpa using listed item
  rw [same, Set.ncard_coe_finset, List.toFinset_card_of_nodup (nodup.filter _),
    List.countP_eq_length_filter]

theorem zip_map_self {β γ : Type} (items : List β) (given : β → γ) :
    items.zip (items.map given) = items.map fun item => (item, given item) := by
  induction items with
  | nil => rfl
  | cons item items ih => rw [List.map_cons, List.zip_cons_cons, ih, List.map_cons]

namespace IsSquare

variable (isSquare : matrix.IsSquare zones)
include isSquare

omit [ZoneName ζ] [Scalar α] in
/-- The rows of a matrix, in order, show the cells of the zones, in order. -/
theorem rows_eq :
    matrix.rows.toList.map Array.toList =
      zones.map fun origin => zones.map fun destination => matrix.get? origin destination := by
  refine List.ext_getElem (by simpa using isSquare.rows_size) fun row inRows inZones => ?_
  have rowInside : row < zones.length := by simpa using inZones
  have rowThere : row < matrix.rows.size := isSquare.rows_size.symm ▸ rowInside
  have size := isSquare.cells_size _ (Array.getElem_mem rowThere)
  simp only [List.getElem_map, Array.getElem_toList]
  refine List.ext_getElem (by simpa using size) fun column inCells inColumns => ?_
  have columnInside : column < zones.length := by simpa using inColumns
  rw [List.getElem_map, isSquare.get?_eq (List.getElem?_eq_getElem rowInside)
    (List.getElem?_eq_getElem columnInside), cell?]
  have columnThere : column < matrix.rows[row].size := size.symm ▸ columnInside
  simp [Array.getElem?_eq_getElem rowThere, Array.getElem?_eq_getElem columnThere]

omit [ZoneName ζ] [Scalar α] in
theorem cells_eq :
    matrix.rows.toList.flatMap Array.toList =
      (zones ×ˢ zones).map fun pair => matrix.get? pair.1 pair.2 := by
  rw [List.flatMap_def, isSquare.rows_eq, ← List.flatMap_def]
  show _ = (zones.flatMap fun origin => zones.map fun destination => (origin, destination)).map _
  simp only [List.map_flatMap, List.map_map, Function.comp_def]

omit [ZoneName ζ] [Scalar α] in
/-- The defined cells are counted once each. -/
theorem count_eq :
    matrix.count = Set.ncard {pair : ζ × ζ | (matrix.get? pair.1 pair.2).isSome = true} := by
  rw [count, isSquare.cells_eq, List.countP_map]
  refine (ncard_setOf_eq_countP (isSquare.nodup.product isSquare.nodup) fun pair defined => ?_).symm
  by_contra absent
  rw [List.mem_product, not_and_or] at absent
  simp [isSquare.get?_of_not_mem absent] at defined

omit [ZoneName ζ] [Scalar α] in
theorem isComplete_iff :
    matrix.isComplete = true ↔ ∀ origin ∈ zones, ∀ destination ∈ zones,
      (matrix.get? origin destination).isSome = true := by
  have all : matrix.zones.size * matrix.zones.size =
      ((zones ×ˢ zones).map fun pair => matrix.get? pair.1 pair.2).length := by
    rw [List.length_map, List.length_product, ← Array.length_toList, isSquare.zones_eq]
  rw [isComplete, count, isSquare.cells_eq, all, beq_iff_eq, List.countP_eq_length]
  simp only [List.forall_mem_map, Prod.forall]
  constructor
  · intro complete origin member destination other
    exact complete origin destination (List.mem_product.mpr ⟨member, other⟩)
  · intro complete origin destination pair
    rcases List.mem_product.mp pair with ⟨member, other⟩
    exact complete origin member destination other

omit [Scalar α] in
/-- There is a record for every defined cell, row after row. -/
theorem records_eq [Numeric α] :
    matrix.records = ["from", "to", "time"] ::
      zones.flatMap fun origin => zones.filterMap fun destination =>
        (matrix.get? origin destination).map fun value =>
          [ZoneName.written origin, ZoneName.written destination, Numeric.text value] := by
  have byRow : (zones.zip matrix.rows.toList).flatMap (fun row =>
      rowRecords zones row.1 row.2.toList) =
      (zones.zip (matrix.rows.toList.map Array.toList)).flatMap fun row =>
        rowRecords zones row.1 row.2 := by
    rw [List.zip_map_right, List.flatMap_map]
    rfl
  show ["from", "to", "time"] :: (matrix.zones.toList.zip matrix.rows.toList).flatMap (fun row =>
    rowRecords matrix.zones.toList row.1 row.2.toList) = _
  rw [isSquare.zones_eq, byRow, isSquare.rows_eq, zip_map_self, List.flatMap_map]
  simp only [rowRecords, zip_map_self, List.filterMap_map, Function.comp_def]

omit [Scalar α] in
/-- The table that a matrix is written as is read back as its records. -/
theorem read_toCsv [Numeric α] : Csv.read matrix.toCsv = matrix.records := by
  have header : (Csv.writeRecord ["from", "to", "time"]).toList = "from,to,time\n".toList := by
    decide +kernel
  refine Csv.read_write (fun record member => ?_) ?_
  · rw [isSquare.records_eq] at member
    rcases List.mem_cons.mp member with rfl | member
    · simp
    · rcases List.mem_flatMap.mp member with ⟨origin, -, member⟩
      rcases List.mem_filterMap.mp member with ⟨destination, -, given⟩
      rcases Option.map_eq_some_iff.mp given with ⟨value, -, rfl⟩
      simp
  · rw [isSquare.records_eq, Csv.write, List.map_cons, String.toList_join, List.flatMap_cons,
      header]
    simp

end IsSquare

end

/-- A matrix is the partial map that is left of some writes to a new one. -/
structure IsPartialMap [Numeric α] (zones : List ζ) (writes : List (Write ζ α))
    (matrix : Matrix ζ α) : Prop where
  /-- The zones are there once each, in the order in which they came first. -/
  zones_eq : matrix.zones.toList = zones.eraseDups
  /-- A write whose zones are there, and whose row has the right length, is made. -/
  accepts : ∀ write : Write ζ α, write.fits matrix.zones.toList = true → ∃ next,
    write.perform matrix = .ok () next ∧ write.result matrix = .ok next
  /-- Any other write is refused and changes nothing. -/
  refuses : ∀ write : Write ζ α, write.fits matrix.zones.toList = false → ∃ error,
    write.perform matrix = .error error matrix ∧ write.result matrix = .error error
  /-- A cell shows what was written to it last, unless that is undefined. -/
  get?_eq : ∀ origin destination, matrix.get? origin destination =
    (lastWritten? matrix.zones.toList writes origin destination).filter fun value =>
      !Scalar.isUndefined value
  get?_outside : ∀ origin destination,
    origin ∉ matrix.zones.toList ∨ destination ∉ matrix.zones.toList →
      matrix.get? origin destination = none
  count_eq : matrix.count =
    Set.ncard {pair : ζ × ζ | (matrix.get? pair.1 pair.2).isSome = true}
  isComplete_iff : matrix.isComplete = true ↔
    ∀ origin ∈ matrix.zones.toList, ∀ destination ∈ matrix.zones.toList,
      (matrix.get? origin destination).isSome = true
  /-- There is a record for every defined cell, row after row. -/
  records_eq : matrix.records = ["from", "to", "time"] ::
    matrix.zones.toList.flatMap fun origin =>
      matrix.zones.toList.filterMap fun destination =>
        (matrix.get? origin destination).map fun value =>
          [ZoneName.written origin, ZoneName.written destination, Numeric.text value]
  /-- The table holds these records and no others. -/
  read_toCsv : Csv.read matrix.toCsv = matrix.records

/-- Some writes to a matrix of two zones, one of which is given twice.  The last two are
refused. -/
def overwrites : List (Write String Float) :=
  [.row "b" [1, 2], .cell "a" "b" 3, .cell "b" "b" 4, .cell "a" "c" 5, .row "a" [6]]

/-- Whatever zones a matrix is made for and whatever is written to it, it is the partial map of
the values that were written last. -/
theorem after_isPartialMap [LawfulBEq ζ] [Numeric α] (zones : List ζ)
    (writes : List (Write ζ α)) :
    ((make zones : Matrix ζ α).after writes).IsPartialMap zones writes := by
  have isSquare := after_isSquare zones writes
  refine ⟨isSquare.zones_eq, ?_, ?_, ?_, ?_, isSquare.count_eq, ?_, ?_, isSquare.read_toCsv⟩
  all_goals rw [isSquare.zones_eq]
  · exact fun write fits => ⟨_, isSquare.afterWrite_of_fits fits⟩
  · exact fun write => isSquare.perform_of_not_fits
  · intro origin destination
    rw [get?_after, bind_cellOf]
  · exact fun origin destination => isSquare.get?_of_not_mem
  · exact isSquare.isComplete_iff
  · exact isSquare.records_eq

/-- The zone that is given twice counts once, and each cell shows the last write that fits. -/
theorem after_isPartialMap_overwrites :
    ((make ["b", "a", "b"] : Matrix String Float).after overwrites).IsPartialMap
        ["b", "a", "b"] overwrites ∧
      ["b", "a", "b"].eraseDups = ["b", "a"] ∧
      lastWritten? ["b", "a"] overwrites "b" "b" = some 4 ∧
      lastWritten? ["b", "a"] overwrites "b" "a" = some 2 ∧
      lastWritten? ["b", "a"] overwrites "a" "a" = none :=
  ⟨after_isPartialMap _ _, by decide, rfl, rfl, rfl⟩

end JourneyTimes.Matrix
