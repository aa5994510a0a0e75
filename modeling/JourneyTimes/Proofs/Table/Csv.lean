import JourneyTimes.Table.Csv
import Mathlib.Tactic.SplitIfs

/-!
# Tables that are written can be read

What has been written of some records is read back as these records, whatever their fields
are: fields with commas, quotes or ends of lines are in quotes.  Only records that are written
as an empty line are lost, that is, those without fields or with a single empty one.
-/

namespace JourneyTimes.Csv

namespace State

variable {state : State} {mode : Mode} {records : List Record} {fields : List String}
  {field : String}

theorem read_comma (unquoted : mode ≠ .quoted) :
    State.read ⟨mode, records, fields, field.toList.reverse⟩ ',' =
      ⟨.fieldStart, records, field :: fields, []⟩ := by
  cases mode <;> simp_all [read, readFieldStart, readPlain, endField, isLineEnd]

theorem read_lineEnd (unquoted : mode ≠ .quoted) (begun : mode ≠ .lineStart) :
    State.read ⟨mode, records, fields, field.toList.reverse⟩ '\n' =
      ⟨.lineStart, (field :: fields).reverse :: records, [], []⟩ := by
  cases mode <;> simp_all [read, readFieldStart, readPlain, endRecord, isLineEnd]

/-- Characters that are not special are read as they are. -/
theorem foldl_read_plain {characters : List Char}
    (plain : ∀ character ∈ characters,
      character ≠ ',' ∧ character ≠ '"' ∧ isLineEnd character = false)
    (unquoted : state.mode = .plain) :
    characters.foldl read state =
      { state with field := characters.reverse ++ state.field } := by
  induction characters generalizing state with
  | nil => rfl
  | cons character characters ih =>
      rcases List.forall_mem_cons.mp plain with ⟨⟨noComma, -, noEnd⟩, rest⟩
      have kept : state.read character = state.keep .plain character := by
        simp [read, unquoted, readPlain, noComma, noEnd]
      rw [List.foldl_cons, kept, ih rest rfl]
      simp [keep, unquoted]

/-- In quotes, characters are read as they are if quotes are written twice. -/
theorem foldl_read_quoted {characters : List Char} (quoted : state.mode = .quoted) :
    (characters.flatMap fun character =>
        if character = '"' then ['"', '"'] else [character]).foldl read state =
      { state with field := characters.reverse ++ state.field } := by
  induction characters generalizing state with
  | nil => rfl
  | cons character characters ih =>
      have kept : (if character = '"' then ['"', '"'] else [character]).foldl read state =
          state.keep .quoted character := by
        split_ifs with isQuote
        · simp [read, quoted, isQuote, keep]
        · simp [read, quoted, isQuote]
      rw [List.flatMap_cons, List.foldl_append, kept, ih rfl]
      simp [keep, quoted]

/-- Where a field starts, what has been written of it is read back.  The record has begun then,
unless nothing has been written. -/
theorem foldl_read_writeField (records : List Record) (fields : List String) (field : String)
    (atStart : mode = .fieldStart ∨ mode = .lineStart) :
    ∃ final, (writeField field).toList.foldl read ⟨mode, records, fields, []⟩ =
        ⟨final, records, fields, field.toList.reverse⟩ ∧
      final ≠ .quoted ∧ (final = .lineStart → field = "" ∧ mode = .lineStart) := by
  unfold writeField
  split_ifs with special
  · have opened : State.read ⟨mode, records, fields, []⟩ '"' = ⟨.quoted, records, fields, []⟩ := by
      rcases atStart with rfl | rfl <;> simp [read, readFieldStart, isLineEnd]
    refine ⟨.afterQuote, ?_, nofun, nofun⟩
    rw [String.toList_ofList, List.cons_append, List.foldl_cons, opened, List.foldl_append,
      foldl_read_quoted rfl]
    simp [read]
  · have plain : ∀ character ∈ field.toList,
        character ≠ ',' ∧ character ≠ '"' ∧ isLineEnd character = false := by
      simpa [needsQuotes, and_assoc] using special
    cases characters : field.toList with
    | nil =>
        refine ⟨mode, rfl, ?_, fun isStart => ⟨String.toList_eq_nil_iff.mp characters, isStart⟩⟩
        rcases atStart with rfl | rfl <;> exact nofun
    | cons first rest =>
        rw [characters] at plain
        rcases List.forall_mem_cons.mp plain with ⟨⟨noComma, noQuote, noEnd⟩, restPlain⟩
        have begun : State.read ⟨mode, records, fields, []⟩ first =
            ⟨.plain, records, fields, [first]⟩ := by
          rcases atStart with rfl | rfl <;>
            simp [read, readFieldStart, readPlain, keep, noComma, noQuote, noEnd]
        refine ⟨.plain, ?_, nofun, nofun⟩
        rw [List.foldl_cons, begun, foldl_read_plain restPlain rfl]
        simp

/-- Where a record starts or goes on, the fields that have been written are read back. -/
theorem foldl_read_fields {rest : List String}
    (atStart : mode = .fieldStart ∨ mode = .lineStart)
    (begins : mode = .lineStart → field :: rest ≠ [""]) :
    (",".intercalate ((field :: rest).map writeField) ++ "\n").toList.foldl read
        ⟨mode, records, fields, []⟩ =
      ⟨.lineStart, (fields.reverse ++ field :: rest) :: records, [], []⟩ := by
  induction rest generalizing field fields mode with
  | nil =>
      rcases foldl_read_writeField records fields field atStart with
        ⟨final, whole, unquoted, begun⟩
      have notStart : final ≠ .lineStart := fun isStart =>
        begins (begun isStart).2 (by rw [(begun isStart).1])
      have line : (",".intercalate ([field].map writeField) ++ "\n").toList =
          (writeField field).toList ++ ['\n'] := by simp
      rw [line, List.foldl_append, whole, List.foldl_cons, read_lineEnd unquoted notStart]
      simp
  | cons next rest ih =>
      rcases foldl_read_writeField records fields field atStart with ⟨final, whole, unquoted, -⟩
      have line : (",".intercalate ((field :: next :: rest).map writeField) ++ "\n").toList =
          (writeField field).toList ++
            ',' :: (",".intercalate ((next :: rest).map writeField) ++ "\n").toList := by simp
      rw [line, List.foldl_append, whole, List.foldl_cons, read_comma unquoted,
        ih (.inl rfl) nofun]
      simp

/-- A record that is not written as an empty line is read back. -/
theorem foldl_read_writeRecord {record : Record} (nonempty : record ≠ [])
    (visible : record ≠ [""]) :
    (writeRecord record).toList.foldl read ⟨.lineStart, records, [], []⟩ =
      ⟨.lineStart, record :: records, [], []⟩ := by
  rcases List.exists_cons_of_ne_nil nonempty with ⟨field, rest, rfl⟩
  exact foldl_read_fields (.inr rfl) fun _ => visible

theorem foldl_read_write {written : List Record}
    (visible : ∀ record ∈ written, record ≠ [] ∧ record ≠ [""]) :
    (write written).toList.foldl read ⟨.lineStart, records, [], []⟩ =
      ⟨.lineStart, written.reverse ++ records, [], []⟩ := by
  induction written generalizing records with
  | nil => rfl
  | cons record written ih =>
      rcases List.forall_mem_cons.mp visible with ⟨first, rest⟩
      have lines : (write (record :: written)).toList =
          (writeRecord record).toList ++ (write written).toList := by simp [write]
      rw [lines, List.foldl_append, foldl_read_writeRecord first.1 first.2, ih rest]
      simp

end State

/-- Records that are written are read back, if none of them is written as an empty line and
the first one does not begin with a byte order mark. -/
theorem read_write {records : List Record}
    (visible : ∀ record ∈ records, record ≠ [] ∧ record ≠ [""])
    (unmarked : (write records).toList.head? ≠ some '\ufeff') : read (write records) = records := by
  unfold read
  split
  · rename_i rest marked
    rw [marked] at unmarked
    exact (unmarked rfl).elim
  · dsimp only
    rw [State.initial, State.foldl_read_write visible]
    simp [State.finish]

end JourneyTimes.Csv
