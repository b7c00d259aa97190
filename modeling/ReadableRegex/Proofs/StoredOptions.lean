import ReadableRegex.Options.Record
import ReadableRegex.Proofs.StoredFlags

/-!
Stored options are read back, the whole record or a part of it. A field that was written makes its
own value again and no other, so neither the order of the fields nor what else stands in the record
makes a difference, and a field that is left out keeps its initial value. No field is there twice.
-/

namespace ReadableRegex.Options

/-! ### Single fields -/

/-- The choice that gives the field the value it has in the options. -/
def Field.setting (options : Options) : Field → Setting
  | .flags => .flags options.flags
  | .closesCaptures => .closesCaptures options.closesCaptures
  | .sizeLimit => .sizeLimit options.sizeLimit
  | .cacheLimit => .cacheLimit options.cacheLimit
  | .nestLimit => .nestLimit options.nestLimit

theorem Field.ofName?_name (field : Field) : Field.ofName? field.name = some field := by
  cases field <;> rfl

theorem readLimit_of_lt {value size : Nat} (small : value < size) (fits : size ≤ UInt64.size)
    (expected : Expected) : readLimit size expected (.integer value) = .ok value := by
  have wide : (-9223372036854775808 : Int) ≤ value ∧ (value : Int) < 18446744073709551616 := by
    unfold UInt64.size at fits
    omega
  have inside : (0 : Int) ≤ value ∧ (value : Int) < size := by omega
  have whole : (Datum.integer value).integer? = some (value : Int) := by
    rw [Datum.integer?, if_pos wide]
  rw [readLimit, whole]
  exact if_pos inside

theorem readField_write (options : Options) (field : Field) :
    readField field (field.write options) = .ok (field.setting options) := by
  cases field with
  | flags => rw [Field.write, readField, FlagSet.ofStored_stored, Field.setting]
  | closesCaptures => rfl
  | sizeLimit =>
      have read := readLimit_of_lt options.sizeLimit.toNat_lt_size (Nat.le_refl _) .limit64
      rw [Field.write, readField, read, Except.map, UInt64.ofNat_toNat, Field.setting]
  | cacheLimit =>
      have read := readLimit_of_lt options.cacheLimit.toNat_lt_size (Nat.le_refl _) .limit64
      rw [Field.write, readField, read, Except.map, UInt64.ofNat_toNat, Field.setting]
  | nestLimit =>
      have fits : UInt32.size ≤ UInt64.size := by
        unfold UInt32.size UInt64.size
        omega
      have read := readLimit_of_lt options.nestLimit.toNat_lt_size fits .limit32
      rw [Field.write, readField, read, Except.map, UInt32.ofNat_toNat, Field.setting]

theorem takeField_write (start options : Options) (field : Field) :
    start.takeField field (field.write options) = .ok (start.set (field.setting options)) := by
  rw [takeField, readField_write, Except.map]

theorem RecordReading.takeEntry_write {reading : RecordReading} (options : Options) {field : Field}
    (fresh : field ∉ reading.seen) :
    reading.takeEntry (field.name, field.write options) =
      .ok ⟨field :: reading.seen, reading.options.set (field.setting options)⟩ := by
  simp only [takeEntry, Field.ofName?_name, if_neg fresh, takeField_write]

theorem RecordReading.seen_of_takeEntry {reading later : RecordReading} {entry : Text × Datum}
    (taken : reading.takeEntry entry = .ok later) (distinct : reading.seen.Nodup) :
    later.seen = (Field.ofName? entry.1).toList ++ reading.seen ∧ later.seen.Nodup := by
  unfold takeEntry at taken
  split at taken
  · next field named =>
      split at taken
      · cases taken
      · next fresh =>
          split at taken
          · cases taken
            rw [named]
            exact ⟨rfl, List.nodup_cons.mpr ⟨fresh, distinct⟩⟩
          · cases taken
  · next unnamed =>
      cases taken
      rw [unnamed]
      exact ⟨rfl, distinct⟩

/-! ### Records -/

def withFields (start options : Options) (fields : List Field) : Options where
  flags := if .flags ∈ fields then options.flags else start.flags
  closesCaptures :=
    if .closesCaptures ∈ fields then options.closesCaptures else start.closesCaptures
  sizeLimit := if .sizeLimit ∈ fields then options.sizeLimit else start.sizeLimit
  cacheLimit := if .cacheLimit ∈ fields then options.cacheLimit else start.cacheLimit
  nestLimit := if .nestLimit ∈ fields then options.nestLimit else start.nestLimit

theorem withFields_all (start options : Options) :
    start.withFields options Field.all = options := rfl

theorem withFields_set (start options : Options) (field : Field) (rest : List Field) :
    (start.set (field.setting options)).withFields options rest =
      start.withFields options (field :: rest) := by
  cases field <;> simp [withFields, set, Field.setting]

theorem foldlM_takeEntry_filter (stored : List (Text × Datum)) (start : RecordReading) :
    stored.foldlM RecordReading.takeEntry start =
      (stored.filter (fun entry => (Field.ofName? entry.1).isSome)).foldlM
        RecordReading.takeEntry start := by
  induction stored generalizing start with
  | nil => rfl
  | cons entry rest inductionHypothesis =>
      cases named : Field.ofName? entry.1 with
      | none =>
          have passed : start.takeEntry entry = .ok start := by
            rw [RecordReading.takeEntry, named]
          rw [List.foldlM_cons, passed, List.filter_cons, named]
          exact inductionHypothesis start
      | some field =>
          rw [List.foldlM_cons, List.filter_cons, named, Option.isSome_some, if_pos rfl,
            List.foldlM_cons]
          exact bind_congr inductionHypothesis

theorem foldlM_takeEntry_entries (options : Options) {fields : List Field} {start : RecordReading}
    (distinct : fields.Nodup) (fresh : ∀ field ∈ fields, field ∉ start.seen) :
    ∃ seen, (options.entries fields).foldlM RecordReading.takeEntry start =
      .ok ⟨seen, start.options.withFields options fields⟩ := by
  induction fields generalizing start with
  | nil => exact ⟨start.seen, rfl⟩
  | cons field rest inductionHypothesis =>
      obtain ⟨alone, others⟩ := List.nodup_cons.mp distinct
      have first := start.takeEntry_write options (fresh field List.mem_cons_self)
      rw [entries, List.map_cons, List.foldlM_cons, first, ← withFields_set]
      apply inductionHypothesis others
      intro other member seen
      rcases List.mem_cons.mp seen with same | earlier
      · exact alone (same ▸ member)
      · exact fresh other (List.mem_cons_of_mem field member) earlier

theorem ofRecord_entries (options : Options) {fields : List Field} (distinct : fields.Nodup) :
    ofRecord (options.entries fields) = .ok (initial.withFields options fields) := by
  obtain ⟨seen, taken⟩ : ∃ seen, (options.entries fields).foldlM RecordReading.takeEntry
      ⟨[], initial⟩ = .ok ⟨seen, initial.withFields options fields⟩ :=
    foldlM_takeEntry_entries options distinct (fun _ _ => List.not_mem_nil)
  rw [ofRecord, taken]

theorem seen_of_foldlM_takeEntry {stored : List (Text × Datum)} {start later : RecordReading}
    (taken : stored.foldlM RecordReading.takeEntry start = .ok later)
    (distinct : start.seen.Nodup) :
    later.seen = (stored.filterMap (fun entry => Field.ofName? entry.1)).reverse ++ start.seen ∧
      later.seen.Nodup := by
  induction stored generalizing start with
  | nil =>
      cases taken
      exact ⟨rfl, distinct⟩
  | cons entry rest inductionHypothesis =>
      rw [List.foldlM_cons] at taken
      cases first : start.takeEntry entry with
      | error error =>
          rw [first] at taken
          cases taken
      | ok next =>
          rw [first] at taken
          obtain ⟨seen, fresh⟩ := RecordReading.seen_of_takeEntry first distinct
          obtain ⟨further, nodup⟩ := inductionHypothesis taken fresh
          refine ⟨?_, nodup⟩
          rw [further, seen, List.filterMap_cons]
          cases Field.ofName? entry.1 <;> simp

/-- A record from which options were read has each of its fields once. -/
theorem nodup_of_ofRecord {stored : List (Text × Datum)} {options : Options}
    (read : ofRecord stored = .ok options) :
    (stored.filterMap (fun entry => Field.ofName? entry.1)).Nodup := by
  unfold ofRecord at read
  split at read
  · next reading taken =>
      obtain ⟨seen, nodup⟩ := seen_of_foldlM_takeEntry taken List.nodup_nil
      rw [seen, List.append_nil] at nodup
      exact (List.reverse_perm _).nodup_iff.mp nodup
  · cases read

/-- Any fields of stored options, in any order and with anything else between them, are read as
options that have the stored values in these fields and the initial values in all others. With every
field stored they are the options themselves. -/
theorem ofDatum_of_entries (options : Options) (fields : List Field) (distinct : fields.Nodup)
    (stored : List (Text × Datum))
    (known : stored.filter (fun entry => (Field.ofName? entry.1).isSome) =
      options.entries fields) :
    ofDatum (.record stored) = .ok
      { flags := if .flags ∈ fields then options.flags else initial.flags
        closesCaptures :=
          if .closesCaptures ∈ fields then options.closesCaptures else initial.closesCaptures
        sizeLimit := if .sizeLimit ∈ fields then options.sizeLimit else initial.sizeLimit
        cacheLimit := if .cacheLimit ∈ fields then options.cacheLimit else initial.cacheLimit
        nestLimit := if .nestLimit ∈ fields then options.nestLimit else initial.nestLimit } ∧
    ofDatum options.toDatum = .ok options := by
  constructor
  · rw [ofDatum, ofRecord, foldlM_takeEntry_filter, known]
    exact ofRecord_entries options distinct
  · rw [toDatum, ofDatum, ofRecord_entries options (by decide), withFields_all]

theorem ofDatum_of_entries_of_bits :
    ofDatum (.record
        [("nest_limit".toList, .integer 0), ("comment".toList, .null),
          ("modifiers".toList, .text "GLOBAL | STICKY | 0xc0".toList)]) =
      .ok { initial with flags := ⟨0xD1#8⟩, nestLimit := 0 } := by
  have written : FlagSet.stored ⟨0xD1#8⟩ = "GLOBAL | STICKY | 0xc0".toList := by decide +kernel
  rw [← written]
  exact (ofDatum_of_entries { initial with flags := ⟨0xD1#8⟩, nestLimit := 0 }
    [.nestLimit, .flags] (by decide) _ rfl).1

end ReadableRegex.Options
