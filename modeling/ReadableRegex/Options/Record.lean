import ReadableRegex.Datum
import ReadableRegex.FlagSet.Record
import ReadableRegex.Options

/-!
Options as stored records. A field that is not stored has its initial value, a field of another name
is passed over, and no field may be stored twice. Options may also be stored as the list of their
values.
-/

namespace ReadableRegex

namespace Options

inductive Field where
  | flags
  | closesCaptures
  | sizeLimit
  | cacheLimit
  | nestLimit
deriving DecidableEq, Repr

namespace Field

/-- All fields, in the order of a stored list. -/
def all : List Field :=
  [.flags, .closesCaptures, .sizeLimit, .cacheLimit, .nestLimit]

def name : Field → Text
  | .flags => "modifiers".toList
  | .closesCaptures => "close_open_captures".toList
  | .sizeLimit => "size_limit".toList
  | .cacheLimit => "dfa_size_limit".toList
  | .nestLimit => "nest_limit".toList

def ofName? (name : Text) : Option Field :=
  all.find? (fun field => field.name == name)

end Field
end Options

/-- What a stored value should have been. -/
inductive Expected where
  | options
  | flags
  | switch
  | limit64
  | limit32
deriving DecidableEq, Repr

def Expected.name : Expected → Text
  | .options => "struct ExpressionOptions".toList
  | .flags => "a string value of `|` separated flags".toList
  | .switch => "a boolean".toList
  | .limit64 => "usize".toList
  | .limit32 => "u32".toList

inductive RecordError where
  | wrongType (found : Datum) (expected : Expected)
  | outOfRange (value : Int) (expected : Expected)
  | badFlags (error : StoredFlagError)
  | repeatedField (field : Options.Field)
  | tooManyItems (count : Nat)

def RecordError.message : RecordError → String
  | .wrongType found expected =>
      String.ofList ("invalid type: ".toList ++ found.found ++ ", expected ".toList ++ expected.name)
  | .outOfRange value expected =>
      String.ofList ("invalid value: ".toList ++ (Datum.integer value).found ++
        ", expected ".toList ++ expected.name)
  | .badFlags error => error.message
  | .repeatedField field =>
      String.ofList ("duplicate field \x60".toList ++ field.name ++ "\x60".toList)
  | .tooManyItems count =>
      String.ofList ("invalid length ".toList ++ Text.decimal count ++
        ", expected fewer elements in array".toList)

namespace Options

def Field.write (options : Options) : Field → Datum
  | .flags => .text options.flags.stored
  | .closesCaptures => .switch options.closesCaptures
  | .sizeLimit => .integer options.sizeLimit.toNat
  | .cacheLimit => .integer options.cacheLimit.toNat
  | .nestLimit => .integer options.nestLimit.toNat

/-- An integer from zero to below `size`. -/
def readLimit (size : Nat) (expected : Expected) (datum : Datum) : Except RecordError Nat :=
  match datum.integer? with
  | some value =>
      if 0 ≤ value ∧ value < size then .ok value.toNat else .error (.outOfRange value expected)
  | none => .error (.wrongType datum expected)

def readField (field : Field) (datum : Datum) : Except RecordError Setting :=
  match field with
  | .flags =>
      match datum with
      | .text value =>
          match FlagSet.ofStored value with
          | .ok flags => .ok (.flags flags)
          | .error error => .error (.badFlags error)
      | other => .error (.wrongType other .flags)
  | .closesCaptures =>
      match datum with
      | .switch enabled => .ok (.closesCaptures enabled)
      | other => .error (.wrongType other .switch)
  | .sizeLimit => (readLimit UInt64.size .limit64 datum).map (fun limit => .sizeLimit (.ofNat limit))
  | .cacheLimit => (readLimit UInt64.size .limit64 datum).map (fun limit => .cacheLimit (.ofNat limit))
  | .nestLimit => (readLimit UInt32.size .limit32 datum).map (fun limit => .nestLimit (.ofNat limit))

def takeField (options : Options) (field : Field) (datum : Datum) : Except RecordError Options :=
  (readField field datum).map options.set

/-- A record in the middle of being read: the fields that were there, and the options so far. -/
structure RecordReading where
  seen : List Field
  options : Options

/-- Reads one entry of a record, unless it is no field of the options. No field may be there twice. -/
def RecordReading.takeEntry (reading : RecordReading) (entry : Text × Datum) :
    Except RecordError RecordReading :=
  match Field.ofName? entry.1 with
  | some field =>
      if field ∈ reading.seen then .error (.repeatedField field)
      else
        match reading.options.takeField field entry.2 with
        | .ok options => .ok ⟨field :: reading.seen, options⟩
        | .error error => .error error
  | none => .ok reading

def ofRecord (entries : List (Text × Datum)) : Except RecordError Options :=
  match entries.foldlM RecordReading.takeEntry ⟨[], initial⟩ with
  | .ok reading => .ok reading.options
  | .error error => .error error

/-- The options with the values of a list taken over, as far as either goes. -/
def takeItems (options : Options) : List Field → List Datum → Except RecordError Options
  | field :: fields, datum :: rest =>
      match options.takeField field datum with
      | .ok next => next.takeItems fields rest
      | .error error => .error error
  | _, _ => .ok options

def ofDatum : Datum → Except RecordError Options
  | .record entries => ofRecord entries
  | .list items =>
      match initial.takeItems Field.all items with
      | .ok options =>
          if items.length ≤ Field.all.length then .ok options
          else .error (.tooManyItems items.length)
      | .error error => .error error
  | other => .error (.wrongType other .options)

def entries (options : Options) (fields : List Field) : List (Text × Datum) :=
  fields.map (fun field => (field.name, field.write options))

def toDatum (options : Options) : Datum :=
  .record (options.entries Field.all)

end Options
end ReadableRegex
