import ReadableRegex.FlagSet

/-!
The stored form of a flag set: the names of its flags, divided by bars, and last the bits of
no known flag as one hexadecimal number. Reading takes names and numbers in any order, with
blanks around each, and joins them all.
-/

namespace ReadableRegex

def Flag.storedName : Flag → Text
  | .global => "GLOBAL".toList
  | .ignoreCase => "IGNORE_CASE".toList
  | .multiline => "MULTILINE".toList
  | .dotAll => "DOT_ALL".toList
  | .sticky => "STICKY".toList

inductive StoredFlagError where
  | emptyPart
  | badNumber
  | unknownName
deriving DecidableEq, Repr

def StoredFlagError.message : StoredFlagError → String
  | .emptyPart => "encountered empty flag"
  | .badNumber => "invalid hex flag"
  | .unknownName => "unrecognized named flag"

namespace FlagSet

def numberMark : Text := ['0', 'x']

def storedParts (flags : FlagSet) : List Text :=
  flags.toList.map Flag.storedName ++
    if flags.unknownBits = 0#8 then []
    else [numberMark ++ Text.numeral 16 flags.unknownBits.toNat]

def stored (flags : FlagSet) : Text :=
  [' ', '|', ' '].intercalate flags.storedParts

/-- A number of eight bits from its hexadecimal digits, which a plus sign may precede. -/
def bitsOfDigits? (digits : Text) : Option (BitVec 8) :=
  let unsigned :=
    match digits with
    | '+' :: rest => rest
    | _ => digits
  match Text.number? 16 unsigned with
  | some value => if value < 256 then some (BitVec.ofNat 8 value) else none
  | none => none

def ofStoredPart (part : Text) : Except StoredFlagError FlagSet :=
  if part.isEmpty then .error .emptyPart
  else
    match Text.after? numberMark part with
    | some digits =>
        match bitsOfDigits? digits with
        | some bits => .ok ⟨bits⟩
        | none => .error .badNumber
    | none =>
        match Flag.all.find? (fun flag => flag.storedName == part) with
        | some flag => .ok (single flag)
        | none => .error .unknownName

def joinStoredPart (flags : FlagSet) (part : Text) : Except StoredFlagError FlagSet :=
  match ofStoredPart (Text.trim part) with
  | .ok more => .ok (flags.union more)
  | .error error => .error error

/-- The set that a text stores; a text of blanks alone stores the empty set. -/
def ofStored (text : Text) : Except StoredFlagError FlagSet :=
  if (Text.trim text).isEmpty then .ok empty
  else (Text.parts '|' text).foldlM joinStoredPart empty

end FlagSet
end ReadableRegex
