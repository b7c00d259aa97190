import ReadableRegex.Instruction
import ReadableRegex.Options
import ReadableRegex.Pattern.Assembly
import ReadableRegex.Regex.OfPattern

/-!
Programs of pattern texts. Whether a program keeps the size limit is decided before its code is
written out, because counted repetitions can ask for more code than there is room for.
-/

namespace ReadableRegex

/-- A program: its code, the places where threads can meet, and the captures it notes. -/
structure Program where
  code : Array Instruction
  crossings : Array Bool
  captures : List (Nat × Option Text)

inductive CompileCause where
  | badPattern (fault : Fault)
  | tooBig (limit : UInt64)
deriving DecidableEq, Repr

/-- How the engine tells whether the program of an expression keeps a limit in bytes. -/
class SizeRule where
  fits (limit : UInt64) (regex : Regex) : Bool

/-- A rule that counts so many bytes for each instruction and nothing for a text, which is searched
for as it is. It stands in for the accounts of an engine where a program is to be run, and agrees
with them only far away from the limit. -/
@[reducible] def SizeRule.perInstruction (bytes : Nat) : SizeRule where
  fits limit regex :=
    match regex with
    | .literal _ => true
    | _ => decide (bytes * (regex.size + 1) ≤ limit.toNat)

instance (priority := low) : SizeRule := .perInstruction 32

namespace Program

def ofRegex (regex : Regex) : Program :=
  ⟨regex.code.toArray, regex.code.crossings, regex.captures⟩

/-- The number of groups a match reports: up to the highest index, the whole match included. A
capture that was dropped because it is never entered counts if a later one is left. -/
def groupCount (program : Program) : Nat :=
  program.captures.foldl (fun count capture => max count (capture.1 + 1)) 1

def indexOf? (program : Program) (name : Text) : Option Nat :=
  (program.captures.find? (fun capture => capture.2 == some name)).map Prod.fst

def compile [PropertyTable] [SizeRule] (source : Text) (options : Options) :
    Except CompileCause Program :=
  match Pattern.ofTextWithin options.nestLimit.toNat source with
  | .error fault => .error (.badPattern fault)
  | .ok pattern =>
      match pattern.regex (Modes.ofFlags options.flags) with
      | .error fault => .error (.badPattern fault)
      | .ok regex =>
          if SizeRule.fits options.sizeLimit regex then .ok (ofRegex regex)
          else .error (.tooBig options.sizeLimit)

end Program
end ReadableRegex
