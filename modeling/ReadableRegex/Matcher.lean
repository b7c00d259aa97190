import ReadableRegex.Hits
import ReadableRegex.Slashed
import ReadableRegex.Template

/-!
Compiled expressions. The flags that the program itself does not know decide which matches
count: without the global flag there is at most one, and a sticky expression takes only matches
that follow one another without a gap from the start of the subject.
-/

namespace ReadableRegex

structure CompileError where
  pattern : Text
  cause : CompileCause
deriving DecidableEq, Repr

def CompileError.message (error : CompileError) : String :=
  "pattern '" ++ String.ofList error.pattern ++ "' failed to compile"

structure Matcher where
  source : Text
  flags : FlagSet
  program : Program

namespace Matcher

def compile [PropertyTable] [SizeRule] (source : Text) (options : Options) :
    Except CompileError Matcher :=
  match Program.compile source options with
  | .ok program => .ok ⟨source, options.flags, program⟩
  | .error cause => .error ⟨source, cause⟩

/-- The expression between slashes, with its flags. -/
def text (matcher : Matcher) : Text :=
  Slashed.text matcher.source matcher.flags

variable (matcher : Matcher) (subject : Array Char)

def isMatch : Bool :=
  match matcher.program.search subject 0 with
  | some hit => !matcher.flags.has .sticky || hit.start == 0
  | none => false

def exec : Option (Hit subject) :=
  match matcher.program.search subject 0 with
  | some hit => if matcher.flags.has .sticky ∧ hit.start ≠ 0 then none else some hit
  | none => none

/-- Every match under the global flag, otherwise at most the first one. -/
def hits : List (Hit subject) :=
  if matcher.flags.has .sticky then
    matcher.program.stickyHits subject (matcher.flags.has .global)
  else if matcher.flags.has .global then matcher.program.hits subject
  else (matcher.program.search subject 0).toList

def texts : List Text :=
  (matcher.hits subject).map Hit.text

/-- The subject from `cursor` on with matches replaced. -/
def splice {subject : Array Char} (expand : Hit subject → Text) (cursor : Nat) :
    List (Hit subject) → Text
  | [] => Hit.between subject cursor subject.size
  | hit :: rest =>
      Hit.between subject cursor hit.start ++ expand hit ++ splice expand hit.stop rest

def replaceBy (expand : Hit subject → Text) : Text :=
  if matcher.flags.has .sticky then
    match matcher.program.stickyHits subject (matcher.flags.has .global) with
    | [] => subject.toList
    | hit :: rest => splice expand 0 (hit :: rest)
  else if matcher.flags.has .global then
    -- the engine replaces all matches
    splice expand 0 (matcher.program.hits subject)
  else
    match matcher.program.search subject 0 with
    | none => subject.toList
    | some hit =>
        Hit.between subject 0 hit.start ++ expand hit ++ Hit.between subject hit.stop subject.size

/-- All three ways put something in the place of the matches that count. -/
theorem replaceBy_eq_splice (expand : Hit subject → Text) :
    matcher.replaceBy subject expand = splice expand 0 (matcher.hits subject) := by
  have whole : Hit.between subject 0 subject.size = subject.toList := by
    rw [Hit.between, Array.extract_size]
  unfold replaceBy hits
  split
  · split
    · next none => rw [none, splice, whole]
    · next hit rest found => rw [found]
  · split
    · rfl
    · cases matcher.program.search subject 0 with
      | none => exact whole.symm
      | some hit => rfl

def replace (template : Template) : Text :=
  matcher.replaceBy subject (template.expand matcher.program)

def replaceLiteral (replacement : Text) : Text :=
  matcher.replaceBy subject (fun _ => replacement)

end Matcher
end ReadableRegex
