import ReadableRegex.FlagSet

/-!
The options an expression is built and compiled with.
-/

namespace ReadableRegex

structure Options where
  flags : FlagSet
  /-- Whether captures left open are closed at the end of the pattern. -/
  closesCaptures : Bool
  /-- The most bytes a compiled program may take. -/
  sizeLimit : UInt64
  /-- The most bytes the matching engine may keep as a cache. It never changes an answer. -/
  cacheLimit : UInt64
  /-- The deepest nesting a pattern may have. -/
  nestLimit : UInt32
deriving DecidableEq, Repr

inductive OptionsError where
  | sizeLimitZero
  | cacheLimitZero
  | nestLimitZero
deriving DecidableEq, Repr

def OptionsError.message : OptionsError → String
  | .sizeLimitZero => "size_limit must be greater than zero"
  | .cacheLimitZero => "dfa_size_limit must be greater than zero"
  | .nestLimitZero => "nest_limit must be greater than zero"

namespace Options

/-- Captures are closed, programs take up to ten mebibytes, caches up to two, and patterns
nest up to 250 deep. -/
def initial : Options :=
  { flags := FlagSet.initial
    closesCaptures := true
    sizeLimit := 10485760
    cacheLimit := 2097152
    nestLimit := 250 }

instance : Inhabited Options := ⟨initial⟩

/-- Every limit has to allow something; the first that does not is reported. -/
def validate (options : Options) : Except OptionsError Unit :=
  if options.sizeLimit = 0 then .error .sizeLimitZero
  else if options.cacheLimit = 0 then .error .cacheLimitZero
  else if options.nestLimit = 0 then .error .nestLimitZero
  else .ok ()

inductive Setting where
  | flags (flags : FlagSet)
  | flag (flag : Flag) (enabled : Bool)
  | closesCaptures (enabled : Bool)
  | sizeLimit (limit : UInt64)
  | cacheLimit (limit : UInt64)
  | nestLimit (limit : UInt32)
deriving DecidableEq, Repr

def set (options : Options) : Setting → Options
  | .flags flags => { options with flags := flags }
  | .flag flag enabled => { options with flags := options.flags.switch flag enabled }
  | .closesCaptures enabled => { options with closesCaptures := enabled }
  | .sizeLimit limit => { options with sizeLimit := limit }
  | .cacheLimit limit => { options with cacheLimit := limit }
  | .nestLimit limit => { options with nestLimit := limit }

def build (settings : List Setting) : Except OptionsError Options :=
  let options := settings.foldl set initial
  match options.validate with
  | .ok () => .ok options
  | .error error => .error error

end Options
end ReadableRegex
