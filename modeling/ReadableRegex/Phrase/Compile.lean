import ReadableRegex.Matcher
import ReadableRegex.Phrase

/-!
Compiling a phrase. The compiled expression no longer follows the phrase it came from.
-/

namespace ReadableRegex.Phrase

def text (phrase : Phrase) : Text :=
  Slashed.text phrase.source phrase.flags

def compile [PropertyTable] [SizeRule] (phrase : Phrase) : Except CompileError Matcher :=
  Matcher.compile phrase.source phrase.options

end ReadableRegex.Phrase
