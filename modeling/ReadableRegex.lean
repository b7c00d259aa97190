import ReadableRegex.CharSet.Members
import ReadableRegex.Phrase.Compile
import ReadableRegex.Options.Record
import ReadableRegex.Hits.Single
import ReadableRegex.Proofs.Captures.Scan
import ReadableRegex.Proofs.StickyRow
import ReadableRegex.Proofs.StickyCursor
import ReadableRegex.Proofs.Captures.Fragments
import ReadableRegex.Proofs.Captures.Grouped
import ReadableRegex.Proofs.Captures.Numbering
import ReadableRegex.Proofs.Coverage
import ReadableRegex.Proofs.Listed
import ReadableRegex.Proofs.Trees.Outline
import ReadableRegex.Proofs.Trees.Sketch
import ReadableRegex.Proofs.Trees.Repetition
import ReadableRegex.Proofs.Verbosity
import ReadableRegex.Proofs.Trees.ClassReading
import ReadableRegex.Proofs.EscapedUnits
import ReadableRegex.Proofs.Trees.Building
import ReadableRegex.Proofs.Trees.Writing
import ReadableRegex.Proofs.Trees.Tokens
import ReadableRegex.Proofs.Trees.Following
import ReadableRegex.Proofs.Trees.Parsing
import ReadableRegex.Proofs.Trees.Compiling
import ReadableRegex.Proofs.Language.NormalForm
import ReadableRegex.Proofs.Language.Meaning
import ReadableRegex.Proofs.Language.Running
import ReadableRegex.Proofs.Language.Exploring
import ReadableRegex.Proofs.Language.OfText
import ReadableRegex.Proofs.Alternation.Continuing
import ReadableRegex.Proofs.Alternation.Branches
import ReadableRegex.Proofs.Alternation.Joining
import ReadableRegex.Proofs.FirstMatch
import ReadableRegex.Proofs.Offsets.Layout
import ReadableRegex.Proofs.Replacing
import ReadableRegex.Proofs.LiteralSearch
import ReadableRegex.Proofs.Interleaving
import ReadableRegex.Proofs.Balance.Scan
import ReadableRegex.Proofs.Balance.Rendering
import ReadableRegex.Proofs.Ignored
import ReadableRegex.Proofs.Offsets.Handles
import ReadableRegex.Proofs.Offsets.Committed
import ReadableRegex.Proofs.Anchored
import ReadableRegex.Proofs.Repeating
import ReadableRegex.Proofs.Raw.Pieces
import ReadableRegex.Proofs.Raw.Extending
import ReadableRegex.Proofs.Raw.Alone
import ReadableRegex.Proofs.Raw.Context
import ReadableRegex.Proofs.Raw.Units
import ReadableRegex.Proofs.Raw.Quantifying
import ReadableRegex.Proofs.Bounds
import ReadableRegex.Proofs.Closing
import ReadableRegex.Proofs.ClassMeaning
import ReadableRegex.Proofs.WholeLines
import ReadableRegex.Proofs.Excluding
import ReadableRegex.Proofs.FlagLetters
import ReadableRegex.Proofs.StoredFlags
import ReadableRegex.Proofs.StoredOptions
import ReadableRegex.Proofs.StickyPrefix
import ReadableRegex.Proofs.Slashes.Protecting
import ReadableRegex.Proofs.Slashes.Pieces
import ReadableRegex.Proofs.Slashes.Classes
import ReadableRegex.Proofs.Slashes.Delimiting
import ReadableRegex.Proofs.Hosted
