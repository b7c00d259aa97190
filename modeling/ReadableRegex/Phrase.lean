import ReadableRegex.Call
import ReadableRegex.ClassText
import ReadableRegex.Notice

/-!
A phrase is an expression under construction: a draft of its pattern text and its options.
Each call appends a fragment, repeats the last token, opens or closes a group, or switches an
anchor or a flag. A call that makes no sense where it stands is ignored with a notice.
-/

namespace ReadableRegex

structure Phrase where
  draft : Draft
  options : Options
deriving DecidableEq, Repr

structure Report where
  phrase : Phrase
  notices : List Notice
deriving DecidableEq, Repr

/-! ### Fragments of pattern text -/

namespace Fragment

def anything : Text := ['.', '*']

def something : Text := ['.', '+']

def lineBreak : Text := "(?:\\r\\n|\\r|\\n)".toList

def tab : Text := ['\\', 't']

def word : Text := "(?-u:\\w)+".toList

def digit : Text := "(?-u:\\d)".toList

def blank : Text := ['\\', 's']

end Fragment

namespace Phrase

def ofOptions (options : Options) : Phrase :=
  ⟨Draft.blank options.closesCaptures, options⟩

def ofOptions? (options : Options) : Except OptionsError Phrase :=
  match options.validate with
  | .ok () => .ok (ofOptions options)
  | .error error => .error error

def initial : Phrase := ofOptions Options.initial

instance : Inhabited Phrase := ⟨initial⟩

def source (phrase : Phrase) : Text := phrase.draft.render

def flags (phrase : Phrase) : FlagSet := phrase.options.flags

def withDraft (phrase : Phrase) (draft : Draft) : Phrase :=
  { phrase with draft := draft }

def switchFlag (phrase : Phrase) (flag : Flag) (enabled : Bool) : Phrase :=
  { phrase with options := phrase.options.set (.flag flag enabled) }

def push (phrase : Phrase) (fragment : Text) (kind : TokenKind) : Phrase :=
  phrase.withDraft (phrase.draft.push fragment kind).1

/-- Repeats the last token; without one, the call is ignored. -/
def quantify (phrase : Phrase) (quantifier : Quantifier) : Report :=
  match phrase.draft.quantifyLast quantifier with
  | .ok (draft, _) => ⟨phrase.withDraft draft, []⟩
  | .error error => ⟨phrase, [.ignored .quantify error]⟩

/-- Appends a text that stands for itself, and repeats it if it is not empty. -/
def pushRepeated (phrase : Phrase) (value : Text) (quantifier : Quantifier)
    (whenEmpty : List Notice) : Report :=
  match phrase.draft.pushLiteral value with
  | (draft, some _) => (phrase.withDraft draft).quantify quantifier
  | (draft, none) => ⟨phrase.withDraft draft, whenEmpty⟩

def alternate (phrase : Phrase) (value : Text) : Report :=
  ⟨phrase.withDraft (phrase.draft.alternate.pushLiteral value).1,
    Notice.ofAlternation phrase.draft⟩

/-- Appends a class of the listed characters; an empty list appends nothing. -/
def pushMembers (phrase : Phrase) (members : Text) : Report :=
  match ClassText.anyOf members with
  | some fragment => ⟨phrase.push fragment .atom, []⟩
  | none => ⟨phrase.push [] .atom, [.emptyList]⟩

/-- Appends a run of characters that are not listed; with an empty list, of any characters. -/
def pushExcluded (phrase : Phrase) (excluded : Text) : Phrase :=
  match ClassText.noneOf excluded with
  | some fragment => phrase.push (fragment ++ ['+']) .quantified
  | none => phrase.push Fragment.something .quantified

/-- Appends a class of intervals; a bound without partner is left out. -/
def pushBounds (phrase : Phrase) (bounds : List Char) : Report :=
  let (fragment, dangling) := ClassText.ofBounds bounds
  ⟨phrase.push (fragment.getD []) .atom, (dangling.map Notice.danglingBound).toList⟩

/-- Closes the innermost capture; without an open one, the call is ignored. -/
def endCapture (phrase : Phrase) : Report :=
  match phrase.draft.endCapture with
  | .ok (draft, _) => ⟨phrase.withDraft draft, []⟩
  | .error error => ⟨phrase, [.ignored .endCapture error]⟩

/-- The effect of a call. Only a letter that is no flag makes it fail. -/
def apply (phrase : Phrase) : Call → Except FlagError Report
  | .startOfLine enabled => .ok ⟨phrase.withDraft (phrase.draft.setStartAnchor enabled), []⟩
  | .endOfLine enabled => .ok ⟨phrase.withDraft (phrase.draft.setEndAnchor enabled), []⟩
  | .literal value => .ok ⟨phrase.withDraft (phrase.draft.pushLiteral value).1, []⟩
  | .optional value => .ok (phrase.pushRepeated value .optional [])
  | .raw fragment => .ok ⟨phrase.withDraft (phrase.draft.pushRaw fragment).1, []⟩
  | .alternative value => .ok (phrase.alternate value)
  | .anything => .ok ⟨phrase.push Fragment.anything .quantified, []⟩
  | .something => .ok ⟨phrase.push Fragment.something .quantified, []⟩
  | .anythingBut excluded => .ok ⟨phrase.pushExcluded excluded, []⟩
  | .anyOf members => .ok (phrase.pushMembers members)
  | .range bounds => .ok (phrase.pushBounds bounds)
  | .lineBreak => .ok ⟨phrase.push Fragment.lineBreak .atom, []⟩
  | .tab => .ok ⟨phrase.push Fragment.tab .atom, []⟩
  | .word => .ok ⟨phrase.push Fragment.word .quantified, []⟩
  | .digit => .ok ⟨phrase.push Fragment.digit .atom, []⟩
  | .blank => .ok ⟨phrase.push Fragment.blank .atom, []⟩
  | .flag flag enabled => .ok ⟨phrase.switchFlag flag enabled, []⟩
  | .flagLetter letter enabled =>
      match Flag.ofLetter letter with
      | .ok flag => .ok ⟨phrase.switchFlag flag enabled, []⟩
      | .error error => .error error
  | .anyCase enabled => .ok ⟨phrase.switchFlag .ignoreCase enabled, []⟩
  | .stopAtFirst enabled => .ok ⟨phrase.switchFlag .global (!enabled), []⟩
  | .searchOneLine enabled => .ok ⟨phrase.switchFlag .multiline (!enabled), []⟩
  | .repeatPrevious lower upper => .ok (phrase.quantify (.times lower upper))
  | .oneOrMore => .ok (phrase.quantify .oneOrMore)
  | .multiple value lower upper =>
      .ok (phrase.pushRepeated value (.ofBounds lower upper)
        [.ignored .multiple .nothingToQuantify])
  | .beginCapture => .ok ⟨phrase.withDraft phrase.draft.beginCapture, []⟩
  | .endCapture => .ok phrase.endCapture

/-- The phrase after a call; one that fails leaves it as it was. -/
def after (phrase : Phrase) (call : Call) : Phrase :=
  match phrase.apply call with
  | .ok report => report.phrase
  | .error _ => phrase

def run (phrase : Phrase) (calls : List Call) : Phrase :=
  calls.foldl after phrase

end Phrase
end ReadableRegex
