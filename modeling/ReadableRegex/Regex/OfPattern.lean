import ReadableRegex.Regex.Row

/-!
The meaning of a pattern under modes. Modes flow from left to right, through the alternatives
too, and a group gives the text after it the modes from before it.
-/

namespace ReadableRegex

structure Modes where
  ignoreCase : Bool
  multiline : Bool
  dotAll : Bool
  swapGreed : Bool
  unicode : Bool
  crlf : Bool
deriving DecidableEq, Repr

namespace Modes

/-- The modes at the start of a pattern. In multiline searches carriage returns end lines. -/
def ofFlags (flags : FlagSet) : Modes :=
  { ignoreCase := flags.has .ignoreCase
    multiline := flags.has .multiline
    dotAll := flags.has .dotAll
    swapGreed := false
    unicode := true
    crlf := flags.has .multiline }

def switch (modes : Modes) : Mode × Bool → Modes
  | (.ignoreCase, enabled) => { modes with ignoreCase := enabled }
  | (.multiline, enabled) => { modes with multiline := enabled }
  | (.dotAll, enabled) => { modes with dotAll := enabled }
  | (.swapGreed, enabled) => { modes with swapGreed := enabled }
  | (.unicode, enabled) => { modes with unicode := enabled }
  | (.crlf, enabled) => { modes with crlf := enabled }
  -- only the reading of the pattern text depends on it
  | (.verbose, _) => modes

def change (modes : Modes) (changes : ModeChange) : Modes :=
  changes.foldl switch modes

def comparison (modes : Modes) : Comparison :=
  ⟨modes.unicode, modes.ignoreCase⟩

/-- The characters a literal stands for. A character above ASCII has no case as a byte. -/
def literal (modes : Modes) (character : Char) : Regex :=
  .ofSet modes.unicode (modes.comparison.closure (.ofChars [character]))

/-- The characters the dot stands for. Without Unicode it could stand for half a character. -/
def dot (modes : Modes) : Except Fault Regex :=
  if modes.unicode then
    let excluded :=
      if modes.dotAll then [] else if modes.crlf then ['\n', '\r'] else ['\n']
    .ok (.ofSet true (CharSet.ofChars excluded).complement)
  else .error .notText

/-- The characters of a class. Without Unicode only ASCII ones are allowed. -/
def charClass [PropertyTable] (modes : Modes) (set : CharClass) : Except Fault Regex :=
  if modes.unicode || set.isAscii then
    if set.isKnown then .ok (.ofSet modes.unicode (set.set modes.comparison))
    else .error .property
  else .error .notText

def anchor (modes : Modes) : Anchor → Look
  | .caret =>
      if modes.multiline then (if modes.crlf then .crlfLineStart else .lineStart) else .textStart
  | .dollar =>
      if modes.multiline then (if modes.crlf then .crlfLineEnd else .lineEnd) else .textEnd
  | .textStart => .textStart
  | .textEnd => .textEnd
  | .word side => .word side modes.unicode

def counts (modes : Modes) (counts : Counts) : Counts :=
  { counts with greedy := counts.greedy != modes.swapGreed }

def inside (modes : Modes) : GroupKind → Modes
  | .capture _ _ => modes
  | .plain change => modes.change change

end Modes

def GroupKind.regex (part : Regex) : GroupKind → Regex
  | .capture index name => .capture index name part
  | .plain _ => part

namespace Pattern

/-- The meanings of the alternatives of the pattern, and the modes after it. -/
@[simp] def alternatives [PropertyTable] (modes : Modes) : Pattern → Except Fault (List Regex × Modes)
  | .empty => .ok ([.empty], modes)
  | .literal character => .ok ([modes.literal character], modes)
  | .byte character =>
      if modes.unicode then .ok ([modes.literal character], modes) else .error .notText
  | .dot => modes.dot.map (fun dot => ([dot], modes))
  | .charClass set => (modes.charClass set).map (fun set => ([set], modes))
  | .anchor assertion => .ok ([.look (modes.anchor assertion)], modes)
  | .repetition counts part =>
      match part.alternatives modes with
      | .ok (parts, after) => .ok ([.repeated (modes.counts counts) (.choiceOf parts)], after)
      | .error fault => .error fault
  | .group kind part =>
      match part.alternatives (modes.inside kind) with
      | .ok (parts, _) => .ok ([kind.regex (.choiceOf parts)], modes)
      | .error fault => .error fault
  | .modes change => .ok ([.empty], modes.change change)
  | .sequence left right =>
      match left.alternatives modes with
      | .ok (lefts, between) =>
          match right.alternatives between with
          | .ok (rights, after) =>
              .ok ([(Regex.choiceOf lefts).andThen (.choiceOf rights)], after)
          | .error fault => .error fault
      | .error fault => .error fault
  | .choice left right =>
      match left.alternatives modes with
      | .ok (lefts, between) =>
          match right.alternatives between with
          | .ok (rights, after) => .ok (lefts ++ rights, after)
          | .error fault => .error fault
      | .error fault => .error fault

def regex [PropertyTable] (modes : Modes) (pattern : Pattern) : Except Fault Regex :=
  (pattern.alternatives modes).map (fun parts => .choiceOf parts.1)

end Pattern
end ReadableRegex
