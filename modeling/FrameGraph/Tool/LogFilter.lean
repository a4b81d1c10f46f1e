import FrameGraph.Log
import FrameGraph.Text.Blank

/-! # Log filters

A filter is a list of rules between commas: a level for the lines of the sources whose path starts with
a target, or a level for all. Of the rules that fit a source the one with the longest target decides,
and of two with the same target the later one. A source that no rule fits is silent.
-/

namespace FrameGraph

/-- How much a level shows; `none` is nothing at all. -/
def LogLevel.rank : LogLevel → Nat
  | .error => 1
  | .warn => 2
  | .info => 3
  | .debug => 4
  | .trace => 5

/-- The level's name as lines show it. -/
def LogLevel.word : LogLevel → String
  | .error => "ERROR"
  | .warn => "WARN"
  | .info => "INFO"
  | .debug => "DEBUG"
  | .trace => "TRACE"

/-- A line as it is printed: the level at the right of five columns, the source and the text. -/
def LogLine.print (line : LogLine) : String :=
  "".pushn ' ' (5 - line.level.word.length) ++ s!"{line.level.word} {line.source.path}: {line.text}\n"

structure LogRule where
  /-- Empty for all sources. -/
  target : List Char
  /-- Levels up to this rank are shown. -/
  rank : Nat
deriving DecidableEq, Repr

/-- A filter: its rules, in the order they were written. -/
abbrev LogFilter := List LogRule

namespace LogRule

def ranks : List (String × Nat) :=
  [("off", 0), ("error", 1), ("warn", 2), ("info", 3), ("debug", 4), ("trace", 5), ("0", 0), ("1", 1),
    ("2", 2), ("3", 3), ("4", 4), ("5", 5)]

/-- The rank of a level's name; case does not matter. -/
def rank? (name : List Char) : Option Nat := ranks.lookup (String.ofList (name.map Char.toLower))

def isTargetChar (c : Char) : Bool := c.isAlphanum || c == '_' || c == ':' || c == '-'

/-- A target alone shows everything of its sources. -/
def ofText? (text : List Char) : Option LogRule :=
  match rank? text with
  | some rank => some ⟨[], rank⟩
  | none =>
    let target := text.takeWhile isTargetChar
    match text.drop target.length with
    | [] => some ⟨target, 5⟩
    | '=' :: level => (rank? level).map (⟨target, ·⟩)
    | _ => none

/-- `rule` decides rather than `other`, which was written before. -/
def winner (other rule : LogRule) : LogRule :=
  if other.target.length ≤ rule.target.length then rule else other

end LogRule

namespace LogFilter

/-- Rules without a meaning are passed over; with no rule left, errors are shown. -/
def ofText (text : String) : LogFilter :=
  let parts := (Text.splitOn ',' [] text.toList).filter (!·.isEmpty)
  match parts.filterMap LogRule.ofText? with
  | [] => [⟨[], 1⟩]
  | rules => rules

/-- The rules that fit a source. -/
def fitting (filter : LogFilter) (source : LogSource) : LogFilter :=
  filter.filter fun rule => rule.target.isPrefixOf source.path.toList

def shows (filter : LogFilter) (line : LogLine) : Bool :=
  match filter.fitting line.source with
  | [] => false
  | rule :: rules => decide (line.level.rank ≤ (rules.foldl LogRule.winner rule).rank)

/-- The lines that are shown, as they are printed. -/
def print (filter : LogFilter) (lines : List LogLine) : String :=
  String.join ((lines.filter filter.shows).map LogLine.print)

end LogFilter

end FrameGraph
