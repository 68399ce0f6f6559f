/-
# Compiling a source

One pass over the lines.  The first line that is not blank is the title unless
it begins with a directive; every other line is a statement.  Content goes to
the open cell, or is dropped while none is open; a cell is stored when the next
one opens or the source ends.  The first fault ends the pass, and no story
comes of it.

The pass reports what it does as a list of events, those of a failed pass up
to its fault.
-/
import Gamebook.Story
import Gamebook.Source.Statement

namespace Gamebook.Source

/-- Something that happened while compiling.  Lines are counted from 1. -/
inductive Event where
  | blankLine (line : Nat)
  | titleFound (line : Nat) (title : String)
  | cellOpened (line : Nat) (name : String) (label : Option String)
  | cellCommitted (name : String) (id : CellId) (lines : Nat)
  /-- Lines in front of the first cell were dropped. -/
  | orphansDropped (count : Nat)
  | itemDefined (line : Nat) (name : String) (bit : Nat)
  | lineAppended (line : Nat) (cell : String)
deriving DecidableEq

/-- Why there is no source text. -/
inductive FileFault where
  | notFound
  | notUtf8
deriving DecidableEq

/-- Why a source does not compile. -/
inductive CompileError where
  | unexpectedGlyph (line : Nat) (word : String)
  /-- An item definition was refused. -/
  | item (line : Nat) (fault : Fault)
  | unreadable (fault : FileFault)
deriving DecidableEq

namespace CompileError

def line? : CompileError → Option Nat
  | unexpectedGlyph line _ => some line
  | item line _ => some line
  | unreadable _ => none

/-- The sentence that reports an error; a file that cannot be read has none of its own. -/
def message? : CompileError → Option String
  | unexpectedGlyph line word => some s!"line {line}: unexpected glyph in {Text.quoted word}"
  | item line fault => some s!"line {line}: {fault.message}"
  | unreadable _ => none

end CompileError

/-- A story in the making. -/
structure Draft where
  story : Story
  /-- The open cell. -/
  current : Option Cell
  /-- Content lines met while no cell was open. -/
  orphans : Nat
  titleSeen : Bool

namespace Draft

def start (compiledAt : Timestamp) : Draft := ⟨.empty "" compiledAt, none, 0, false⟩

/-- The event that says how many lines were dropped, if any were. -/
def orphanEvents (draft : Draft) : List Event :=
  if 0 < draft.orphans then [.orphansDropped draft.orphans] else []

/-- Store the open cell, if there is one. -/
def close (draft : Draft) : List Event × Draft :=
  match draft.current with
  | none => (draft.orphanEvents, { draft with orphans := 0 })
  | some cell =>
      (draft.orphanEvents ++ [.cellCommitted cell.name cell.id cell.lines.length],
        { draft with story := draft.story.insertCell cell, current := none, orphans := 0 })

def append (draft : Draft) (number : Nat) (line : Line) : List Event × Draft :=
  match draft.current with
  | none => ([], { draft with orphans := draft.orphans + 1 })
  | some cell =>
      ([.lineAppended number cell.name],
        { draft with current := some { cell with lines := cell.lines ++ [line] } })

def apply (draft : Draft) (number : Nat) :
    Statement → List Event × Except CompileError Draft
  | .openCell name label =>
      let (events, closed) := draft.close
      (events ++ [.cellOpened number name label],
        .ok { closed with current := some ⟨name, label, []⟩ })
  | .defineItem name description =>
      match draft.story.items.define name description with
      | .error fault => ([], .error (.item number fault))
      | .ok (item, items) =>
          ([.itemDefined number item.name item.bit],
            .ok { draft with story := { draft.story with items } })
  | .content line =>
      let (events, next) := draft.append number line
      (events, .ok next)
  | .refused word => ([], .error (.unexpectedGlyph number word))

def read (draft : Draft) (number : Nat) (raw : List Char) :
    List Event × Except CompileError Draft :=
  let line := clean raw
  if line.isEmpty then ([.blankLine number], .ok draft)
  else if !draft.titleSeen && !beginsWithDirective line then
    let title := String.ofList line
    ([.titleFound number title],
      .ok { draft with story := { draft.story with title }, titleSeen := true })
  else { draft with titleSeen := true }.apply number (.ofLine line)

/-- Read lines, the first of which has the given number, up to the first fault. -/
def readAll (draft : Draft) (number : Nat) :
    List (List Char) → List Event × Except CompileError Draft
  | [] => ([], .ok draft)
  | raw :: rest =>
      match draft.read number raw with
      | (events, .error e) => (events, .error e)
      | (events, .ok next) =>
          let (later, result) := next.readAll (number + 1) rest
          (events ++ later, result)

end Draft

structure Compilation where
  events : List Event
  result : Except CompileError Story

/-- Compile a source; the instant is noted in the story. -/
def compile (compiledAt : Timestamp) (source : String) : Compilation :=
  match (Draft.start compiledAt).readAll 1 (splitLines source.toList) with
  | (events, .error e) => ⟨events, .error e⟩
  | (events, .ok draft) =>
      let (last, closed) := draft.close
      ⟨events ++ last, .ok closed.story⟩

/-- Compile the bytes of a file, which must be UTF-8; `none` is a file that does not exist. -/
def compileFile (compiledAt : Timestamp) : Option ByteArray → Compilation
  | none => ⟨[], .error (.unreadable .notFound)⟩
  | some bytes =>
      match String.fromUTF8? bytes with
      | none => ⟨[], .error (.unreadable .notUtf8)⟩
      | some source => compile compiledAt source

end Gamebook.Source
