import NetProfile.Sink
import NetProfile.Yaml.Quoted

/-!
# Writing documents

A document is written event by event: mappings are opened and closed, and the
scalars between are keys and values in turn. Every mapping is written in block
style, with two spaces of indentation for each level; a mapping without entries
is written as a pair of braces.

## Main definitions

- `Event` — one step of writing
- `Layout` — where in the document the next text goes
- `Layout.react` — what an event writes, or why it is refused
- `Writer` — a layout over a sink
- `Writer.step`, `Writer.feed`, `Writer.finish`

## Design notes

What an event writes depends on the layout alone. The texts are handed to the
sink one after the other, and the layout moves on with each text that the sink
took, so a sink that fails midway leaves the layout where the failure happened.
-/

namespace NetProfile

namespace Yaml

/-- One step of writing a document. -/
inductive Event where
  /-- Opens a mapping, as the document or as the value of the last key. -/
  | openMapping
  /-- Closes the innermost mapping. -/
  | closeMapping
  /-- A key or value, without quotes where that is safe. -/
  | plain (text : String)
  /-- A key or value between double quotes. -/
  | quoted (text : String)
  deriving DecidableEq, Repr

/-- Why an event does not fit its place. -/
inductive LayoutFault where
  /-- A second document. -/
  | alreadyComplete
  /-- A mapping where a key is expected. -/
  | mappingAsKey
  /-- A closing event without an open mapping. -/
  | nothingToClose
  /-- A closing event between a key and its value. -/
  | valueExpected
  /-- A scalar as the document. -/
  | scalarOutside
  /-- The end of the document inside a mapping. -/
  | unclosed
  /-- The end of the document before its start. -/
  | emptyDocument
  deriving DecidableEq, Repr

namespace LayoutFault

/-- The fault in words. -/
def message : LayoutFault → String
  | alreadyComplete => "document already complete"
  | mappingAsKey => "mapping keys must be scalars"
  | nothingToClose => "no mapping to close"
  | valueExpected => "mapping closed while a value is expected"
  | scalarOutside => "scalar outside of a mapping"
  | unclosed => "document has unclosed mappings"
  | emptyDocument => "document is empty"

end LayoutFault

/-- Why writing failed. -/
inductive WriteError where
  /-- The sink failed. -/
  | io (cause : String)
  /-- The event was refused. -/
  | layout (fault : LayoutFault)
  deriving DecidableEq, Repr

namespace WriteError

/-- The error in words. -/
def message : WriteError → String
  | io cause => "I/O error while writing YAML: " ++ cause
  | layout fault => "cannot encode YAML: " ++ fault.message

end WriteError

/-- An open mapping. -/
structure Frame where
  /-- The number of mappings around it. -/
  depth : Nat
  /-- The number of complete entries. -/
  entries : Nat
  /-- Whether a key stands without its value. -/
  awaitingValue : Bool
  /-- Whether the line of the key that the mapping belongs to is still open. -/
  inlinePending : Bool
  deriving DecidableEq, Repr

namespace Frame

/-- The mapping once the value of its last key is complete. -/
def valueDone (f : Frame) : Frame :=
  { f with awaitingValue := false, entries := f.entries + 1 }

/-- The mapping once its first line has begun below the key it belongs to. -/
def lineBroken (f : Frame) : Frame := { f with inlinePending := false }

/-- The mapping once a key has been written. -/
def keyWritten (f : Frame) : Frame := { f with awaitingValue := true }

/-- What stands before a key. -/
def indentation (f : Frame) : String := String.ofList (List.replicate (2 * f.depth) ' ')

end Frame

/-- The open mappings, innermost first, and whether the document is over. -/
structure Layout where
  frames : List Frame := []
  complete : Bool := false
  deriving DecidableEq, Repr, Inhabited

/-- A text to be written and the layout once it has been. -/
structure Chunk where
  text : String
  next : Layout
  deriving DecidableEq, Repr

/-- What an event does. -/
inductive Reaction where
  /-- The event is refused and leaves the layout `next`. -/
  | refuse (fault : LayoutFault) (next : Layout)
  /-- The layout moves to `start`, then the chunks are written in order. -/
  | write (start : Layout) (chunks : List Chunk)
  deriving DecidableEq, Repr

namespace Layout

/-- The layout without its innermost mapping, which has become a value or the
whole document. -/
def afterMapping (frames : List Frame) (complete : Bool) : Layout :=
  match frames with
  | [] => ⟨[], true⟩
  | parent :: rest => ⟨parent.valueDone :: rest, complete⟩

/-- The reaction to an opening event. -/
def reactOpen (l : Layout) : Reaction :=
  match l.frames with
  | [] =>
    if l.complete then .refuse .alreadyComplete l
    else .write { l with frames := [⟨0, 0, false, false⟩] } []
  | parent :: _ =>
    if parent.awaitingValue then
      .write { l with frames := ⟨parent.depth + 1, 0, false, true⟩ :: l.frames } []
    else .refuse .mappingAsKey l

/-- The reaction to a closing event. The mapping is gone even when the event is
refused because a value is missing. -/
def reactClose (l : Layout) : Reaction :=
  match l.frames with
  | [] => .refuse .nothingToClose l
  | frame :: rest =>
    if frame.awaitingValue then .refuse .valueExpected { l with frames := rest }
    else if frame.entries = 0 then
      .write { l with frames := rest }
        [⟨if frame.inlinePending then " \x7b\x7d\n" else "\x7b\x7d\n",
          afterMapping rest l.complete⟩]
    else .write (afterMapping rest l.complete) []

/-- The reaction to a scalar that is written as `text`. -/
def reactScalar (l : Layout) (text : String) : Reaction :=
  match l.frames with
  | [] => .refuse .scalarOutside l
  | frame :: rest =>
    if frame.awaitingValue then
      .write l [⟨" " ++ text ++ "\n", { l with frames := frame.valueDone :: rest }⟩]
    else
      let broken := frame.lineBroken
      let key : Chunk :=
        ⟨frame.indentation ++ text ++ ":", { l with frames := broken.keyWritten :: rest }⟩
      if frame.inlinePending then
        .write l [⟨"\n", { l with frames := broken :: rest }⟩, key]
      else .write l [key]

/-- The reaction to an event. -/
def react (l : Layout) : Event → Reaction
  | .openMapping => l.reactOpen
  | .closeMapping => l.reactClose
  | .plain text => l.reactScalar (String.ofList (plainForm text.toList))
  | .quoted text => l.reactScalar (String.ofList (quote text.toList))

/-- Why the document cannot end here, if it cannot. -/
def unfinished? (l : Layout) : Option LayoutFault :=
  if !l.frames.isEmpty then some .unclosed
  else if !l.complete then some .emptyDocument
  else none

end Layout

/-- A document being written. -/
structure Writer where
  sink : Sink := {}
  layout : Layout := {}

namespace Writer

/-- Hands the chunks to the sink until it fails. -/
def perform (w : Writer) : List Chunk → Writer × Except WriteError Unit
  | [] => (w, .ok ())
  | chunk :: rest =>
    match w.sink.write chunk.text with
    | (sink, none) => perform { sink, layout := chunk.next } rest
    | (sink, some cause) => ({ w with sink }, .error (.io cause))

/-- Takes one event. -/
def step (w : Writer) (e : Event) : Writer × Except WriteError Unit :=
  match w.layout.react e with
  | .refuse fault next => ({ w with layout := next }, .error (.layout fault))
  | .write start chunks => perform { w with layout := start } chunks

/-- Takes events until one fails. -/
def feed (w : Writer) : List Event → Writer × Except WriteError Unit
  | [] => (w, .ok ())
  | e :: rest =>
    match w.step e with
    | (w', .ok ()) => feed w' rest
    | (w', .error err) => (w', .error err)

/-- Ends the document. -/
def finish (w : Writer) : Except WriteError Unit :=
  match w.layout.unfinished? with
  | some fault => .error (.layout fault)
  | none =>
    match w.sink.flush with
    | some cause => .error (.io cause)
    | none => .ok ()

end Writer

end Yaml

end NetProfile
