import Mathlib.Logic.ExistsUnique
import NetProfile.Proofs.MappingTree

/-!
# What the writer accepts

Over a sink that never fails, the writer takes the events of a mapping tree and
writes the text of that tree, and it takes no other sequence of events to a
finished document.

## Main definitions

- `Sink.NeverFails`, `Sink.extend` — sinks that take everything, and what they hold then
- `Frame.filled` — an open mapping behind some more entries

## Main results

- `Writer.feed_entryEvents` — entries inside an open mapping
- `Writer.feed_events` — a whole tree wherever a mapping may be opened
- `Writer.feed_finish_iff_existsUnique_tree` — complete documents
-/

namespace NetProfile

namespace Sink

/-- A sink that takes every text and can always be flushed. -/
structure NeverFails (sink : Sink) : Prop where
  limit_eq_none : sink.limit = none
  flushCause_eq_none : sink.flushCause = none

/-- The sink with a text behind what it holds. -/
def extend (sink : Sink) (text : String) : Sink :=
  { sink with bytes := sink.bytes ++ text.toUTF8 }

/-- The sink that writing starts with by default takes everything. -/
theorem neverFails_default : ({} : Sink).NeverFails := ⟨rfl, rfl⟩

/-- Two texts one after the other are one text. -/
@[simp]
theorem extend_extend (sink : Sink) (s t : String) : (sink.extend s).extend t = sink.extend (s ++ t) := by
  simp only [extend, String.toUTF8_eq_toByteArray, String.toByteArray_append, ByteArray.append_assoc]

@[simp]
theorem extend_empty (sink : Sink) : sink.extend "" = sink := by
  simp [extend]

theorem bytes_extend (sink : Sink) (text : String) :
    (sink.extend text).bytes = sink.bytes ++ text.toUTF8 := rfl

namespace NeverFails

variable {sink : Sink}

/-- Extending a sink does not make it fail. -/
theorem extend (h : sink.NeverFails) (text : String) : (sink.extend text).NeverFails :=
  ⟨h.limit_eq_none, h.flushCause_eq_none⟩

theorem write (h : sink.NeverFails) (text : String) :
    sink.write text = (sink.extend text, none) :=
  write_of_limit_eq_none h.limit_eq_none text

end NeverFails

end Sink

namespace Yaml

namespace Frame

/-- What ends the line of the key that the mapping belongs to, where that line is
still open. -/
def lead (f : Frame) : String := if f.inlinePending then "\n" else ""

/-- The mapping behind the entries of `t`. -/
def filled (f : Frame) (t : MappingTree) : Frame :=
  match t with
  | [] => f
  | _ :: _ => { f with entries := f.entries + t.length, inlinePending := false }

/-- What is printed for the entries of `t` in the mapping. -/
def printed (f : Frame) (t : MappingTree) : String :=
  match t with
  | [] => ""
  | _ :: _ => f.lead ++ t.printEntries f.depth

@[simp]
theorem awaitingValue_filled (f : Frame) (t : MappingTree) :
    (f.filled t).awaitingValue = f.awaitingValue := by
  cases t with
  | nil => rfl
  | cons entry rest => rfl

@[simp]
theorem depth_keyWritten (f : Frame) : f.keyWritten.depth = f.depth := rfl

@[simp]
theorem depth_lineBroken (f : Frame) : f.lineBroken.depth = f.depth := rfl

/-- A mapping fills up entry by entry. -/
theorem filled_cons (f : Frame) (entry : Scalar × Content) (t : MappingTree)
    (hf : f.awaitingValue = false) :
    (f.lineBroken.keyWritten.valueDone).filled t = f.filled (entry :: t) := by
  cases t with
  | nil => simp [filled, lineBroken, keyWritten, valueDone, hf]
  | cons next rest =>
    simp only [filled, lineBroken, keyWritten, valueDone, hf, List.length_cons, mk.injEq, true_and,
      and_self, and_true]
    omega

/-- Only the first entry of a mapping ends the line before. -/
theorem printed_cons (f : Frame) (k : Scalar) (c : Content) (t : MappingTree) :
    f.lead ++ margin f.depth ++ k.token ++ ":" ++ c.print f.depth
      ++ (f.lineBroken.keyWritten.valueDone).printed t = f.printed ((k, c) :: t) := by
  have hrest : (f.lineBroken.keyWritten.valueDone).printed t = t.printEntries f.depth := by
    cases t with
    | nil => rfl
    | cons next rest => simp [printed, lead, lineBroken, keyWritten, valueDone]
  rw [hrest, printed, MappingTree.printEntries]
  simp only [String.append_assoc]

end Frame

namespace Writer

variable {sink : Sink} {f : Frame} {outer : List Frame} {complete : Bool}

theorem feed_cons_of_step {w w' : Writer} {e : Event} (h : w.step e = (w', .ok ()))
    (rest : List Event) : w.feed (e :: rest) = w'.feed rest := by
  rw [feed, h]

theorem feed_cons_of_refused {w w' : Writer} {e : Event} {err : WriteError}
    (h : w.step e = (w', .error err)) (rest : List Event) :
    w.feed (e :: rest) = (w', .error err) := by
  rw [feed, h]

theorem perform_single (hs : sink.NeverFails) (l : Layout) (chunk : Chunk) :
    ({ sink, layout := l } : Writer).perform [chunk] =
      ({ sink := sink.extend chunk.text, layout := chunk.next }, .ok ()) := by
  simp only [perform, hs.write]

theorem step_key (hs : sink.NeverFails) (hf : f.awaitingValue = false) (k : Scalar) :
    ({ sink, layout := ⟨f :: outer, complete⟩ } : Writer).step k.event =
      ({ sink := sink.extend (f.lead ++ margin f.depth ++ k.token ++ ":")
         layout := ⟨f.lineBroken.keyWritten :: outer, complete⟩ }, .ok ()) := by
  have hindent : f.indentation = margin f.depth := rfl
  simp only [step, k.react_event, Layout.reactScalar, hf, Bool.false_eq_true, if_false, hindent]
  cases hp : f.inlinePending with
  | true =>
    have hlead : f.lead = "\n" := by simp [Frame.lead, hp]
    simp only [if_true, perform, hs.write, (hs.extend _).write, Sink.extend_extend, hlead,
      String.append_assoc]
  | false =>
    have hlead : f.lead = "" := by simp [Frame.lead, hp]
    simp only [Bool.false_eq_true, if_false, perform_single hs, hlead, String.empty_append]

theorem step_value (hs : sink.NeverFails) (hf : f.awaitingValue = true) (v : Scalar) :
    ({ sink, layout := ⟨f :: outer, complete⟩ } : Writer).step v.event =
      ({ sink := sink.extend (" " ++ v.token ++ "\n")
         layout := ⟨f.valueDone :: outer, complete⟩ }, .ok ()) := by
  simp only [step, v.react_event, Layout.reactScalar, hf, if_true, perform_single hs]

theorem step_open (hf : f.awaitingValue = true) :
    ({ sink, layout := ⟨f :: outer, complete⟩ } : Writer).step .openMapping =
      ({ sink, layout := ⟨⟨f.depth + 1, 0, false, true⟩ :: f :: outer, complete⟩ }, .ok ()) := by
  simp only [step, Layout.react, Layout.reactOpen, hf, if_true, perform]

/-- A mapping opened where no document has been begun. -/
theorem step_open_root :
    ({ sink, layout := ⟨[], false⟩ } : Writer).step .openMapping =
      ({ sink, layout := ⟨[⟨0, 0, false, false⟩], false⟩ }, .ok ()) := rfl

theorem step_close_empty (hs : sink.NeverFails) (hf : f.awaitingValue = false)
    (he : f.entries = 0) :
    ({ sink, layout := ⟨f :: outer, complete⟩ } : Writer).step .closeMapping =
      ({ sink := sink.extend (if f.inlinePending then " \x7b\x7d\n" else "\x7b\x7d\n")
         layout := Layout.afterMapping outer complete }, .ok ()) := by
  simp only [step, Layout.react, Layout.reactClose, hf, he, Bool.false_eq_true, if_false, if_true,
    perform_single hs]

theorem step_close (hf : f.awaitingValue = false) (he : f.entries ≠ 0) :
    ({ sink, layout := ⟨f :: outer, complete⟩ } : Writer).step .closeMapping =
      ({ sink, layout := Layout.afterMapping outer complete }, .ok ()) := by
  simp only [step, Layout.react, Layout.reactClose, hf, he, Bool.false_eq_true, if_false, perform]

/-- Once a mapping is filled, its end leaves the text of a value behind its key. -/
theorem step_close_filled (hs : sink.NeverFails) (d : Nat) (t : MappingTree) :
    ({ sink := sink.extend ((⟨d + 1, 0, false, true⟩ : Frame).printed t)
       layout := ⟨(⟨d + 1, 0, false, true⟩ : Frame).filled t :: outer, complete⟩ } : Writer).step
        .closeMapping =
      ({ sink := sink.extend ((Content.mapping t).print d)
         layout := Layout.afterMapping outer complete }, .ok ()) := by
  cases t with
  | nil =>
    rw [Frame.printed, Sink.extend_empty]
    exact step_close_empty hs rfl rfl
  | cons entry rest =>
    rw [step_close rfl (by simp [Frame.filled])]
    rfl

/-- The entries of a tree inside an open mapping. The induction is on the tree; the
mapping that is being filled, the mappings around it and the text so far vary, since
each entry moves them on. -/
theorem feed_entryEvents (hs : sink.NeverFails) (hf : f.awaitingValue = false) (t : MappingTree)
    (more : List Event) :
    ({ sink, layout := ⟨f :: outer, complete⟩ } : Writer).feed (t.entryEvents ++ more) =
      ({ sink := sink.extend (f.printed t)
         layout := ⟨f.filled t :: outer, complete⟩ } : Writer).feed more := by
  induction t using MappingTree.induction generalizing sink f outer more with
  | nil =>
    simp only [MappingTree.entryEvents_nil, List.nil_append, Frame.printed, Sink.extend_empty,
      Frame.filled]
  | scalar k v rest ih =>
    simp only [MappingTree.entryEvents_cons_scalar, List.cons_append]
    rw [feed_cons_of_step (step_key hs hf k), feed_cons_of_step (step_value (hs.extend _) rfl v),
      ih ((hs.extend _).extend _) rfl more, Frame.filled_cons f (k, .scalar v) rest hf,
      ← Frame.printed_cons f k (.scalar v) rest]
    simp only [Sink.extend_extend, Content.print, String.append_assoc]
  | mapping k t rest iht ih =>
    simp only [MappingTree.entryEvents_cons_mapping, List.cons_append, List.append_assoc]
    rw [feed_cons_of_step (step_key hs hf k), feed_cons_of_step (step_open rfl),
      iht (hs.extend _) rfl, Frame.depth_keyWritten, Frame.depth_lineBroken,
      feed_cons_of_step (step_close_filled (hs.extend _) f.depth t), Layout.afterMapping,
      ih ((hs.extend _).extend _) rfl more, Frame.filled_cons f (k, .mapping t) rest hf,
      ← Frame.printed_cons f k (.mapping t) rest]
    simp only [Sink.extend_extend, String.append_assoc]

end Writer

namespace Layout

/-- A mapping may be opened: as the document, or as the value of a key. -/
def AdmitsMapping (l : Layout) : Prop :=
  match l.frames with
  | [] => l.complete = false
  | f :: _ => f.awaitingValue = true

/-- The layout once the value or the document that was due is complete. -/
def afterTree (l : Layout) : Layout := afterMapping l.frames l.complete

/-- What the layout refuses a mapping with. -/
def mappingFault (l : Layout) : LayoutFault :=
  if l.frames.isEmpty then .alreadyComplete else .mappingAsKey

/-- The text of a tree where a mapping may be opened. -/
def printed (l : Layout) (t : MappingTree) : String :=
  match l.frames with
  | [] => t.print
  | f :: _ => (Content.mapping t).print f.depth

end Layout

namespace Writer

variable {sink : Sink}

/-- The events of a tree, wherever a mapping may be opened. -/
theorem feed_events {l : Layout} (hs : sink.NeverFails) (hl : l.AdmitsMapping) (t : MappingTree)
    (more : List Event) :
    ({ sink, layout := l } : Writer).feed (t.events ++ more) =
      ({ sink := sink.extend (l.printed t), layout := l.afterTree } : Writer).feed more := by
  rw [MappingTree.events_eq, List.cons_append, List.append_assoc]
  rcases l with ⟨_ | ⟨f, outer⟩, complete⟩
  · obtain rfl : complete = false := hl
    rw [feed_cons_of_step step_open_root, feed_entryEvents hs rfl]
    cases t with
    | nil =>
      rw [Frame.printed, Sink.extend_empty, List.singleton_append]
      exact feed_cons_of_step (step_close_empty hs rfl rfl) more
    | cons entry rest =>
      rw [List.singleton_append,
        feed_cons_of_step (step_close rfl (by simp [Frame.filled]))]
      simp only [Frame.printed, Frame.lead, Bool.false_eq_true, if_false, String.empty_append]
      rfl
  · have hf : f.awaitingValue = true := hl
    rw [feed_cons_of_step (step_open hf), feed_entryEvents hs rfl, List.singleton_append,
      feed_cons_of_step (step_close_filled hs f.depth t)]
    rfl

/-- Where no mapping may be opened, nothing happens when one is. -/
theorem step_open_refused {w : Writer} (hl : ¬ w.layout.AdmitsMapping) :
    w.step .openMapping = (w, .error (.layout w.layout.mappingFault)) := by
  rcases w with ⟨sink, ⟨_ | ⟨f, outer⟩, complete⟩⟩
  · have hc : complete = true := by simpa [Layout.AdmitsMapping] using hl
    subst hc
    rfl
  · have hf : f.awaitingValue = false := by simpa [Layout.AdmitsMapping] using hl
    simp only [step, Layout.react, Layout.reactOpen, hf, Bool.false_eq_true, if_false]
    rfl

/-- A mapping cannot end between a key and its value. -/
theorem step_close_refused {f : Frame} {outer : List Frame} {complete : Bool}
    (hf : f.awaitingValue = true) :
    ({ sink, layout := ⟨f :: outer, complete⟩ } : Writer).step .closeMapping =
      ({ sink, layout := ⟨outer, complete⟩ }, .error (.layout .valueExpected)) := by
  simp only [step, Layout.react, Layout.reactClose, hf, if_true]

/-- Events that lead out of an open mapping begin with entries and the end of the
mapping. The induction is on the number of events, since the events behind a nested
mapping are known only once those inside it are. -/
theorem exists_entryEvents_of_feed {events : List Event} {f : Frame} {outer : List Frame}
    {complete : Bool} {w : Writer} (hs : sink.NeverFails) (hf : f.awaitingValue = false)
    (h : ({ sink, layout := ⟨f :: outer, complete⟩ } : Writer).feed events = (w, .ok ()))
    (hw : w.layout.frames = []) :
    ∃ (t : MappingTree) (more : List Event), events = t.entryEvents ++ .closeMapping :: more := by
  induction hn : events.length using Nat.strongRecOn generalizing events sink f outer with
  | ind n ih =>
    subst hn
    rcases events with _ | ⟨e, rest⟩
    · rw [feed, Prod.mk.injEq] at h
      rw [← h.1] at hw
      exact absurd hw (List.cons_ne_nil _ _)
    rcases Scalar.exists_of_event e with rfl | rfl | ⟨k, rfl⟩
    · have hopen : ¬ (⟨f :: outer, complete⟩ : Layout).AdmitsMapping := by
        simp [Layout.AdmitsMapping, hf]
      rw [feed_cons_of_refused (step_open_refused hopen)] at h
      exact absurd (congrArg Prod.snd h) (by simp)
    · exact ⟨[], rest, rfl⟩
    rw [feed_cons_of_step (step_key hs hf k)] at h
    rcases rest with _ | ⟨e', rest⟩
    · rw [feed, Prod.mk.injEq] at h
      rw [← h.1] at hw
      exact absurd hw (List.cons_ne_nil _ _)
    rcases Scalar.exists_of_event e' with rfl | rfl | ⟨v, rfl⟩
    · -- The inner mapping comes first, then what follows it.
      rw [feed_cons_of_step (step_open rfl)] at h
      obtain ⟨t, more, rfl⟩ := ih rest.length (by simp only [List.length_cons]; omega) (hs.extend _) rfl h rfl
      rw [feed_entryEvents (hs.extend _) rfl, Frame.depth_keyWritten, Frame.depth_lineBroken,
        feed_cons_of_step (step_close_filled (hs.extend _) f.depth t), Layout.afterMapping] at h
      obtain ⟨u, more', rfl⟩ :=
        ih more.length (by simp; omega) ((hs.extend _).extend _) rfl h rfl
      exact ⟨(k, .mapping t) :: u, more', by simp⟩
    · rw [feed_cons_of_refused (step_close_refused rfl)] at h
      exact absurd (congrArg Prod.snd h) (by simp)
    · rw [feed_cons_of_step (step_value (hs.extend _) rfl v)] at h
      obtain ⟨t, more, rfl⟩ := ih rest.length (by simp only [List.length_cons]; omega)
        ((hs.extend _).extend _) rfl h rfl
      exact ⟨(k, .scalar v) :: t, more, rfl⟩

/-- A finished document takes no event. -/
theorem step_complete_refused (e : Event) :
    ∃ fault, ({ sink, layout := ⟨[], true⟩ } : Writer).step e =
      ({ sink, layout := ⟨[], true⟩ }, .error (.layout fault)) := by
  cases e with
  | openMapping => exact ⟨.alreadyComplete, rfl⟩
  | closeMapping => exact ⟨.nothingToClose, rfl⟩
  | plain text => exact ⟨.scalarOutside, rfl⟩
  | quoted text => exact ⟨.scalarOutside, rfl⟩

theorem layout_of_finish {w : Writer} (h : w.finish = .ok ()) :
    w.layout.frames = [] ∧ w.layout.complete = true := by
  rcases w with ⟨sink, ⟨_ | ⟨f, outer⟩, _ | _⟩⟩
  · simp [finish, Layout.unfinished?] at h
  · exact ⟨rfl, rfl⟩
  · simp [finish, Layout.unfinished?] at h
  · simp [finish, Layout.unfinished?] at h

/-- Over a sink that never fails, a complete document can be finished. -/
theorem finish_of_complete (hs : sink.NeverFails) :
    ({ sink, layout := ⟨[], true⟩ } : Writer).finish = .ok () := by
  simp [finish, Layout.unfinished?, Sink.flush, hs.flushCause_eq_none]

/-- The events of a tree make a complete document of it. -/
theorem feed_events_fresh (hs : sink.NeverFails) (t : MappingTree) :
    ({ sink } : Writer).feed t.events =
      ({ sink := sink.extend t.print, layout := ⟨[], true⟩ }, .ok ()) := by
  have h := feed_events (l := {}) hs rfl t []
  rw [List.append_nil] at h
  exact h

/-- Events that make a complete document are those of a tree. -/
theorem exists_tree_of_feed (hs : sink.NeverFails) {events : List Event} {w : Writer}
    (h : ({ sink } : Writer).feed events = (w, .ok ())) (hw : w.finish = .ok ()) :
    ∃ t : MappingTree, t.events = events := by
  obtain ⟨hframes, hcomplete⟩ := layout_of_finish hw
  rcases events with _ | ⟨e, rest⟩
  · rw [feed, Prod.mk.injEq] at h
    rw [← h.1] at hcomplete
    exact absurd hcomplete Bool.false_ne_true
  rcases Scalar.exists_of_event e with rfl | rfl | ⟨k, rfl⟩
  · have hopen := feed_cons_of_step (@step_open_root sink) rest
    obtain ⟨t, more, rfl⟩ := exists_entryEvents_of_feed hs rfl (hopen.symm.trans h) hframes
    have hfeed := feed_events (l := {}) hs rfl t more
    rw [MappingTree.events_eq, List.cons_append, List.append_assoc, List.singleton_append, h]
      at hfeed
    -- Nothing can follow the end of the document.
    rcases more with _ | ⟨e, more⟩
    · exact ⟨t, t.events_eq⟩
    · obtain ⟨fault, hstep⟩ := @step_complete_refused (sink.extend t.print) e
      have hrefused := hfeed.trans (feed_cons_of_refused hstep more)
      exact absurd (congrArg Prod.snd hrefused) (by simp)
  · exact absurd (congrArg Prod.snd h) (by simp [feed, step, Layout.react, Layout.reactClose])
  · exact absurd (congrArg Prod.snd h)
      (by simp [feed, step, Scalar.react_event, Layout.reactScalar])

/-- Over a sink that never fails, a sequence of events is a whole document for a
fresh writer exactly when it is the sequence of one mapping tree; and then the sink
holds the text of that tree. -/
theorem feed_finish_iff_existsUnique_tree (sink : Sink) (hs : sink.NeverFails)
    (events : List Event) :
    ((({ sink } : Writer).feed events).2 = .ok () ∧
        (({ sink } : Writer).feed events).1.finish = .ok () ↔
      ∃! t : MappingTree, t.events = events) ∧
    ∀ t : MappingTree, t.events = events →
      (({ sink } : Writer).feed events).1.sink.bytes = sink.bytes ++ t.print.toUTF8 := by
  refine ⟨⟨?_, ?_⟩, ?_⟩
  · rintro ⟨hfeed, hfinish⟩
    obtain ⟨t, ht⟩ := exists_tree_of_feed hs (Prod.ext rfl hfeed) hfinish
    exact ⟨t, ht, fun u hu => MappingTree.events_injective (hu.trans ht.symm)⟩
  · rintro ⟨t, rfl, -⟩
    rw [feed_events_fresh hs t]
    exact ⟨rfl, finish_of_complete (hs.extend _)⟩
  · rintro t rfl
    rw [feed_events_fresh hs t]
    rfl

/-- An empty mapping behind a key, and a scalar that has to be quoted. -/
theorem feed_nested_document :
    ({} : Sink).NeverFails ∧
      (({} : Writer).feed [.openMapping, .plain "match", .openMapping, .closeMapping,
        .plain "id", .plain "a: b", .closeMapping]).1.sink.bytes =
        "match: \x7b\x7d\nid: \"a: b\"\n".toUTF8 := by
  refine ⟨Sink.neverFails_default, ?_⟩
  have h := (feed_finish_iff_existsUnique_tree {} Sink.neverFails_default
    [.openMapping, .plain "match", .openMapping, .closeMapping, .plain "id", .plain "a: b",
      .closeMapping]).2
    [(⟨.plain, "match"⟩, .mapping []), (⟨.plain, "id"⟩, .scalar ⟨.plain, "a: b"⟩)] rfl
  exact h

end Writer

end Yaml

end NetProfile
