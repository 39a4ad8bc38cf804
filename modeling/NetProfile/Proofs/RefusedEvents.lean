import Mathlib.Data.List.Induction
import NetProfile.Proofs.WriterAcceptance

/-!
# Events that are refused

A writer may go on after an event that it refused. Every refused event leaves the sink as
it is, and all but one kind leave the writer as it is, so that a run can be told from the
events that were taken. The exception ends a mapping between a key and its value: it is
refused, and the mapping is lost all the same. What follows then goes into the mapping
around, on the line of the key that has no value.

## Main definitions

- `Writer.run`, `Writer.answers` — a run that goes on after errors
- `Writer.taken` — the events of a run that are not refused
- `Writer.KeepsMappings` — runs in which no mapping is lost

## Main results

- `Writer.step_refused` — what one refused event does
- `Writer.run_answers_taken` — refused events can be left out where no mapping is lost
- `Writer.keepsMappings_of_run_taken` — and only there
- `Writer.run_taken_iff_keepsMappings` — whole runs over a sink that never fails
-/

namespace NetProfile

namespace Yaml

/-- Whether the answer is that the event does not fit its place. -/
def WriteError.isRefusal : Except WriteError Unit → Bool
  | .error (.layout _) => true
  | .error (.io _) => false
  | .ok () => false

namespace Layout

/-- The layout without its innermost mapping, which has become nothing. -/
def dropInnermost (l : Layout) : Layout := { l with frames := l.frames.tail }

/-- Only a mapping that is ended too early is lost. -/
theorem react_refuse {l next : Layout} {e : Event} {fault : LayoutFault}
    (h : l.react e = .refuse fault next) :
    fault ≠ .valueExpected ∧ next = l ∨
      fault = .valueExpected ∧ next = l.dropInnermost ∧ l.frames ≠ [] := by
  rcases l with ⟨_ | ⟨f, outer⟩, complete⟩
  · -- Outside of all mappings there is nothing to lose.
    refine Or.inl ?_
    rcases Scalar.exists_of_event e with rfl | rfl | ⟨s, rfl⟩
    · rw [react, reactOpen] at h
      dsimp only at h
      split_ifs at h
      cases h
      exact ⟨LayoutFault.noConfusion, rfl⟩
    · cases h
      exact ⟨LayoutFault.noConfusion, rfl⟩
    · rw [s.react_event] at h
      cases h
      exact ⟨LayoutFault.noConfusion, rfl⟩
  · rcases Scalar.exists_of_event e with rfl | rfl | ⟨s, rfl⟩
    · rw [react, reactOpen] at h
      dsimp only at h
      split_ifs at h
      cases h
      exact Or.inl ⟨LayoutFault.noConfusion, rfl⟩
    · rw [react, reactClose] at h
      dsimp only at h
      split_ifs at h
      cases h
      exact Or.inr ⟨rfl, rfl, List.cons_ne_nil _ _⟩
    · rw [s.react_event, reactScalar] at h
      dsimp only at h
      split_ifs at h

end Layout

namespace Writer

/-- Takes all events, also those behind one that failed. -/
def run (w : Writer) (events : List Event) : Writer := events.foldl (fun w e => (w.step e).1) w

/-- The events of a run with the answers to them. -/
def answers (w : Writer) : List Event → List (Event × Except WriteError Unit)
  | [] => []
  | e :: rest => (e, (w.step e).2) :: (w.step e).1.answers rest

/-- The events of a run that are not refused. -/
def taken (w : Writer) (events : List Event) : List Event :=
  ((w.answers events).filter (fun answer => !WriteError.isRefusal answer.2)).map Prod.fst

/-- No mapping of the run is ended between a key and its value. -/
def KeepsMappings (w : Writer) (events : List Event) : Prop :=
  ∀ answer ∈ w.answers events, answer.2 ≠ .error (.layout .valueExpected)

instance (w : Writer) (events : List Event) : Decidable (w.KeepsMappings events) :=
  inferInstanceAs (Decidable (∀ answer ∈ w.answers events, _))

section Step

variable {w : Writer} {e : Event} {fault : LayoutFault}

theorem perform_ne_layout (w : Writer) (chunks : List Chunk) :
    (w.perform chunks).2 ≠ .error (.layout fault) := by
  induction chunks generalizing w with
  | nil =>
    intro h
    cases h
  | cons chunk rest ih =>
    rw [perform]
    split
    · exact ih _
    · intro h
      cases h

/-- What an event does that is refused. -/
theorem step_refused (h : (w.step e).2 = .error (.layout fault)) :
    fault ≠ .valueExpected ∧ (w.step e).1 = w ∨
      fault = .valueExpected ∧ (w.step e).1 = { w with layout := w.layout.dropInnermost } ∧
        w.layout.frames ≠ [] := by
  cases hreact : w.layout.react e with
  | write start chunks =>
    rw [step, hreact] at h
    exact absurd h (perform_ne_layout _ chunks)
  | refuse fault' next =>
    have hstep : w.step e = ({ w with layout := next }, .error (.layout fault')) := by
      rw [step, hreact]
    rw [hstep] at h ⊢
    cases h
    rcases Layout.react_refuse hreact with ⟨hfault, rfl⟩ | ⟨hfault, rfl, hframes⟩
    · exact Or.inl ⟨hfault, rfl⟩
    · exact Or.inr ⟨hfault, rfl, hframes⟩

theorem step_of_isRefusal (h : WriteError.isRefusal (w.step e).2 = true) :
    ∃ fault, (w.step e).2 = .error (.layout fault) := by
  rcases hanswer : (w.step e).2 with (cause | fault) | ⟨⟩
  · rw [hanswer] at h
    cases h
  · exact ⟨fault, rfl⟩
  · rw [hanswer] at h
    cases h

/-- The writer is where it was when an event has been refused, unless a mapping is lost. -/
theorem step_eq_self (h : WriteError.isRefusal (w.step e).2 = true)
    (hkeep : (w.step e).2 ≠ .error (.layout .valueExpected)) : (w.step e).1 = w := by
  obtain ⟨fault, hfault⟩ := step_of_isRefusal h
  rcases step_refused hfault with ⟨-, hstep⟩ | ⟨rfl, -⟩
  · exact hstep
  · exact absurd hfault hkeep

end Step

section Run

variable {w : Writer} {events : List Event} {e : Event}

theorem run_append (w : Writer) (events more : List Event) :
    w.run (events ++ more) = (w.run events).run more := List.foldl_append

theorem answers_append (w : Writer) (events more : List Event) :
    w.answers (events ++ more) = w.answers events ++ (w.run events).answers more := by
  induction events generalizing w with
  | nil => rfl
  | cons e rest ih =>
    rw [List.cons_append, answers, ih]
    rfl

theorem taken_cons (w : Writer) (e : Event) (rest : List Event) :
    w.taken (e :: rest) =
      if WriteError.isRefusal (w.step e).2 then (w.step e).1.taken rest
      else e :: (w.step e).1.taken rest := by
  rw [taken, answers, List.filter_cons]
  cases hrefusal : WriteError.isRefusal (w.step e).2 with
  | true => rfl
  | false => rfl

theorem taken_concat_of_isRefusal (h : WriteError.isRefusal ((w.run events).step e).2 = true) :
    w.taken (events ++ [e]) = w.taken events := by
  rw [taken, answers_append, List.filter_append, answers, List.filter_cons, h]
  exact congrArg (List.map Prod.fst) (List.append_nil _)

theorem keepsMappings_cons {rest : List Event} :
    w.KeepsMappings (e :: rest) ↔
      (w.step e).2 ≠ .error (.layout .valueExpected) ∧ (w.step e).1.KeepsMappings rest := by
  rw [KeepsMappings, answers, List.forall_mem_cons]
  rfl

/-- Where no mapping is lost, the taken events alone lead to the same place, and each gets
the answer that it got. -/
theorem run_answers_taken (h : w.KeepsMappings events) :
    w.run (w.taken events) = w.run events ∧
      w.answers (w.taken events) =
        (w.answers events).filter (fun answer => !WriteError.isRefusal answer.2) := by
  induction events generalizing w with
  | nil => exact ⟨rfl, rfl⟩
  | cons e rest ih =>
    obtain ⟨hkeep, hrest⟩ := keepsMappings_cons.1 h
    obtain ⟨hrun, hanswers⟩ := ih hrest
    have hrunCons : w.run (e :: rest) = (w.step e).1.run rest := rfl
    rw [taken_cons, hrunCons, answers, List.filter_cons]
    cases hrefusal : WriteError.isRefusal (w.step e).2 with
    | true =>
      -- The rest of the run starts where this event was refused.
      rw [step_eq_self hrefusal hkeep] at hrun hanswers ⊢
      exact ⟨hrun, hanswers⟩
    | false =>
      refine ⟨hrun, ?_⟩
      rw [if_neg Bool.false_ne_true, answers, hanswers]
      rfl

/-- A mapping that is lost shows in what the events before it have written. -/
theorem keepsMappings_of_run_taken
    (h : ∀ before, before <+: events → w.run (w.taken before) = w.run before) :
    w.KeepsMappings events := by
  induction events using List.reverseRecOn with
  | nil => exact fun answer hanswer => absurd hanswer List.not_mem_nil
  | append_singleton events e ih =>
    have hevents := ih (fun before hbefore => h before (hbefore.trans (List.prefix_append _ _)))
    rw [KeepsMappings, answers_append]
    intro answer hanswer
    rcases List.mem_append.1 hanswer with hanswer | hanswer
    · exact hevents answer hanswer
    obtain rfl := List.mem_singleton.1 hanswer
    intro hlost
    -- Without the last event the run ends where it ends with it, but one mapping is gone.
    have hstay : w.run (events ++ [e]) = w.run events := by
      rw [← h _ (List.prefix_refl _), ← h events (List.prefix_append _ _),
        taken_concat_of_isRefusal (by rw [hlost]; rfl)]
    rcases step_refused hlost with ⟨hfault, -⟩ | ⟨-, hdrop, hframes⟩
    · exact hfault rfl
    · have hlast : w.run (events ++ [e]) = ((w.run events).step e).1 := run_append w events [e]
      rw [hlast, hdrop] at hstay
      have hlength : (w.run events).layout.frames.tail.length =
          (w.run events).layout.frames.length :=
        congrArg (fun v : Writer => v.layout.frames.length) hstay
      have hpos := List.length_pos_iff.2 hframes
      rw [List.length_tail] at hlength
      omega

theorem feed_of_answers (h : ∀ answer ∈ w.answers events, answer.2 = .ok ()) :
    w.feed events = (w.run events, .ok ()) := by
  induction events generalizing w with
  | nil => rfl
  | cons e rest ih =>
    rw [answers, List.forall_mem_cons] at h
    rw [feed_cons_of_step (Prod.ext rfl h.1), ih h.2]
    rfl

end Run

section NeverFails

variable {w : Writer}

theorem perform_of_neverFails (hs : w.sink.NeverFails) (chunks : List Chunk) :
    (w.perform chunks).2 = .ok () ∧ (w.perform chunks).1.sink.NeverFails := by
  induction chunks generalizing w with
  | nil => exact ⟨rfl, hs⟩
  | cons chunk rest ih =>
    simp only [perform, hs.write]
    exact ih (hs.extend chunk.text)

theorem step_of_neverFails (hs : w.sink.NeverFails) (e : Event) :
    ((w.step e).2 = .ok () ∨ WriteError.isRefusal (w.step e).2 = true) ∧
      (w.step e).1.sink.NeverFails := by
  rw [step]
  cases w.layout.react e with
  | refuse fault next => exact ⟨Or.inr rfl, hs⟩
  | write start chunks =>
    obtain ⟨hanswer, hsink⟩ := perform_of_neverFails (w := { w with layout := start }) hs chunks
    exact ⟨Or.inl hanswer, hsink⟩

theorem answers_of_neverFails (hs : w.sink.NeverFails) (events : List Event) :
    ∀ answer ∈ w.answers events, answer.2 = .ok () ∨ WriteError.isRefusal answer.2 = true := by
  induction events generalizing w with
  | nil => exact fun answer hanswer => absurd hanswer List.not_mem_nil
  | cons e rest ih =>
    obtain ⟨hanswer, hsink⟩ := step_of_neverFails hs e
    rw [answers, List.forall_mem_cons]
    exact ⟨hanswer, ih hsink⟩

/-- Where no mapping is lost, the taken events make up what has been written. -/
theorem feed_taken (hs : w.sink.NeverFails) {events : List Event} (h : w.KeepsMappings events) :
    w.feed (w.taken events) = (w.run events, .ok ()) := by
  obtain ⟨hrun, hanswers⟩ := run_answers_taken h
  rw [← hrun]
  apply feed_of_answers
  intro answer hanswer
  rw [hanswers, List.mem_filter] at hanswer
  rcases answers_of_neverFails hs events answer hanswer.1 with hok | hrefusal
  · exact hok
  · rw [hrefusal] at hanswer
    exact absurd hanswer.2 Bool.false_ne_true

end NeverFails

/-- Runs of a fresh writer over a sink that never fails. A refused event leaves the sink as
it is, and it leaves the layout as it is but where it ends a mapping between a key and its
value, which drops that mapping. The runs without such an event are those from which the
refused events can be left out; then all other answers stay the same, and a document that
can be finished is that of the taken events. -/
theorem run_taken_iff_keepsMappings (w : Writer) (hs : w.sink.NeverFails) (hw : w.layout = {})
    (events : List Event) :
    (∀ (before : List Event) (e : Event) (fault : LayoutFault),
      ((w.run before).step e).2 = .error (.layout fault) →
        ((w.run before).step e).1.sink = (w.run before).sink ∧
        ((w.run before).step e).1.layout =
          if fault = .valueExpected then (w.run before).layout.dropInnermost
          else (w.run before).layout) ∧
    ((∀ before, before <+: events → w.run (w.taken before) = w.run before) ↔
      w.KeepsMappings events) ∧
    (w.KeepsMappings events →
      w.run (w.taken events) = w.run events ∧
      w.answers (w.taken events) =
        (w.answers events).filter (fun answer => !WriteError.isRefusal answer.2) ∧
      ((w.run events).finish = .ok () →
        ∃ t : MappingTree, t.events = w.taken events ∧
          (w.run events).sink.bytes = w.sink.bytes ++ t.print.toUTF8)) := by
  refine ⟨?_, ⟨keepsMappings_of_run_taken, ?_⟩, ?_⟩
  · intro before e fault hrefused
    rcases step_refused hrefused with ⟨hfault, hstep⟩ | ⟨rfl, hstep, -⟩
    · rw [hstep, if_neg hfault]
      exact ⟨rfl, rfl⟩
    · rw [hstep, if_pos rfl]
      exact ⟨rfl, rfl⟩
  · rintro hkeeps before ⟨after, rfl⟩
    refine (run_answers_taken fun answer hanswer => hkeeps answer ?_).1
    rw [answers_append]
    exact List.mem_append_left _ hanswer
  · intro hkeeps
    obtain ⟨hrun, hanswers⟩ := run_answers_taken hkeeps
    refine ⟨hrun, hanswers, fun hfinish => ?_⟩
    have hfeed := feed_taken hs hkeeps
    rcases w with ⟨sink, layout⟩
    obtain rfl : layout = {} := hw
    obtain ⟨t, ht⟩ := exists_tree_of_feed hs hfeed hfinish
    rw [← ht, feed_events_fresh hs t, Prod.mk.injEq] at hfeed
    refine ⟨t, ht, ?_⟩
    rw [← hfeed.1]
    rfl

/-- A second end, a mapping as a key and a scalar behind the document. -/
theorem run_taken_refusals :
    ({} : Sink).NeverFails ∧
      (({} : Writer).KeepsMappings [.closeMapping, .openMapping, .openMapping, .plain "a",
        .quoted "b", .closeMapping, .closeMapping, .plain "x"] ∧
      ({} : Writer).run [.openMapping, .plain "a", .quoted "b", .closeMapping] =
        ({} : Writer).run [.closeMapping, .openMapping, .openMapping, .plain "a", .quoted "b",
          .closeMapping, .closeMapping, .plain "x"]) ∧
      ∃ t : MappingTree, t.events = [.openMapping, .plain "a", .quoted "b", .closeMapping] ∧
        (({} : Writer).run [.closeMapping, .openMapping, .openMapping, .plain "a", .quoted "b",
          .closeMapping, .closeMapping, .plain "x"]).sink.bytes = t.print.toUTF8 := by
  have hkeeps : ({} : Writer).KeepsMappings [.closeMapping, .openMapping, .openMapping,
      .plain "a", .quoted "b", .closeMapping, .closeMapping, .plain "x"] := by
    decide +kernel
  have hfinish : (({} : Writer).run [.closeMapping, .openMapping, .openMapping,
      .plain "a", .quoted "b", .closeMapping, .closeMapping, .plain "x"]).finish = .ok () := by
    decide +kernel
  have htaken : ({} : Writer).taken [.closeMapping, .openMapping, .openMapping,
      .plain "a", .quoted "b", .closeMapping, .closeMapping, .plain "x"] =
        [.openMapping, .plain "a", .quoted "b", .closeMapping] := by
    decide +kernel
  obtain ⟨hrun, -, hdocument⟩ :=
    (run_taken_iff_keepsMappings {} Sink.neverFails_default rfl _).2.2 hkeeps
  obtain ⟨t, ht, hbytes⟩ := hdocument hfinish
  rw [htaken] at hrun ht
  exact ⟨Sink.neverFails_default, ⟨hkeeps, hrun⟩, t, ht, hbytes.trans ByteArray.empty_append⟩

/-- A mapping is refused its end behind a key and lost. The next mapping takes the place of
the document, on the line of that key, and is finished as one, although no document has the
events that were taken. -/
theorem run_lost_mapping :
    ((({} : Writer).run [.openMapping, .plain "key"]).step .closeMapping).2 =
        .error (.layout .valueExpected) ∧
      ((({} : Writer).run [.openMapping, .plain "key"]).step .closeMapping).1.layout ≠
        (({} : Writer).run [.openMapping, .plain "key"]).layout ∧
      (({} : Writer).run [.openMapping, .plain "key", .closeMapping, .openMapping, .plain "a",
        .plain "b", .closeMapping]).finish = .ok () ∧
      (({} : Writer).run [.openMapping, .plain "key", .closeMapping, .openMapping, .plain "a",
        .plain "b", .closeMapping]).sink.bytes = "key:a: b
".toUTF8 ∧
      (({} : Writer).run (({} : Writer).taken [.openMapping, .plain "key", .closeMapping,
        .openMapping, .plain "a", .plain "b", .closeMapping])).finish =
          .error (.layout .unclosed) ∧
      ∀ t : MappingTree, t.events ≠ ({} : Writer).taken [.openMapping, .plain "key",
        .closeMapping, .openMapping, .plain "a", .plain "b", .closeMapping] := by
  have htaken : ({} : Writer).taken [.openMapping, .plain "key", .closeMapping, .openMapping,
      .plain "a", .plain "b", .closeMapping] =
        [.openMapping, .plain "key", .openMapping, .plain "a", .plain "b", .closeMapping] := by
    decide +kernel
  refine ⟨by decide +kernel, by decide +kernel, by decide +kernel, by decide +kernel,
    by decide +kernel, ?_⟩
  intro t ht
  rw [htaken] at ht
  have hfeed := feed_events_fresh Sink.neverFails_default t
  rw [ht] at hfeed
  have hframes : (({} : Writer).feed [.openMapping, .plain "key", .openMapping, .plain "a",
      .plain "b", .closeMapping]).1.layout.frames ≠ [] := by
    decide +kernel
  rw [hfeed] at hframes
  exact hframes rfl

end Writer

end Yaml

end NetProfile
