import NetProfile.Proofs.DocumentTree

/-!
# Sinks that run full

A sink with a limit holds the beginning of what the same sink would hold without it,
whatever is written and however often writing goes on after a failure. Until a text does
not fit, the writers over both sinks are in the same place; from then on the limited sink
is full, and what its writer does no longer matters.

## Main definitions

- `Script.playAll` — scripts one after the other, failed or not
- `Writer.Trails` — a writer over a limited sink beside one over an unlimited sink

## Main results

- `Script.trails_playAll` — a whole run keeps the two writers together
- `Definition.writeTo_limited` — what a limited sink holds, and when writing succeeds
-/

namespace NetProfile

open Yaml (Chunk Event Writer WriteError)

theorem extract_eq_self {bytes : ByteArray} {n : Nat} (h : bytes.size ≤ n) :
    bytes.extract 0 n = bytes := by
  have hmax := ByteArray.extract_zero_max_size (a := bytes) (i := n)
  rwa [Nat.max_eq_left h] at hmax

theorem extract_append_of_le {bytes : ByteArray} {n : Nat} (h : n ≤ bytes.size)
    (more : ByteArray) : (bytes ++ more).extract 0 n = bytes.extract 0 n := by
  rw [ByteArray.extract_append, Nat.sub_eq_zero_of_le h, Nat.zero_sub, ByteArray.extract_same,
    ByteArray.append_empty]

theorem extract_min (bytes : ByteArray) (n : Nat) :
    bytes.extract 0 (min n bytes.size) = bytes.extract 0 n := by
  rcases Nat.le_total n bytes.size with hle | hle
  · rw [Nat.min_eq_left hle]
  · rw [Nat.min_eq_right hle, extract_eq_self hle, extract_eq_self (Nat.le_refl _)]

namespace Sink

variable {sink : Sink} {n : Nat} {text : String}

theorem write_of_fits (hlimit : sink.limit = some n)
    (hfits : sink.bytes.size + text.toUTF8.size ≤ n) :
    sink.write text = (sink.extend text, none) := by
  have hroom : text.toUTF8.size ≤ n - sink.bytes.size := by omega
  rw [write, hlimit]
  simp only [hroom, if_true, extend, hlimit]

/-- A text that does not fit is taken up to the limit. -/
theorem write_of_overflows (hlimit : sink.limit = some n) (hsize : sink.bytes.size ≤ n)
    (hover : n < sink.bytes.size + text.toUTF8.size) :
    sink.write text =
      ({ sink with bytes := (sink.bytes ++ text.toUTF8).extract 0 n }, some sink.fullCause) := by
  have hroom : ¬ text.toUTF8.size ≤ n - sink.bytes.size := by omega
  have htaken : sink.bytes ++ text.toUTF8.extract 0 (n - sink.bytes.size) =
      (sink.bytes ++ text.toUTF8).extract 0 n := by
    rw [ByteArray.extract_append, Nat.zero_sub, extract_eq_self hsize]
  rw [write, hlimit]
  simp only [hroom, if_false, htaken]

theorem flushCause_write (sink : Sink) (text : String) :
    (sink.write text).1.flushCause = sink.flushCause := by
  unfold write
  split
  · rfl
  · simp only
    split <;> rfl

/-- A sink that holds some bytes and may take no more. -/
structure IsFullWith (sink : Sink) (bytes : ByteArray) : Prop where
  limit : sink.limit = some bytes.size
  bytes : sink.bytes = bytes

/-- A full sink takes nothing more, whether or not that is a failure. -/
theorem IsFullWith.write {bytes : ByteArray} (h : sink.IsFullWith bytes) (text : String) :
    (sink.write text).1.IsFullWith bytes := by
  have hlimit := h.limit
  obtain rfl := h.bytes
  refine ⟨(limit_write sink text).trans hlimit, ?_⟩
  by_cases hempty : text.toUTF8.size = 0
  · have htext : text.toUTF8 = .empty := ByteArray.size_eq_zero_iff.1 hempty
    rw [write_of_fits hlimit (by omega), bytes_extend, htext, ByteArray.append_empty]
  · rw [write_of_overflows hlimit (Nat.le_refl _) (by omega),
      extract_append_of_le (Nat.le_refl _), extract_eq_self (Nat.le_refl _)]

/-- A sink without a limit that holds some bytes and whatever came behind them. -/
structure Holds (sink : Sink) (bytes : ByteArray) : Prop where
  limit : sink.limit = none
  bytes : ∃ more, sink.bytes = bytes ++ more

theorem Holds.refl (h : sink.limit = none) : sink.Holds sink.bytes :=
  ⟨h, .empty, ByteArray.append_empty.symm⟩

theorem Holds.size_le {bytes : ByteArray} (h : sink.Holds bytes) :
    bytes.size ≤ sink.bytes.size := by
  obtain ⟨more, hmore⟩ := h.bytes
  rw [hmore, ByteArray.size_append]
  exact Nat.le_add_right _ _

theorem Holds.write {bytes : ByteArray} (h : sink.Holds bytes) (text : String) :
    (sink.write text).1.Holds bytes := by
  obtain ⟨more, hmore⟩ := h.bytes
  rw [write_of_limit_eq_none h.limit]
  exact ⟨h.limit, more ++ text.toUTF8, by rw [hmore, ByteArray.append_assoc]⟩

end Sink

namespace Yaml.Writer

variable {P : Sink → Prop}

/-- What every write keeps true of a sink stays true while chunks are written. -/
theorem perform_sink (hP : ∀ sink text, P sink → P (sink.write text).1) {w : Writer}
    (hw : P w.sink) (chunks : List Chunk) : P (w.perform chunks).1.sink := by
  induction chunks generalizing w with
  | nil => exact hw
  | cons chunk rest ih =>
    have hwrite := hP w.sink chunk.text hw
    rw [perform]
    rcases hsink : w.sink.write chunk.text with ⟨sink, _ | cause⟩
    · rw [hsink] at hwrite
      exact ih hwrite
    · rw [hsink] at hwrite
      exact hwrite

theorem step_sink (hP : ∀ sink text, P sink → P (sink.write text).1) {w : Writer}
    (hw : P w.sink) (e : Event) : P (w.step e).1.sink := by
  rw [step]
  cases w.layout.react e with
  | refuse fault next => exact hw
  | write start chunks => exact perform_sink (w := { w with layout := start }) hP hw chunks

end Yaml.Writer

/-- What every write keeps true of a sink stays true while a script is played. -/
theorem Script.play_sink {P : Sink → Prop} (hP : ∀ sink text, P sink → P (sink.write text).1)
    {w : Writer} (hw : P w.sink) (s : Script) : P (play w s).writer.sink := by
  induction s generalizing w with
  | nil => exact hw
  | cons step rest ih =>
    rcases step with e | warning
    · have hstep := Writer.step_sink hP hw e
      rw [play]
      rcases he : w.step e with ⟨w', err | ⟨⟨⟩⟩⟩
      · rw [he] at hstep
        exact hstep
      · rw [he] at hstep
        exact ih hstep
    · exact ih hw

namespace Yaml.Writer

variable {n : Nat} {v w : Writer}

/-- The outcome of flushing a sink that fails with `cause`, if it fails. -/
def flushResult (cause : Option String) : Except WriteError Unit :=
  match cause with
  | none => .ok ()
  | some cause => .error (.io cause)

theorem finish_of_complete_layout (h : w.layout = ⟨[], true⟩) :
    w.finish = flushResult w.sink.flushCause := by
  rw [finish, h, Sink.flush]
  cases w.sink.flushCause with
  | none => rfl
  | some cause => rfl

/-- A writer over a limited sink beside one over an unlimited sink: the limited sink holds
the first bytes of the other, and the writers are in the same place unless the limit has
been crossed. -/
structure Trails (v : Writer) (n : Nat) (w : Writer) : Prop where
  limit : v.sink.limit = some n
  unlimited : w.sink.limit = none
  bytes : v.sink.bytes = w.sink.bytes.extract 0 n
  layout : w.sink.bytes.size ≤ n → v.layout = w.layout

/-- What the limited writer answers when the other answers `answer` and is at `w` then: the
same, unless the limit has been crossed. -/
def Answers (w : Writer) (n : Nat) (answer limited : Except WriteError Unit) : Prop :=
  (w.sink.bytes.size ≤ n → limited = answer) ∧
    (n < w.sink.bytes.size → ∃ cause, limited = .error (.io cause))

theorem Trails.bytes_eq (h : v.Trails n w) (hsize : w.sink.bytes.size ≤ n) :
    v.sink.bytes = w.sink.bytes := by
  rw [h.bytes, extract_eq_self hsize]

/-- Once the limit has been crossed, the writers stay together whatever is written next. -/
theorem Trails.of_crossed {bytes : ByteArray} (hlimit : v.sink.limit = some n)
    (hv : v.sink.bytes = bytes.extract 0 n) (hw : w.sink.Holds bytes) (hover : n < bytes.size) :
    v.Trails n w := by
  have hsize := hw.size_le
  obtain ⟨more, hmore⟩ := hw.bytes
  refine ⟨hlimit, hw.limit, ?_, fun hle => by omega⟩
  rw [hv, hmore, extract_append_of_le (Nat.le_of_lt hover)]

theorem answers_of_crossed {bytes : ByteArray} {answer : Except WriteError Unit} {cause : String}
    (hw : w.sink.Holds bytes) (hover : n < bytes.size) :
    w.Answers n answer (.error (.io cause)) := by
  have hsize := hw.size_le
  exact ⟨fun hle => by omega, fun _ => ⟨cause, rfl⟩⟩

/-- The same chunks, written where both writers are. -/
theorem Trails.perform (h : v.Trails n w) (hsize : w.sink.bytes.size ≤ n) (chunks : List Chunk) :
    (v.perform chunks).1.Trails n (w.perform chunks).1 ∧
      (w.perform chunks).1.Answers n (w.perform chunks).2 (v.perform chunks).2 := by
  induction chunks generalizing v w with
  | nil => exact ⟨h, fun _ => rfl, fun hover => absurd hover (Nat.not_lt.2 hsize)⟩
  | cons chunk rest ih =>
    have hbytes := h.bytes_eq hsize
    have hw : w.sink.write chunk.text = (w.sink.extend chunk.text, none) :=
      Sink.write_of_limit_eq_none h.unlimited chunk.text
    rw [Writer.perform, Writer.perform, hw]
    by_cases hfits : w.sink.bytes.size + chunk.text.toUTF8.size ≤ n
    · have hsize' : (w.sink.extend chunk.text).bytes.size ≤ n := by
        rw [Sink.bytes_extend, ByteArray.size_append]
        exact hfits
      rw [Sink.write_of_fits h.limit (by rw [hbytes]; exact hfits)]
      refine ih ⟨h.limit, h.unlimited, ?_, fun _ => rfl⟩ hsize'
      rw [extract_eq_self hsize']
      exact congrArg (· ++ chunk.text.toUTF8) hbytes
    · -- The limited sink takes what fits and stops; the other goes on with the other chunks.
      have hover : n < (w.sink.extend chunk.text).bytes.size := by
        rw [Sink.bytes_extend, ByteArray.size_append]
        omega
      have hrest : ((({ sink := w.sink.extend chunk.text, layout := chunk.next } : Writer).perform
          rest).1.sink).Holds (w.sink.extend chunk.text).bytes :=
        perform_sink (P := fun sink => sink.Holds _)
          (w := { sink := w.sink.extend chunk.text, layout := chunk.next })
          (fun _ text hs => hs.write text) (.refl h.unlimited) rest
      rw [Sink.write_of_overflows h.limit (by rw [hbytes]; exact hsize) (by rw [hbytes]; omega)]
      exact ⟨.of_crossed h.limit (congrArg (fun b => (b ++ chunk.text.toUTF8).extract 0 n) hbytes)
        hrest hover, answers_of_crossed hrest hover⟩

/-- The same event, where both writers are. -/
theorem Trails.step (h : v.Trails n w) (hsize : w.sink.bytes.size ≤ n) (e : Event) :
    (v.step e).1.Trails n (w.step e).1 ∧ (w.step e).1.Answers n (w.step e).2 (v.step e).2 := by
  have hbytes := h.bytes
  rw [Writer.step, Writer.step, h.layout hsize]
  cases w.layout.react e with
  | refuse fault next =>
    exact ⟨⟨h.limit, h.unlimited, hbytes, fun _ => rfl⟩, fun _ => rfl,
      fun hover => absurd hover (Nat.not_lt.2 hsize)⟩
  | write start chunks =>
    exact Trails.perform (v := { v with layout := start }) (w := { w with layout := start })
      ⟨h.limit, h.unlimited, hbytes, fun _ => rfl⟩ hsize chunks

end Yaml.Writer

namespace Script

variable {n : Nat} {v w : Writer}

/-- Plays scripts one after the other, whether or not they fail. -/
def playAll (w : Writer) (scripts : List Script) : Writer :=
  scripts.foldl (fun w s => (play w s).writer) w

theorem holds_play (h : w.sink.limit = none) (s : Script) :
    (play w s).writer.sink.Holds w.sink.bytes :=
  play_sink (P := fun sink => sink.Holds _) (fun _ text hs => hs.write text) (.refl h) s

/-- What the limited writer makes of a script that leads the other one to `out`: the same,
unless the limit has been crossed. -/
structure Limits (n : Nat) (limited out : Outcome) : Prop where
  trails : limited.writer.Trails n out.writer
  result : out.writer.Answers n out.result limited.result
  warnings : out.writer.sink.bytes.size ≤ n → limited.warnings = out.warnings

/-- A limited writer that stops at the limit, beside one that goes on. -/
theorem limits_of_crossed {bytes : ByteArray} {out : Outcome} {cause : String}
    (hlimit : v.sink.limit = some n) (hv : v.sink.bytes = bytes.extract 0 n)
    (hout : out.writer.sink.Holds bytes) (hover : n < bytes.size) :
    Limits n ⟨v, [], .error (.io cause)⟩ out := by
  have hsize := hout.size_le
  exact ⟨.of_crossed hlimit hv hout hover, Writer.answers_of_crossed hout hover,
    fun hle => by omega⟩

/-- The same script, played where both writers are. -/
theorem limits_play (h : v.Trails n w) (hsize : w.sink.bytes.size ≤ n) (s : Script) :
    Limits n (play v s) (play w s) := by
  induction s generalizing v w with
  | nil =>
    exact ⟨h, ⟨fun _ => rfl, fun hover => absurd hover (Nat.not_lt.2 hsize)⟩, fun _ => rfl⟩
  | cons step rest ih =>
    rcases step with e | warning
    · -- The writers take the step together, and it shows whether the limit is still ahead.
      obtain ⟨htrails, hanswers⟩ := h.step hsize e
      rw [play, play]
      rcases hv : v.step e with ⟨v', limited⟩
      rcases hw : w.step e with ⟨w', answer⟩
      rw [hv, hw] at htrails hanswers
      by_cases hsize' : w'.sink.bytes.size ≤ n
      · obtain rfl := hanswers.1 hsize'
        rcases limited with err | ⟨⟨⟩⟩
        · exact ⟨htrails, hanswers, fun _ => rfl⟩
        · exact ih htrails hsize'
      · -- The limited writer fails here; the other one may go on.
        have hover : n < w'.sink.bytes.size := by omega
        obtain ⟨cause, rfl⟩ := hanswers.2 hover
        rcases answer with err | ⟨⟨⟩⟩
        · exact limits_of_crossed htrails.limit htrails.bytes (.refl htrails.unlimited) hover
        · exact limits_of_crossed htrails.limit htrails.bytes (holds_play htrails.unlimited rest)
            hover
    · have hrest := ih h hsize
      exact ⟨hrest.trails, hrest.result, fun hle => congrArg (warning :: ·) (hrest.warnings hle)⟩

/-- Whatever script is played next, the limited sink holds the first bytes of the other. -/
theorem trails_play (h : v.Trails n w) (s : Script) :
    (play v s).writer.Trails n (play w s).writer := by
  by_cases hsize : w.sink.bytes.size ≤ n
  · exact (limits_play h hsize s).trails
  · -- Past the limit the layouts may differ, but one sink is full and the other only grows.
    have hover : n < w.sink.bytes.size := by omega
    have hfull : v.sink.bytes.size = n := by
      rw [h.bytes, ByteArray.size_extract]
      omega
    have hv : (play v s).writer.sink.IsFullWith v.sink.bytes :=
      play_sink (P := fun sink => sink.IsFullWith _) (fun _ text hs => hs.write text)
        ⟨by rw [h.limit, hfull], rfl⟩ s
    exact .of_crossed (by rw [hv.limit, hfull]) (by rw [hv.bytes, h.bytes])
      (holds_play h.unlimited s) hover

/-- However often writing goes on after a failure, the limited sink holds the first bytes of
the other. -/
theorem trails_playAll (h : v.Trails n w) (scripts : List Script) :
    (playAll v scripts).Trails n (playAll w scripts) := by
  induction scripts generalizing v w with
  | nil => exact h
  | cons s rest ih => exact ih (trails_play h s)

end Script

namespace Definition

open Script

/-- The outcome of writing a document without a limit. -/
theorem play_script_default (d : Definition) :
    play {} d.script =
      { writer := { sink := ({} : Sink).extend d.tree.print, layout := ⟨[], true⟩ }
        warnings := d.warnings
        result := .ok () } :=
  d.play_script_of_admits Sink.neverFails_default rfl

section Document

variable (d : Definition) (limit : Nat) (fullCause : String) (flushCause : Option String)

theorem empty_extract (n : Nat) : ByteArray.empty = ByteArray.empty.extract 0 n :=
  (extract_eq_self (Nat.zero_le n)).symm

/-- The document, written into a limited sink and without a limit. -/
theorem limits_script :
    Limits limit (play { sink := { limit := some limit, fullCause, flushCause } } d.script)
      { writer := { sink := ({} : Sink).extend d.tree.print, layout := ⟨[], true⟩ }
        warnings := d.warnings
        result := .ok () } := by
  rw [← d.play_script_default]
  have hstart : Writer.Trails { sink := { limit := some limit, fullCause, flushCause } } limit {} :=
    ⟨rfl, rfl, empty_extract limit, fun _ => rfl⟩
  exact limits_play hstart (Nat.zero_le limit) d.script

/-- A document that fits is complete, so only flushing can fail. -/
theorem writeTo_of_fits (hfits : d.tree.print.toUTF8.size ≤ limit) :
    let out := d.writeTo { limit := some limit, fullCause, flushCause }
    out.warnings = d.warnings ∧
      out.result = Writer.flushResult flushCause := by
  have hlimits := d.limits_script limit fullCause flushCause
  rw [← bytes_extend_default] at hfits
  have hresult := hlimits.result.1 hfits
  have hflush : (play { sink := { limit := some limit, fullCause, flushCause } }
      d.script).writer.sink.flushCause = flushCause :=
    play_sink (P := fun sink => sink.flushCause = flushCause)
      (fun sink text h => (sink.flushCause_write text).trans h) rfl d.script
  have hfinish := Writer.finish_of_complete_layout (hlimits.trails.layout hfits)
  rw [hflush] at hfinish
  rw [writeTo, hresult]
  exact ⟨hlimits.warnings hfits, hfinish⟩

/-- A document that does not fit is not written. -/
theorem writeTo_of_overflows (hover : limit < d.tree.print.toUTF8.size) :
    ∃ cause, (d.writeTo { limit := some limit, fullCause, flushCause }).result =
      .error (.io cause) := by
  have hlimits := d.limits_script limit fullCause flushCause
  rw [← bytes_extend_default] at hover
  obtain ⟨cause, hfail⟩ := hlimits.result.2 hover
  refine ⟨cause, ?_⟩
  rw [writeTo, hfail]
  exact hfail

theorem bytes_writeTo :
    (d.writeTo { limit := some limit, fullCause, flushCause }).writer.sink.bytes =
      d.tree.print.toUTF8.extract 0 (min limit d.tree.print.toUTF8.size) := by
  have hbytes := (d.limits_script limit fullCause flushCause).trails.bytes
  rw [bytes_extend_default, ← extract_min] at hbytes
  rw [writeTo]
  split <;> exact hbytes

end Document

/-- A sink that takes `limit` bytes in all holds the first bytes of what it would hold
without the limit, after any scripts and also when playing goes on after a failure. A
document is written into it exactly if it fits and the sink can be flushed; then its
warnings are those of the rendered document, and any failure is one of the sink. -/
theorem writeTo_limited (limit : Nat) (fullCause : String) (flushCause : Option String) :
    let free : Sink := { fullCause, flushCause }
    let sink : Sink := { free with limit := some limit }
    (∀ scripts : List Script,
      let whole := (playAll { sink := free } scripts).sink.bytes
      (playAll { sink } scripts).sink.bytes = whole.extract 0 (min limit whole.size)) ∧
    ∀ d : Definition, ∃ rendering, d.render = .ok rendering ∧
      let whole := rendering.text.toUTF8
      let out := d.writeTo sink
      (out.result = .ok () ↔ whole.size ≤ limit ∧ flushCause = none) ∧
      (out.result = .ok () → out.warnings = rendering.warnings) ∧
      (∀ e, out.result = .error e → ∃ cause, e = .io cause) ∧
      out.writer.sink.bytes = whole.extract 0 (min limit whole.size) := by
  intro free sink
  constructor
  · intro scripts whole
    have htrails := trails_playAll (v := { sink }) (w := { sink := free })
      ⟨rfl, rfl, empty_extract limit, fun _ => rfl⟩ scripts
    rw [htrails.bytes, extract_min]
  · intro d
    refine ⟨⟨d.tree.print, d.warnings⟩, d.render_eq, ?_⟩
    intro whole out
    have hbytes : out.writer.sink.bytes = whole.extract 0 (min limit whole.size) :=
      d.bytes_writeTo limit fullCause flushCause
    by_cases hsize : whole.size ≤ limit
    · obtain ⟨hwarnings, hresult⟩ := d.writeTo_of_fits limit fullCause flushCause hsize
      have hout : out.result = Writer.flushResult flushCause := hresult
      rw [hout]
      refine ⟨?_, fun _ => hwarnings, ?_, hbytes⟩
      · cases flushCause <;> simp [Writer.flushResult, hsize]
      · cases flushCause <;> simp [Writer.flushResult]
    · obtain ⟨cause, hfail⟩ :=
        d.writeTo_of_overflows limit fullCause flushCause (Nat.lt_of_not_le hsize)
      have hout : out.result = .error (.io cause) := hfail
      rw [hout]
      exact ⟨by simp [hsize], by simp, by simp, hbytes⟩

/-- Limits inside a character of two bytes: the sink ends with the first of them, also when
writing goes on behind a key that did not fit. -/
theorem writeTo_limited_accented :
    let d : Definition := { id := "é", kind := .ethernet, backend := .networkd }
    let out := d.writeTo { limit := some 40 }
    out.result ≠ .ok () ∧
      out.writer.sink.bytes =
        "network:\n  version: 2\n  ethernets:\n    é".toUTF8.extract 0 40 ∧
      (playAll { sink := { limit := some 2 } }
        [opening, quoted "é", plain "x", closing]).sink.bytes = "\"é".toUTF8.extract 0 2 := by
  intro d out
  obtain ⟨hplay, -⟩ := writeTo_limited 2 "sink full" none
  obtain ⟨-, hwrite⟩ := writeTo_limited 40 "sink full" none
  obtain ⟨rendering, hrender, hresult, -, -, hbytes⟩ := hwrite d
  have htext : rendering.text =
      "network:\n  version: 2\n  ethernets:\n    é:\n      renderer: networkd\n" := by
    rw [d.render_eq, Except.ok.injEq] at hrender
    rw [← hrender]
    decide +kernel
  have hsize : "network:\n  version: 2\n  ethernets:\n    é:\n      renderer: networkd\n".toUTF8.size
      = 68 := by decide +kernel
  dsimp only at hresult hbytes hplay
  rw [htext, hsize] at hresult hbytes
  refine ⟨fun hok => ?_, ?_, ?_⟩
  · exact absurd (hresult.1 hok).1 (by decide)
  · rw [hbytes]
    decide +kernel
  · rw [hplay]
    decide +kernel

end Definition

end NetProfile
