import MipsBackend.Proofs.Comparison
import MipsBackend.Proofs.Reachability

/-! # Runs on another stream

A run on some stream resembles the run on a stream that takes everything. What was written before stays in
front, buffers that are kept for later make no difference, and only a limit can part the two runs: then the first
one stops, and its stream holds as much of the text as fits.

* `Context.Resembles`: the contexts of two such runs.
* `resemblance`: the comparison of the runs, which every step respects.
-/

namespace MipsBackend

/-! ## Stacks with the same levels -/

namespace BufferStack

/-- Stacks with the same levels and bounds. Their spare buffers may differ. -/
def sameLevels : Comparison EmitError BufferStack where
  Related left right := left.levels = right.levels ∧ left.bounds = right.bounds
  Later _ _ := True
  Lapsed _ _ _ := False
  Excused _ := False
  later_refl _ := trivial
  later_trans _ _ := trivial
  lapsed_later lapse _ := lapse

/-- Without lapses and excuses, agreement is all there is to show. -/
theorem respects_of_alike {α : Type} {action : Action EmitError BufferStack α}
    (alike : ∀ {left right}, sameLevels.Related left right →
      (action left).result = (action right).result ∧ sameLevels.Related (action left).state (action right).state) :
    sameLevels.Respects action where
  advances := fun _ => trivial
  agrees := fun related => .alike (alike related).1 (alike related).2

theorem respects_top : sameLevels.Respects top := by
  apply respects_of_alike
  rintro left right ⟨levels, bounds⟩
  cases shape : right.levels <;> simp [top, levels, shape, sameLevels, bounds]

theorem respects_pop : sameLevels.Respects pop := by
  apply respects_of_alike
  rintro left right ⟨levels, bounds⟩
  cases shape : right.levels with
  | nil => simp [pop, levels, shape, sameLevels, bounds]
  | cons level rest => simpa [pop, levels, shape, sameLevels, BufferStack.bounds] using bounds

theorem respects_append (text : String) : sameLevels.Respects (append text) := by
  apply respects_of_alike
  rintro left right ⟨levels, bounds⟩
  cases shape : right.levels with
  | nil => simp [append, levels, shape, sameLevels, bounds]
  | cons level rest =>
    cases room : level.append text with
    | error error => simp [append, levels, shape, room, sameLevels, bounds]
    | ok extended => simpa [append, levels, shape, room, sameLevels, BufferStack.bounds] using bounds

theorem respects_push (construct : Construct) : sameLevels.Respects (push construct) := by
  apply respects_of_alike
  rintro left right ⟨levels, bounds⟩
  obtain ⟨maxDepth, bufferCapacity⟩ := Prod.mk.inj bounds
  by_cases full : right.maxDepth ≤ right.levels.length
  · simp [push, depth, levels, maxDepth, full, sameLevels, bounds]
  · simp [push, depth, levels, maxDepth, bufferCapacity, full, sameLevels, Level.opened, emptied, BufferStack.bounds]

theorem respects_recycle (buffer : String) : sameLevels.Respects (Action.update (recycle buffer)) :=
  Comparison.respects_update (fun _ => trivial) fun related => related

theorem respects_mergeInnermost : sameLevels.Respects mergeInnermost := by
  refine respects_pop.bind fun inner => (respects_append inner.text).bind fun _ => ?_
  refine respects_top.bind fun outer => ?_
  exact (Comparison.respects_report _).bind fun _ => respects_recycle inner.text

theorem respects_mergeSteps (steps : Nat) : sameLevels.Respects (mergeSteps steps) := by
  induction steps with
  | zero => exact Comparison.respects_pure ()
  | succ steps ih => exact respects_mergeInnermost.bind fun _ => ih

theorem respects_merge (count : Nat) : sameLevels.Respects (merge count) := by
  refine .read_bind (fun stack => ?_) ?_
  · split
    · exact Comparison.respects_fail _
    · split
      · exact Comparison.respects_fail _
      · refine (respects_mergeSteps (count - 1)).bind fun _ => ?_
        exact Comparison.respects_of_still (fun _ => rfl) fun _ => rfl
  · rintro left right ⟨levels, bounds⟩
    obtain ⟨-, bufferCapacity⟩ := Prod.mk.inj bounds
    have depths : left.depth = right.depth := by simp only [depth, levels]
    have sizes : left.innermostSize count = right.innermostSize count := by simp only [innermostSize, levels]
    rw [depths, sizes, bufferCapacity]

end BufferStack

/-! ## Contexts -/

/-- The context of a run on `stream`, beside that of the same run on a stream that takes everything. -/
structure Context.Resembles (stream : Stream) (context other : Context) : Prop where
  stream_eq : context.stream = { stream with written := stream.written ++ other.stream.written }
  reliable : other.stream.IsReliable
  room : ∀ bound ∈ stream.limit, context.stream.written.size ≤ bound.size
  pool_eq : context.pool = other.pool
  labels_eq : context.labels = other.labels
  options_eq : context.options = other.options
  levels : context.stack.levels = other.stack.levels
  bounds : context.stack.bounds = other.stack.bounds

theorem Context.resembles_start (options : Options) {stream : Stream}
    (room : ∀ bound ∈ stream.limit, stream.written.size ≤ bound.size) :
    Context.Resembles stream (.start options stream) (.start options {}) where
  stream_eq := by simp [Context.start]
  reliable := ⟨rfl, rfl⟩
  room := room
  pool_eq := rfl
  labels_eq := rfl
  options_eq := rfl
  levels := rfl
  bounds := rfl

/-- What was written so far fits. -/
theorem Context.Resembles.size_le {stream : Stream} {context other : Context} {bound : Limit}
    (resembles : Context.Resembles stream context other) (limited : bound ∈ stream.limit) :
    other.stream.written.size ≤ bound.size - stream.written.size := by
  have inside := resembles.room bound limited
  rw [resembles.stream_eq, ByteArray.size_append] at inside
  omega

theorem byteArray_extract_append {bytes : ByteArray} (more : ByteArray) {size : Nat} (within : size ≤ bytes.size) :
    (bytes ++ more).extract 0 size = bytes.extract 0 size := by
  have nothing : more.extract 0 0 = ByteArray.empty := by simp
  rw [ByteArray.extract_append, Nat.zero_sub, Nat.sub_eq_zero_of_le within, nothing, ByteArray.append_empty]

theorem byteArray_extract_of_le {bytes : ByteArray} {size : Nat} (within : bytes.size ≤ size) :
    bytes.extract 0 size = bytes := by
  calc
    bytes.extract 0 size = (bytes.extract 0 bytes.size).extract 0 size := by rw [ByteArray.extract_zero_size]
    _ = bytes.extract 0 bytes.size := by rw [ByteArray.extract_extract, Nat.zero_add, Nat.zero_add, Nat.min_eq_right within]
    _ = bytes := ByteArray.extract_zero_size

namespace Stream

/-- The limit of a stream made a run stop: of what the run would have written in `full` by then, the stream holds
the bytes that fit. -/
def CutOff (stream : Stream) (fault : Fault) (written full : ByteArray) : Prop :=
  ∃ size, stream.limit = some ⟨size, fault⟩ ∧ size < (stream.written ++ full).size ∧
    written = (stream.written ++ full).extract 0 size

theorem CutOff.more {stream : Stream} {fault : Fault} {written full : ByteArray}
    (cut : stream.CutOff fault written full) (more : ByteArray) : stream.CutOff fault written (full ++ more) := by
  obtain ⟨size, limited, short, rfl⟩ := cut
  refine ⟨size, limited, ?_, ?_⟩
  · simp only [ByteArray.size_append] at short ⊢
    omega
  · rw [← ByteArray.append_assoc, byteArray_extract_append more (Nat.le_of_lt short)]

/-- The byte that no longer fits is among those that the run would have written. -/
theorem CutOff.size_lt {stream : Stream} {fault : Fault} {written full : ByteArray} {bound : Limit}
    (cut : stream.CutOff fault written full) (limited : bound ∈ stream.limit)
    (room : stream.written.size ≤ bound.size) : bound.size - stream.written.size < full.size := by
  obtain ⟨size, isLimit, short, -⟩ := cut
  obtain rfl : ⟨size, fault⟩ = bound := Option.some.inj (isLimit.symm.trans limited)
  rw [ByteArray.size_append] at short
  show size - stream.written.size < full.size
  have : stream.written.size ≤ size := room
  omega

theorem write_of_fits {stream : Stream} {bound : Limit} {text : String} (limited : stream.limit = some bound)
    (fits : text.toUTF8.size ≤ bound.size - stream.written.size) :
    stream.write text = (.ok (), { stream with written := stream.written ++ text.toUTF8 }) := by
  simp only [write, limited, fits, if_true]

theorem write_of_short {stream : Stream} {bound : Limit} {text : String} (limited : stream.limit = some bound)
    (short : ¬ text.toUTF8.size ≤ bound.size - stream.written.size) :
    stream.write text =
      (.error bound.fault,
        { stream with
          written := stream.written ++ text.toUTF8.extract 0 (bound.size - stream.written.size) }) := by
  simp only [write, limited, short, if_false]

/-- Writing adds bytes at the end, however many of them fit. -/
theorem written_write (stream : Stream) (text : String) :
    ∃ more, (stream.write text).2.written = stream.written ++ more := by
  cases limited : stream.limit with
  | none => exact ⟨_, by rw [write_of_reliable limited]⟩
  | some bound =>
    by_cases fits : text.toUTF8.size ≤ bound.size - stream.written.size
    · exact ⟨_, by rw [write_of_fits limited fits]⟩
    · exact ⟨_, by rw [write_of_short limited fits]⟩

end Stream

/-- The comparison of a run on `stream` with the same run on a stream that takes everything. -/
def besideReliable (stream : Stream) : Comparison EmitError Context where
  Related := Context.Resembles stream
  Later earlier later := ∃ more, later.stream.written = earlier.stream.written ++ more
  Lapsed error context other :=
    ∃ fault, error = .io fault ∧ stream.CutOff fault context.stream.written other.stream.written
  Excused _ := False
  later_refl _ := ⟨ByteArray.empty, ByteArray.append_empty.symm⟩
  later_trans := by
    rintro first second third ⟨some, isSecond⟩ ⟨more, isThird⟩
    exact ⟨some ++ more, by rw [isThird, isSecond, ByteArray.append_assoc]⟩
  lapsed_later := by
    rintro error context reached next ⟨fault, rfl, cut⟩ ⟨more, written⟩
    exact ⟨fault, rfl, written ▸ cut.more more⟩

namespace Emission

variable {stream : Stream} {α : Type}

theorem respects_onStack {action : Action EmitError BufferStack α} (inside : BufferStack.sameLevels.Respects action) :
    (besideReliable stream).Respects (onStack action) where
  advances := (besideReliable stream).later_refl
  agrees := by
    intro context other resembles
    cases inside.agrees ⟨resembles.levels, resembles.bounds⟩ with
    | alike same related => exact .alike same { resembles with levels := related.1, bounds := related.2 }
    | lapsed _ never => cases never
    | excused _ never => cases never

/-- Only here can the two runs part: a limit cuts a text short. -/
theorem respects_write (text : String) : (besideReliable stream).Respects (write text) where
  advances := fun context => context.stream.written_write text
  agrees := by
    intro context other resembles
    have takes := Stream.write_of_reliable resembles.reliable.1 text
    have sameLimit : context.stream.limit = stream.limit := by rw [resembles.stream_eq]
    have held : context.stream.written = stream.written ++ other.stream.written := by rw [resembles.stream_eq]
    -- A text that is written whole goes behind what both streams hold.
    have whole
        (writes : context.stream.write text =
          (.ok (), { context.stream with written := context.stream.written ++ text.toUTF8 }))
        (room : ∀ bound ∈ stream.limit, (context.stream.written ++ text.toUTF8).size ≤ bound.size) :
        (besideReliable stream).Agrees (write text context) (write text other) := by
      apply Comparison.Agrees.alike
      · simp only [write, writes, takes]
      · simp only [write, writes, takes]
        refine { resembles with stream_eq := ?_, reliable := resembles.reliable, room := room }
        simp only [resembles.stream_eq, ByteArray.append_assoc]
    cases limited : stream.limit with
    | none =>
      refine whole (Stream.write_of_reliable (sameLimit.trans limited) text) ?_
      simp [limited]
    | some bound =>
      have inside := resembles.room bound limited
      by_cases fits : text.toUTF8.size ≤ bound.size - context.stream.written.size
      · refine whole (Stream.write_of_fits (sameLimit.trans limited) fits) ?_
        intro other isOther
        obtain rfl : bound = other := Option.some.inj (limited.symm.trans isOther)
        rw [ByteArray.size_append]
        omega
      · have short := Stream.write_of_short (sameLimit.trans limited) fits
        have stopped : (write text context).result = .error (.io bound.fault) := by
          simp only [write, short, exceptMapError_error]
        refine .lapsed stopped ⟨bound.fault, rfl, bound.size, limited, ?_⟩
        simp only [write, short, takes]
        rw [← ByteArray.append_assoc, ← held]
        constructor
        · rw [ByteArray.size_append]
          omega
        · rw [ByteArray.extract_append, byteArray_extract_of_le inside, Nat.zero_sub]

theorem respects_append (text : String) : (besideReliable stream).Respects (append text) := by
  refine .read_bind (fun context => ?_) fun {left right} resembles => ?_
  · split
    · refine (respects_onStack (BufferStack.respects_append text)).bind fun _ => ?_
      exact (respects_onStack BufferStack.respects_top).bind fun level => Comparison.respects_report _
    · exact respects_write text
  · have same : left.isBuffered = right.isBuffered := by
      simp only [Context.isBuffered, BufferStack.isEmpty, resembles.levels]
    rw [same]

theorem respects_close : (besideReliable stream).Respects close := by
  refine .read_bind (fun context => ?_) fun resembles => ?_
  · refine (Comparison.respects_ofExcept _).reportingFailure.bind fun _ => ?_
    refine (respects_onStack BufferStack.respects_pop).bind fun level => ?_
    refine (respects_append level.text).bind fun _ => ?_
    refine .read_bind (fun outside => ?_) fun resembles => ?_
    · refine (Comparison.respects_report _).bind fun _ => ?_
      refine (respects_onStack (BufferStack.respects_recycle level.text)).bind fun _ => ?_
      exact Comparison.respects_pure _
    · simp only [BufferStack.isEmpty, resembles.levels]
  · simp only [closable, resembles.levels]

end Emission

/-- Every step respects the comparison of runs on different streams. -/
def resemblance (stream : Stream) : EmissionComparison where
  toComparison := besideReliable stream
  outline_eq resembles := by rw [Context.outline, Context.outline, resembles.levels]
  pool_eq := Context.Resembles.pool_eq
  labels_eq := Context.Resembles.labels_eq
  related_with _ _ resembles := { resembles with pool_eq := rfl, labels_eq := rfl }
  later_with context _ _ := (besideReliable stream).later_refl context
  append := Emission.respects_append
  emitFragment :=
    Comparison.respects_emitFragment (fun resembles => by rw [resembles.options_eq]) Emission.respects_append
  push construct := (Emission.respects_onStack (BufferStack.respects_push construct)).reportingFailure
  merge count := (Emission.respects_onStack (BufferStack.respects_merge count)).reportingFailure
  close := Emission.respects_close

end MipsBackend
