import MipsBackend.Proofs.ReliableStreams

/-! # String data

The data section is written in one piece, after every literal was looked up. So a table with a gap leaves nothing of
it behind, and the literals of a script, which have no gap, are all there in the order of their positions.

* `literalLines`: the data lines of a list of texts.
* `Emission.stringLiterals_of_stored`, `Emission.stringLiterals_of_lacking`: the data section of a table is what a
  stream makes of its lines, or it is refused.
* `Emission.confinement_of_present`: nothing else that a replay does can miss a literal.
* `string_data_whole_or_refused`: literals, tables and the end of a replay.
-/

namespace MipsBackend

/-- The lines that store texts, each under the name of its position, the first of them at `index`. -/
def literalLines : (index : Nat) → List String → String
  | _, [] => ""
  | index, text :: rest => literalName index ++ ": .asciiz \"" ++ text ++ "\"\n" ++ literalLines (index + 1) rest

theorem lines_asciizLines (index : Nat) (texts : List String) :
    Inst.lines ((texts.zipIdx index).map fun entry => asciizLine (literalName entry.2) entry.1) =
      literalLines index texts := by
  induction texts generalizing index with
  | nil => rfl
  | cons text rest ih =>
    have own : (asciizLine (literalName index) text).line = literalName index ++ ": .asciiz \"" ++ text ++ "\"\n" := by
      simp [asciizLine, Inst.line, Inst.isFlush, Inst.text, String.append_assoc]
    rw [List.zipIdx_cons, List.map_cons, Inst.lines_cons, own, ih, literalLines]

theorem text_literalSection (annotate : Bool) (texts : List String) :
    (literalSection texts).text annotate = ".data\n" ++ literalLines 0 texts := by
  rw [Fragment.text, emitted_literalSection, Inst.lines_cons, lines_asciizLines]
  rfl

namespace Emission

variable {context : Context} {table : StringTable}

/-! ## One table -/

theorem stringLiterals_of_buffered (table : StringTable) (buffered : context.stack.levels ≠ []) :
    (stringLiterals table).Stops context (.unclosedLevels context.stack.depth) context :=
  Action.stops_bind_iff.mpr (.inl (ensureUnbuffered_of_buffered buffered))

/-- A gap is found before anything is written. -/
theorem stringLiterals_of_lacking (unbuffered : context.stack.levels = []) {index : Nat} (lacks : table.Lacks index) :
    (stringLiterals table).Stops context (.missingLiteral (literalName index)) context := by
  have checks : ensureUnbuffered.Yields context () context := ensureUnbuffered_yields_iff.mpr ⟨unbuffered, rfl⟩
  have missing : table.entries.mapError EmitError.missingLiteral = .error (.missingLiteral (literalName index)) := by
    rw [lacks.entries]
    rfl
  apply Action.stops_bind_iff.mpr (.inr ⟨(), context, checks, ?_⟩)
  exact Action.stops_bind_iff.mpr (.inl (Action.stops_ofExcept_iff.mpr ⟨missing, rfl⟩))

/-- Once all texts are found, the section is up to the stream alone. -/
theorem stringLiterals_of_stored (unbuffered : context.stack.levels = []) {texts : List String}
    (stores : table.Stores texts) :
    (stringLiterals table context).result = (write (".data\n" ++ literalLines 0 texts) context).result ∧
      (stringLiterals table context).state = (write (".data\n" ++ literalLines 0 texts) context).state := by
  have checks : ensureUnbuffered.Yields context () context := ensureUnbuffered_yields_iff.mpr ⟨unbuffered, rfl⟩
  have found : (Action.ofExcept (table.entries.mapError .missingLiteral) : Emission _).Yields context _ context :=
    Action.yields_ofExcept_iff.mpr ⟨by rw [stores.entries]; rfl, rfl⟩
  have reports : (Action.report (.literals table.count) : Emission Unit).Yields context () context :=
    Action.yields_report_iff.mpr rfl
  have emits : emitFragment (literalSection texts) context =
      write (".data\n" ++ literalLines 0 texts) context := by
    rw [emitFragment, Action.read_bind_apply, append_of_unbuffered unbuffered, text_literalSection]
  rw [← emits, stringLiterals]
  constructor
  · exact checks.bind_eq.1.trans (found.bind_eq.1.trans reports.bind_eq.1)
  · exact checks.bind_eq.2.trans (found.bind_eq.2.trans reports.bind_eq.2)

/-! ## A replay misses no literal -/

theorem confinement_of_present :
    Confinement (fun _ => True) fun error => ∀ name, error ≠ .missingLiteral name where
  internal := by
    rintro error internal name rfl
    cases internal
  within _ _ _ _ := trivial
  write text :=
    { state := fun _ => trivial
      error := by
        intro context cause _ stopped name
        obtain ⟨fault, rfl⟩ := write_stops ⟨stopped, rfl⟩
        nofun }

theorem release_present : release.Confines (fun _ => True) fun error => ∀ name, error ≠ .missingLiteral name where
  state := fun _ => trivial
  error := by
    rintro context cause - stopped name rfl
    have stops : release.Stops context (.missingLiteral name) _ := ⟨stopped, rfl⟩
    simp only [release, Action.stops_bind_iff, stops_onStack_iff, yields_onStack_iff, Action.not_stops_update,
      Action.yields_update_iff, Action.not_stops_read, Action.yields_read_iff, Action.stops_ofExcept_iff,
      Action.not_stops_pure, and_false, false_and, exists_false, or_false, false_or] at stops
    obtain ⟨_, _, ⟨_, rfl, rfl⟩, _, _, ⟨rfl, rfl⟩, refused, _⟩ := stops
    cases fault : context.stream.flushFault <;> simp [Stream.flush, fault] at refused

end Emission

/-- What made code generation refuse a request or the end of a script. -/
def ReplayError.cause? : ReplayError → Option EmitError
  | emission _ _ cause | finish cause => some cause
  | _ => none

theorem ReplayError.admission_of_present :
    Admission (fun error => ∀ name, error ≠ .missingLiteral name)
      fun error => ∀ name, error.cause? ≠ some (.missingLiteral name) where
  names := by
    intro error concerns name
    cases error with
    | emission _ _ _ | finish _ => cases concerns
    | _ => nofun
  emission index request present name := by simpa [cause?] using present name
  finish present name := by simpa [cause?] using present name

/-! ## Literals, tables and scripts -/

/-- What becomes of texts that are inserted one after the other into empty literals. -/
structure StringLiterals.KeepsAll (texts : List String) : Prop where
  named : ∀ index text, texts[index]? = some text →
    (ofList (texts.take index)).insert text = (literalName index, ofList (texts.take (index + 1)))
  distinct : ∀ index other, literalName index = literalName other → index = other
  count : (ofList texts).count = texts.length
  lookup : ∀ index < texts.length, (ofList texts).lookup (literalName index) = texts[index]?
  absent : ∀ name, (∀ index < texts.length, name ≠ literalName index) → (ofList texts).lookup name = none
  emitted : ∀ context : Context, context.stack.levels = [] → context.stream.limit = none →
    (Emission.stringLiterals (ofList texts).table).Yields context ()
      { context with
        stream :=
          { context.stream with
            written := context.stream.written ++ (".data\n" ++ literalLines 0 texts).toUTF8 } }

/-- A table is emitted whole or not at all. -/
structure StringTable.EmitsWhole (table : StringTable) (context : Context) : Prop where
  buffered : context.stack.levels ≠ [] →
    (Emission.stringLiterals table).Stops context (.unclosedLevels context.stack.depth) context
  /-- The first position without a text is the one that is reported. -/
  lacking : context.stack.levels = [] → ∀ index < table.count, table.lookup (literalName index) = none →
    (∀ earlier < index, table.lookup (literalName earlier) ≠ none) →
    (Emission.stringLiterals table).Stops context (.missingLiteral (literalName index)) context
  fails_iff : context.stream.limit = none →
    ((∃ error after, (Emission.stringLiterals table).Stops context error after) ↔
      context.stack.levels ≠ [] ∨ ∃ index < table.count, table.lookup (literalName index) = none)
  /-- Only a stream can fail when the section is partly written. -/
  unchanged : ∀ error after, (Emission.stringLiterals table).Stops context error after →
    after = context ∨ ∃ fault, error = .io fault

/-- The end of a script is refused for open levels and for nothing else. -/
structure Script.EndsUnlessOpen (script : Script) (options : Options) (stream : Stream) : Prop where
  present : ∀ error name, (script.replay options stream).result = .error error →
    error.cause? ≠ some (.missingLiteral name)
  ends : stream.IsReliable → ∀ requested : Replay,
    (Replay.applyAll 0 script.requests).Yields (Replay.start (Context.start options stream)).begun () requested →
    (script.replay options stream).result =
      if requested.context.stack.levels = [] then .ok ()
      else .error (.finish (.unclosedLevels requested.context.stack.depth))

theorem StringLiterals.keepsAll (texts : List String) : KeepsAll texts where
  named _ _ here := insert_ofList here
  distinct _ _ same := literalName_injective same
  count := (holds_ofList texts).count
  lookup index _ := (holds_ofList texts).lookup index
  absent _ other := (holds_ofList texts).lookup_eq_none other
  emitted context unbuffered reliable := by
    obtain ⟨result, state⟩ := Emission.stringLiterals_of_stored unbuffered (holds_ofList texts).stores
    obtain ⟨written, whole⟩ := Emission.write_of_reliable reliable (".data\n" ++ literalLines 0 texts)
    exact ⟨result.trans written, state.trans whole⟩

theorem StringTable.emitsWhole (table : StringTable) (context : Context) : table.EmitsWhole context where
  buffered := Emission.stringLiterals_of_buffered table
  lacking unbuffered index below absent first := Emission.stringLiterals_of_lacking unbuffered ⟨below, absent, first⟩
  fails_iff reliable := by
    by_cases buffered : context.stack.levels = []
    · obtain ⟨texts, stores⟩ | ⟨index, lacks⟩ := table.stores_or_lacks
      · -- A table without a gap is written, and the stream takes it.
        obtain ⟨result, state⟩ := Emission.stringLiterals_of_stored buffered stores
        obtain ⟨written, whole⟩ := Emission.write_of_reliable reliable (".data\n" ++ literalLines 0 texts)
        have yields : (Emission.stringLiterals table).Yields context () _ := ⟨result.trans written, state.trans whole⟩
        have full : ¬ ∃ index < table.count, table.lookup (literalName index) = none := by
          rintro ⟨index, below, absent⟩
          rw [stores.count] at below
          rw [stores.lookup index below, List.getElem?_eq_getElem below] at absent
          cases absent
        constructor
        · rintro ⟨error, after, stops⟩
          exact absurd stops yields.not_stops
        · rintro (isOpen | gap)
          · exact absurd buffered isOpen
          · exact absurd gap full
      · have stops := Emission.stringLiterals_of_lacking buffered lacks
        exact ⟨fun _ => .inr ⟨index, lacks.below, lacks.absent⟩, fun _ => ⟨_, _, stops⟩⟩
    · have stops := Emission.stringLiterals_of_buffered table buffered
      exact ⟨fun _ => .inl buffered, fun _ => ⟨_, _, stops⟩⟩
  unchanged error after stops := by
    by_cases buffered : context.stack.levels = []
    · obtain ⟨texts, stores⟩ | ⟨index, lacks⟩ := table.stores_or_lacks
      · obtain ⟨result, state⟩ := Emission.stringLiterals_of_stored buffered stores
        exact .inr (Emission.write_stops ⟨result.symm.trans stops.1, rfl⟩)
      · exact .inl (stops.2.symm.trans (Emission.stringLiterals_of_lacking buffered lacks).2)
    · exact .inl (stops.2.symm.trans (Emission.stringLiterals_of_buffered table buffered).2)

theorem Script.endsUnlessOpen (script : Script) (options : Options) (stream : Stream) :
    script.EndsUnlessOpen options stream where
  present error name failed :=
    (Emission.confinement_of_present.run ReplayError.admission_of_present Emission.release_present script).error
      trivial failed name
  ends reliable requested applied := by
    have begun : (Replay.start (Context.start options stream)).begun.context.stream.IsReliable := by
      simpa [Replay.begun, Replay.start, Context.start, Context.appended, Stream.IsReliable] using reliable
    have kept : requested.context.stream.IsReliable := by
      rw [← applied.2]
      exact (Replay.applyAll_confined 0 script.requests).state begun
    exact Replay.run_ends _ reliable.1 rfl applied kept

/-- String literals are kept under distinct names and emitted whole, in order of arrival. A table with a gap, and an
open level, leave the context as it is. A script never misses a literal of its own. -/
theorem string_data_whole_or_refused :
    (∀ texts, StringLiterals.KeepsAll texts) ∧ (∀ table context, StringTable.EmitsWhole table context) ∧
      ∀ script options stream, Script.EndsUnlessOpen script options stream :=
  ⟨StringLiterals.keepsAll, StringTable.emitsWhole, Script.endsUnlessOpen⟩

end MipsBackend
