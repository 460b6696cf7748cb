import LayoutRules.Proofs.Generation.Section

/-! The log of a table as a transcript of its rules. Each rule is in the log before it is written,
without its line feed. What the sink has taken in the end is the heading and the rules in the log;
where the sink gave out, it is a part of the heading, or the heading with all these rules but the
last and a part of that one. -/
namespace LayoutRules

namespace Heading

/-- How a record of a rule begins. -/
def label (heading : Heading) : Text := heading.name ++ ": ".toList

/-- What the trace records say behind the label, each as a line. -/
def transcript (heading : Heading) (events : List Log.Event) : List Text :=
  (events.filter (·.level = .trace)).map fun record =>
    record.message.drop heading.label.length ++ ['\n']

theorem transcript_append (heading : Heading) (first second : List Log.Event) :
    heading.transcript (first ++ second) =
      heading.transcript first ++ heading.transcript second := by
  rw [transcript,List.filter_append,List.map_append]
  rfl

/-- The line feed is all that the log leaves out of a rule. -/
theorem trimEnd_ruleText {heading : Heading} {mapping : Mapping} (sound : mapping.Sound) :
    (heading.ruleText mapping).trimEnd ++ ['\n'] = heading.ruleText mapping := by
  have feed : Text.isBlank '\n' = true := by decide
  unfold ruleText
  rw [Text.trimEnd_append_blank feed,
    Text.trimEnd_append_word (heading.isField_symbols sound.target).word]

theorem transcript_ruleReady {heading : Heading} {mapping : Mapping} (sound : mapping.Sound) :
    heading.transcript [.ruleReady heading (heading.ruleText mapping).trimEnd] =
      [heading.ruleText mapping] := by
  have line : heading.transcript [.ruleReady heading (heading.ruleText mapping).trimEnd] =
      [(heading.label ++ (heading.ruleText mapping).trimEnd).drop heading.label.length ++ ['\n']] :=
        rfl
  rw [line,List.drop_left,trimEnd_ruleText sound]

end Heading

namespace Generation
open World

/-- What has been written of a text in front and of the lines in the
log, by the way in which the writing ended. -/
inductive Transcribes (front : Text) : List Text → Bytes → Except Fault Unit → Prop
  | finished (lines) : Transcribes front lines (Utf8.encode (front ++ lines.flatten)) (.ok ())
  | refused (lines fault) :
      Transcribes front lines (Utf8.encode (front ++ lines.flatten)) (.error (.rule fault))
  | inFront (written fault) (cut : written <+: Utf8.encode front)
      (short : written ≠ Utf8.encode front) :
      Transcribes front [] written (.error (.output fault))
  | inLine (before last written fault) (begun : Utf8.encode (front ++ before.flatten) <+: written)
      (cut : written <+: Utf8.encode (front ++ (before ++ [last]).flatten))
      (short : written ≠ Utf8.encode (front ++ (before ++ [last]).flatten)) :
      Transcribes front (before ++ [last]) written (.error (.output fault))

namespace Transcribes
variable {front : Text} {lines : List Text} {written : Bytes} {outcome : Except Fault Unit}

theorem prepend (text : Text) (transcribes : Transcribes front lines written outcome) :
    Transcribes (text ++ front) lines (Utf8.encode text ++ written) outcome := by
  have behind (first : Bytes) {part whole : Bytes} (differ : part ≠ whole) :
      first ++ part ≠ first ++ whole :=
    fun same => differ (List.append_cancel_left same)
  cases transcribes with
  | finished =>
    rw [← Utf8.encode_append,← List.append_assoc]
    exact .finished lines
  | refused _ fault =>
    rw [← Utf8.encode_append,← List.append_assoc]
    exact .refused lines fault
  | inFront _ fault cut short =>
    apply inFront
    · rw [Utf8.encode_append]
      exact (List.prefix_append_right_inj _).mpr cut
    · rw [Utf8.encode_append]
      exact behind _ short
  | inLine before last _ fault begun cut short =>
    apply inLine
    · rw [List.append_assoc,Utf8.encode_append]
      exact (List.prefix_append_right_inj _).mpr begun
    · rw [List.append_assoc,Utf8.encode_append]
      exact (List.prefix_append_right_inj _).mpr cut
    · rw [List.append_assoc,Utf8.encode_append]
      exact behind _ short

/-- A text in front that is in the log itself is the first of its lines. -/
theorem shift {line : Text} (transcribes : Transcribes line lines written outcome) :
    Transcribes [] (line :: lines) written outcome := by
  cases transcribes with
  | finished => exact .finished (line :: lines)
  | refused _ fault => exact .refused (line :: lines) fault
  | inFront _ fault cut short =>
    have alone : line = [] ++ ([] ++ [line]).flatten := by simp
    rw [alone] at cut short
    exact .inLine [] line written fault List.nil_prefix cut short
  | inLine before last _ fault begun cut short =>
    exact .inLine (line :: before) last written fault begun cut short

end Transcribes

/-- A run that leaves a transcript of what it writes behind a text in front. -/
def Transcribed (heading : Heading) (front : Text) (action : Action Fault Unit) (world : World) :
    Prop :=
  ∃ written emitted, (action.after world).taken = world.taken ++ written ∧
    (action.after world).events = world.events ++ emitted ∧
    (∀ record ∈ emitted, record.level = .trace → heading.label <+: record.message) ∧
    Transcribes front (heading.transcript emitted) written (action.result world)

namespace Transcribed
variable {heading : Heading} {front other : Text} {action next : Action Fault Unit} {world : World}

theorem still {outcome : Except Fault Unit} (ended : action world = Action.ending outcome world)
    (transcribes : Transcribes front [] [] outcome) :
    Transcribed heading front action world := by
  refine ⟨[],[],?_,?_,fun record member => absurd member List.not_mem_nil,?_⟩
  · rw [Action.after_of_ending ended,List.append_nil]
  · rw [Action.after_of_ending ended,List.append_nil]
  · rw [Action.result_of_ending ended]
    exact transcribes

theorem reporting (events : List Log.Event)
    (labelled : ∀ record ∈ events, record.level = .trace → heading.label <+: record.message)
    (carried : ∀ lines written outcome, Transcribes front lines written outcome →
      Transcribes other (heading.transcript events ++ lines) written outcome)
    (transcribed : Transcribed heading front next (world.noting events 0)) :
    Transcribed heading other (do Action.report events; next) world := by
  obtain ⟨written,emitted,taken,logged,labels,transcribes⟩ := transcribed
  have begun : Action.report (ε := Fault) events world = .ok () (world.noting events 0) := rfl
  have same := Action.bind_of_ok (fun _ => next) begun
  refine ⟨written,events ++ emitted,?_,?_,List.forall_mem_append.mpr ⟨labelled,labels⟩,?_⟩
  · rw [Action.after_congr_at same,taken]
    rfl
  · rw [Action.after_congr_at same,logged]
    exact List.append_assoc _ _ _
  · rw [Action.result_congr_at same,Heading.transcript_append]
    exact carried _ _ _ transcribes

theorem writing (below : world.sink.file? ≠ some [])
    (later : ∀ middle : World, middle.sink.file? ≠ some [] → Transcribed heading [] next middle) :
    Transcribed heading front (do Action.write .output front; next) world := by
  have kept := events_write world (Utf8.encode front)
  cases ended : world.write (Utf8.encode front) with
  | mk fault middle =>
    rw [ended] at kept
    cases fault with
    | none =>
      obtain ⟨arrived,delivers⟩ := delivers_of_write below ended
      have wrote : Action.write Fault.output front world = .ok () middle := by
        rw [Action.write,ended]
      have same := Action.bind_of_ok (fun _ => next) wrote
      obtain ⟨written,emitted,taken,logged,labels,transcribes⟩ :=
        later middle (delivers.file ▸ below)
      refine ⟨Utf8.encode front ++ written,emitted,?_,?_,labels,?_⟩
      · rw [Action.after_congr_at same,taken,delivers.taken,List.append_assoc]
      · rw [Action.after_congr_at same,logged,kept]
      · have whole := transcribes.prepend front
        rw [List.append_nil] at whole
        rw [Action.result_congr_at same]
        exact whole
    | some fault =>
      obtain ⟨part,taken,cut,short⟩ := (taken_of_refused ended).2
      have failed : Action.write Fault.output front world = .error (.output fault) middle := by
        rw [Action.write,ended]
      have same := Action.bind_of_error (fun _ => next) failed
      refine ⟨part,[],?_,?_,fun record member => absurd member List.not_mem_nil,?_⟩
      · rw [Action.after_of_error same,taken]
      · rw [Action.after_of_error same,kept,List.append_nil]
      · rw [Action.result_of_error same]
        exact .inFront part fault cut short

end Transcribed

theorem writeRules_transcribed {heading : Heading} {table : Table}
    (sound : ∀ mapping ∈ table, mapping.Sound) {world : World}
    (below : world.sink.file? ≠ some []) :
    Transcribed heading [] (writeRules heading table) world := by
  induction table generalizing world with
  | nil =>
    have ended : writeRules heading [] world = Action.ending (.ok ()) world := rfl
    exact .still ended (.finished [])
  | cons mapping rest ih =>
    cases accepted : heading.accept mapping with
    | error fault =>
      have ended : writeRules heading (mapping :: rest) world =
          Action.ending (.error (.rule fault)) world := by
        rw [writeRules,Heading.rule_of_refuse accepted]
        rfl
      exact .still ended (.refused [] fault)
    | ok _ =>
      rw [writeRules,Heading.rule_of_accept accepted]
      refine .reporting [.ruleReady heading (heading.ruleText mapping).trimEnd] ?_ ?_
        (.writing below fun middle below =>
          ih (fun other member => sound other (List.mem_cons_of_mem _ member)) below)
      · exact List.forall_mem_singleton.mpr fun _ => List.prefix_append _ _
      · intro lines written outcome transcribes
        rw [Heading.transcript_ruleReady (sound mapping List.mem_cons_self)]
        exact transcribes.shift

/-- Whatever the sink is, the log of a table that was read tells what was
written of it, up to the fault that ended it. -/
theorem log_transcribes_rules {world : World} {heading : Heading} {withHeading : Bool} {path : Path}
    {bytes : Bytes} {table : Table} (held : (Table.read path bytes).2 = .ok table)
    (below : world.sink.file? ≠ some []) :
    let run := writeTable heading withHeading table
    ∃ written emitted, (run.after world).taken = world.taken ++ written ∧
      (run.after world).events = world.events ++ emitted ∧
      (∀ record ∈ emitted, record.level = .trace → heading.label <+: record.message) ∧
      Transcribes (if withHeading then heading.line else []) (heading.transcript emitted) written
        (run.result world) := by
  rw [Table.read_outcome] at held
  have sound := Table.sound_of_readLines held
  have quiet (front : Text) (lines : List Text) (written : Bytes) (outcome : Except Fault Unit)
      (transcribes : Transcribes front lines written outcome) :
      Transcribes front (heading.transcript [.sectionBegun heading table.length withHeading] ++
        lines) written outcome := transcribes
  have unlabelled : ∀ record ∈ [Log.Event.sectionBegun heading table.length withHeading],
    record.level = .trace → heading.label <+: record.message :=
    List.forall_mem_singleton.mpr nofun
  cases withHeading with
  | false =>
    exact Transcribed.reporting _ unlabelled (quiet []) (writeRules_transcribed sound below)
  | true =>
    have rules (middle : World) (below : middle.sink.file? ≠ some []) :
        Transcribed heading [] (writeRules heading table) middle :=
      writeRules_transcribed sound below
    exact Transcribed.reporting _ unlabelled (quiet heading.line) (.writing below rules)

theorem log_transcribes_rules_up_to_cut :
    let heading : Heading := ⟨.layout,none⟩
    let world := (World.ofTree .empty []).into (.limited 50 false)
    let table : Table := [⟨.ofParts "us".toList none,.ofParts "fr".toList none⟩,
      ⟨.ofParts "de".toList none,.ofParts "jp".toList (some "x".toList)⟩]
    let run := writeTable heading true table
    (Table.read ['t'] (Utf8.encode "us fr // one\n\nde jp(x)".toList)).2 = .ok table ∧
      world.sink.file? ≠ some [] ∧
      run.result world = .error (.output .full) ∧ Transcribes heading.line
        ["  *\t\tus\t\t\t=\tpc+fr\n".toList,"  *\t\tde\t\t\t=\tpc+jp(x)\n".toList]
        (run.after world).received (.error (.output .full)) := by
  intro heading world table run
  have held : (Table.read ['t'] (Utf8.encode "us fr // one\n\nde jp(x)".toList)).2 = .ok table := by
    decide +kernel
  have below : world.sink.file? ≠ some [] := by decide
  have ended : run.result world = .error (.output .full) := by decide +kernel
  have lines : heading.transcript (run.after world).events =
      ["  *\t\tus\t\t\t=\tpc+fr\n".toList,"  *\t\tde\t\t\t=\tpc+jp(x)\n".toList] := by
        decide +kernel
  have received : (run.after world).taken = (run.after world).received := by decide +kernel
  obtain ⟨written,emitted,taken,logged,_,transcribes⟩ :=
    @log_transcribes_rules world heading true _ _ table held below
  have all : emitted = (run.after world).events := logged.symm
  have whole : written = (run.after world).received := taken.symm.trans received
  rw [all,lines,whole,ended] at transcribes
  exact ⟨held,below,ended,transcribes⟩

end Generation
end LayoutRules
