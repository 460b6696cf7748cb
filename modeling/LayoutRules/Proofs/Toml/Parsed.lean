import LayoutRules.Proofs.Toml.Keys

/-! What a scan yields, whatever text it succeeds on. A document that is scanned brings proper
values only, and so its tables name no key twice. -/
namespace LayoutRules.Toml

namespace Scan
variable {α β : Type} {holds : α → Prop} {later : β → Prop} {scan : Scan α} {text rest : Text}

/-- Of every value that a scan yields this holds. -/
def Yields (scan : Scan α) (holds : α → Prop) : Prop :=
  ∀ text value rest, scan text = some (value,rest) → holds value

theorem yields_any (scan : Scan α) : scan.Yields fun _ => True := fun _ _ _ _ => trivial

theorem yields_pure {value : α} (given : holds value) : (pure value : Scan α).Yields holds := by
  intro text other rest scanned
  cases scanned
  exact given

theorem yields_failure : (failure : Scan α).Yields holds := by
  intro text value rest scanned
  cases scanned

theorem Yields.bind {next : α → Scan β} (first : scan.Yields holds)
    (follows : ∀ value, holds value → (next value).Yields later) :
    (scan >>= next).Yields later := by
  intro text value rest scanned
  obtain ⟨⟨middle,left⟩,began,ended⟩ := Option.bind_eq_some_iff.mp scanned
  exact follows middle (first text middle left began) left value rest ended

theorem yields_bind {next : α → Scan β} (scan : Scan α)
    (follows : ∀ value, (next value).Yields later) : (scan >>= next).Yields later :=
  (yields_any scan).bind fun value _ => follows value

theorem Yields.map {f : α → β} (first : scan.Yields holds)
    (follows : ∀ value, holds value → later (f value)) : (f <$> scan).Yields later := by
  rw [map_eq_pure_bind]
  exact first.bind fun value given => yields_pure (follows value given)

theorem Yields.orElse {other : Scan α} (first : scan.Yields holds) (second : other.Yields holds) :
    (scan <|> other).Yields holds := by
  intro text value rest scanned
  change (scan text <|> other text) = _ at scanned
  cases attempt : scan text with
  | none =>
    rw [attempt] at scanned
    exact second text value rest scanned
  | some result =>
    rw [attempt] at scanned
    exact first text value rest (attempt.trans scanned)

theorem yields_collectAtMost {scan : Scan (Option α)}
    (first : scan.Yields fun found => ∀ value ∈ found, holds value) (limit : Nat) :
    (collectAtMost scan limit).Yields fun values => ∀ value ∈ values, holds value := by
  induction limit with
  | zero => exact yields_failure
  | succ limit ih =>
    refine first.bind fun found given => ?_
    cases found with
    | none => exact yields_pure nofun
    | some value =>
      exact ih.bind fun values all => yields_pure (List.forall_mem_cons.mpr ⟨given value rfl,all⟩)

theorem Yields.collect {scan : Scan (Option α)}
    (first : scan.Yields fun found => ∀ value ∈ found, holds value) :
    (collect scan).Yields fun values => ∀ value ∈ values, holds value :=
  yields_bind _ fun _ => yields_collectAtMost first _

theorem yields_none :
    (pure none : Scan (Option α)).Yields fun found => ∀ value ∈ found, holds value :=
  yields_pure nofun

theorem yields_some {value : α} (given : holds value) :
    (pure (some value) : Scan (Option α)).Yields fun found => ∀ value ∈ found, holds value := by
  apply yields_pure
  rintro _ ⟨⟩
  exact given

variable {inner : Scan Value}

theorem yields_elements (proper : inner.Yields Value.Proper) :
    (elements inner).Yields fun values => ∀ value ∈ values, value.Proper := by
  refine yields_bind _ fun _ =>
    Yields.bind (Yields.collect ?_) fun values all => yields_bind _ fun _ => yields_pure all
  refine yields_bind _ fun _ => yields_bind _ fun next => ?_
  split
  · exact yields_none
  · refine proper.bind fun value given => yields_bind _ fun _ => yields_bind _ fun next => ?_
    -- Whatever stands behind a value, the value is the one that was scanned.
    have scanned (behind : Scan Unit) : (do behind; return some value).Yields fun found =>
        ∀ value ∈ found, Value.Proper value :=
      yields_bind behind fun _ => yields_some given
    dsimp only
    split
    · exact scanned (discard char)
    · refine yields_bind _ fun next => ?_
      split
      · exact yields_some given
      · exact scanned failure

theorem yields_pair (proper : inner.Yields Value.Proper) :
    (pair inner).Yields fun found => found.2.2.Proper :=
  yields_bind _ fun _ => yields_bind _ fun _ =>
    yields_bind _ fun _ => proper.bind fun _ given => yields_bind _ fun _ => yields_pure given

theorem yields_pairs (proper : inner.Yields Value.Proper) :
    (pairs inner).Yields fun found => ∀ pair ∈ found, pair.2.2.Proper := by
  have first := yields_pair proper
  have further : (collect do
      if (← peek) == some ',' then do
        discard char
        return some (← pair inner)
      else return none).Yields fun found => ∀ pair ∈ found, pair.2.2.Proper := by
    refine Yields.collect (yields_bind _ fun next => ?_)
    split
    · exact yields_bind _ fun _ => first.bind fun pair given => by exact yields_some given
    · exact yields_none
  refine yields_bind _ fun _ => yields_bind _ fun _ => yields_bind _ fun next => ?_
  split
  · exact yields_bind _ fun _ => yields_pure nofun
  · refine first.bind fun pair given => further.bind fun others all => yields_bind _ fun _ => ?_
    exact yields_pure (List.forall_mem_cons.mpr ⟨given,all⟩)

theorem yields_number : number.Yields Value.Proper := by
  have moments : (Value.moment <$> moment).Yields Value.Proper :=
    (yields_any moment).map fun written _ => .moment written
  have floats : (Value.float <$> float).Yields Value.Proper :=
    (yields_any float).map fun number _ => .float number
  have integers : (Value.integer <$> integer).Yields Value.Proper :=
    (yields_any integer).map fun number _ => .integer number
  exact moments.orElse (floats.orElse integers)

theorem yields_simple : Scan.value.simple.Yields Value.Proper := by
  refine yields_bind _ fun next => ?_
  split
  · exact (yields_any string).map fun text _ => .string text
  · exact (yields_any string).map fun text _ => .string text
  · exact (yields_any boolean).map fun value _ => .boolean value
  · exact (yields_any boolean).map fun value _ => .boolean value
  · exact (yields_any specialFloat).map fun number _ => .float number
  · exact (yields_any specialFloat).map fun number _ => .float number
  · exact yields_number

theorem yields_value (depth : Nat) : (Scan.value depth).Yields Value.Proper := by
  induction depth with
  | zero => exact yields_simple
  | succ depth ih =>
    refine yields_bind _ fun next => ?_
    split
    · exact (yields_elements ih).map fun values all => .array false values all
    · refine (yields_pairs ih).bind fun pairs all => ?_
      split
      · rename_i entries made
        exact yields_pure ((Entries.Proper.ofBraces all made).table _)
      · exact yields_failure
    · exact yields_simple

theorem yields_header : header.Yields Statement.Proper := by
  refine yields_bind _ fun _ => yields_bind _ fun next => ?_
  split
  · exact yields_bind _ fun _ =>
      yields_bind _ fun _ => yields_bind _ fun _ => yields_bind _ fun _ => yields_pure trivial
  · exact yields_bind _ fun _ => yields_bind _ fun _ => yields_bind _ fun _ => yields_pure trivial

theorem yields_entry : entry.Yields Statement.Proper :=
  yields_bind _ fun _ =>
    yields_bind _ fun _ => yields_bind _ fun _ => (yields_value 79).bind fun _ given =>
    yields_bind _ fun _ => yields_pure given

theorem yields_line :
    line.Yields fun found => ∀ statement ∈ found, ∀ inside ∈ statement, inside.Proper := by
  refine yields_bind _ fun _ => yields_bind _ fun next => ?_
  split
  · exact yields_none
  · exact yields_bind _ fun _ => yields_bind _ fun _ => yields_some nofun
  · exact yields_bind _ fun _ => yields_some nofun
  · exact yields_bind _ fun _ => yields_some nofun
  · exact yields_header.bind fun _ given => yields_some (by rintro _ ⟨⟩; exact given)
  · exact yields_entry.bind fun _ given => yields_some (by rintro _ ⟨⟩; exact given)

theorem yields_statements :
    statements.Yields fun found => ∀ statement ∈ found, statement.Proper := by
  have lines : (do return (← collect line).filterMap id : Scan (List Statement)).Yields fun found =>
      ∀ statement ∈ found, statement.Proper := by
    refine yields_line.collect.bind fun found all => yields_pure ?_
    intro statement member
    obtain ⟨inside,given,same⟩ := List.mem_filterMap.mp member
    exact all inside given statement same
  refine yields_bind _ fun next => ?_
  dsimp only
  split
  · exact yields_bind _ fun _ => lines
  · exact lines

end Scan

/-- Whatever text is a document, its tables name no key twice. -/
theorem proper_of_parse {text : Text} {root : Entries} (parsed : parse text = some root) :
    root.Proper := by
  obtain ⟨⟨statements,rest⟩,scanned,made⟩ := Option.bind_eq_some_iff.mp parsed
  exact Statement.proper_document (Scan.yields_statements text statements rest scanned) made

end LayoutRules.Toml
