import LayoutRules.Proofs.Generation.Outcome
import LayoutRules.Proofs.Rules.Distinct

/-! Where rules come from. A rule, and the rules of a table one below the other, tell the
heading and the mappings they were made for. -/
namespace LayoutRules

def Mapping.Readable (mapping : Mapping) : Prop := ∃ line, Line.meaning line = .ok (some mapping)

theorem Mapping.Readable.sound {mapping : Mapping} (readable : mapping.Readable) :
    mapping.Sound := by
  obtain ⟨line,found⟩ := readable
  exact Line.sound_of_meaning found

namespace Heading
variable {heading other : Heading} {first second : Table}

theorem lines_cons (heading : Heading) (mapping : Mapping) (table : Table) :
    heading.lines (mapping :: table) = heading.ruleText mapping ++ heading.lines table :=
  List.flatMap_cons

/-- Equal rules one below the other are those of equal tables, and
of one heading unless there are none. -/
theorem lines_injective (accepted : heading.Accepts first) (accepts : other.Accepts second)
    (plain : ∀ mapping ∈ first, mapping.Sound ∧ mapping.target.Definite)
    (clear : ∀ mapping ∈ second, mapping.Sound ∧ mapping.target.Definite)
    (same : heading.lines first = other.lines second) :
    first = second ∧ (first ≠ [] → heading = other) := by
  have isLine {heading : Heading} {mapping : Mapping} (sound : mapping.Sound)
      (accepted : heading.accept mapping = .ok ()) :
      Text.IsLine (heading.ruleText mapping) := (isRule_ruleText sound accepted).line
  have filled {heading : Heading} {mapping : Mapping} {table : Table}
      (line : Text.IsLine (heading.ruleText mapping)) :
      heading.lines (mapping :: table) ≠ [] := by
    obtain ⟨body,ends,_⟩ := line
    simp [lines_cons,ends]
  induction first generalizing second with
  | nil =>
    cases second with
    | nil => exact ⟨rfl,fun some => absurd rfl some⟩
    | cons two second =>
      have line := isLine (clear two List.mem_cons_self).1 (accepts two List.mem_cons_self)
      exact absurd same.symm (filled line)
  | cons one first ih =>
    have line := isLine (plain one List.mem_cons_self).1 (accepted one List.mem_cons_self)
    cases second with
    | nil => exact absurd same (filled line)
    | cons two second =>
      have alsoLine := isLine (clear two List.mem_cons_self).1 (accepts two List.mem_cons_self)
      rw [lines_cons,lines_cons] at same
      obtain ⟨rules,rests⟩ := line.append_unique alsoLine same
      obtain ⟨oneSound,oneDefinite⟩ := plain one List.mem_cons_self
      obtain ⟨twoSound,twoDefinite⟩ := clear two List.mem_cons_self
      obtain ⟨headings,mappings⟩ := ruleText_injective (accepted one List.mem_cons_self)
        (accepts two List.mem_cons_self) oneSound twoSound oneDefinite twoDefinite rules
      obtain ⟨tables,_⟩ := ih
        (fun mapping member => accepted mapping (List.mem_cons_of_mem _ member))
        (fun mapping member => accepts mapping (List.mem_cons_of_mem _ member))
        (fun mapping member => plain mapping (List.mem_cons_of_mem _ member))
        (fun mapping member => clear mapping (List.mem_cons_of_mem _ member)) rests
      exact ⟨by rw [mappings,tables],fun _ => headings⟩

end Heading

namespace Generation

theorem writeTable_ok {world : World} {heading : Heading} {table : Table}
    (succeeds : (writeTable heading false table).result (world.into .unlimited) = .ok ()) :
    heading.Accepts table ∧
      ((writeTable heading false table).after (world.into .unlimited)).received =
      Utf8.encode (heading.lines table) := by
  obtain ⟨ended,received⟩ := Plan.unlimited _ (Plan.flushless_writeTable heading false table) world
  obtain ⟨outcome,output⟩ := Plan.writeTable_eq heading false table
  rw [Plan.perform_writeTable] at ended received
  cases found : refusal heading table with
  | some stop =>
    rw [ended,outcome,found] at succeeds
    cases succeeds
  | none =>
    rw [found] at output
    exact ⟨(refusal_eq_none_iff heading table).mp found,received.trans output⟩

/-- Equal rules have one heading and one mapping, and equal rules of two tables one
heading and one table, if the bases of the targets are definite. -/
theorem rules_tell_origin (world : World) :
    (∀ (heading other : Heading) (one two : Mapping),
      one.Readable → two.Readable → one.target.Definite → two.target.Definite →
      heading.accept one = .ok () → other.accept two = .ok () → heading.rule one = other.rule two →
      heading = other ∧ one = two) ∧
    (∀ (heading other : Heading) (first second : Table), first ≠ [] → second ≠ [] →
      (∀ mapping ∈ first, mapping.Readable ∧ mapping.target.Definite) →
      (∀ mapping ∈ second, mapping.Readable ∧ mapping.target.Definite) →
      let one := writeTable heading false first
      let two := writeTable other false second
      one.result (world.into .unlimited) = .ok () → two.result (world.into .unlimited) = .ok () →
      (one.after (world.into .unlimited)).received = (two.after (world.into .unlimited)).received →
        heading = other ∧ first = second) := by
  refine ⟨?_,?_⟩
  · intro heading other one two readable alsoReadable definite alsoDefinite accepted accepts same
    rw [Heading.rule_of_accept accepted,Heading.rule_of_accept accepts] at same
    exact Heading.ruleText_injective accepted accepts readable.sound alsoReadable.sound definite
      alsoDefinite (Except.ok.inj same)
  · intro heading other first second filled _ plain clear one two succeeds alsoSucceeds same
    obtain ⟨accepted,received⟩ := writeTable_ok succeeds
    obtain ⟨accepts,alsoReceived⟩ := writeTable_ok alsoSucceeds
    rw [received,alsoReceived] at same
    have lines : heading.lines first = other.lines second := by
      have decoded := congrArg Utf8.decode same
      rw [Utf8.decode_encode,Utf8.decode_encode] at decoded
      exact Option.some.inj decoded
    obtain ⟨tables,headings⟩ := Heading.lines_injective accepted accepts
      (fun mapping member => ⟨(plain mapping member).1.sound,(plain mapping member).2⟩)
      (fun mapping member => ⟨(clear mapping member).1.sound,(clear mapping member).2⟩) lines
    exact ⟨headings filled,tables⟩

theorem rules_tell_origin_of_lines : ∃ (one two : Mapping) (heading : Heading),
    Line.meaning "=(+ fr:2%x".toList = .ok (some one) ∧
      Line.meaning "\u3000=(+\tfr:2%x // *".toList = .ok (some two) ∧
      heading.accept one = .ok () ∧ one = two ∧ [one] = [two] := by
  have readable : Line.meaning "=(+ fr:2%x".toList =
      .ok (some ⟨⟨"=(+".toList,none,by decide⟩,⟨"fr:2%x".toList,none,by decide⟩⟩) := by
    decide +kernel
  have alsoReadable : Line.meaning "\u3000=(+\tfr:2%x // *".toList =
      .ok (some ⟨⟨"=(+".toList,none,by decide⟩,⟨"fr:2%x".toList,none,by decide⟩⟩) := by
        decide +kernel
  have definite : Layout.Definite ⟨"fr:2%x".toList,none,by decide⟩ := ⟨by decide,by decide⟩
  obtain ⟨ofRules,ofTables⟩ := rules_tell_origin (World.ofTree .empty [])
  have mappings := ofRules (.ofNumber .layout (some 2)) (.ofNumber .layout (some 2)) _ _
    ⟨_,readable⟩ ⟨_,alsoReadable⟩ definite definite rfl rfl rfl
  have tables := ofTables (.ofNumber .layout (some 2)) (.ofNumber .layout (some 2)) _ _
    (List.cons_ne_nil _ _) (List.cons_ne_nil _ _)
    (List.forall_mem_singleton.mpr ⟨⟨_,readable⟩,definite⟩)
    (List.forall_mem_singleton.mpr ⟨⟨_,alsoReadable⟩,definite⟩) rfl rfl rfl
  exact ⟨_,_,.ofNumber .layout (some 2),readable,alsoReadable,rfl,mappings.2,tables.2⟩

end Generation
end LayoutRules
