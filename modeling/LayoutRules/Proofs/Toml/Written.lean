import LayoutRules.Proofs.Toml.Keys
import LayoutRules.Proofs.Toml.Numbers
import LayoutRules.Proofs.Toml.Strings

/-! Documents written line by line: headers of elements, and entries whose values are texts,
numbers, flags or lists of texts. A document written like this is read as what its lines say. -/
namespace LayoutRules.Toml

/-- The values that an entry is written with. -/
inductive Literal where
  | string (text : Text)
  | number (n : UInt32)
  | flag (holds : Bool)
  | strings (texts : List Text)

namespace Literal

def value : Literal → Value
  | string text => .string text
  | number n => .integer n.toNat
  | flag holds => .boolean holds
  | strings texts => .array false (texts.map .string)

def toText : Literal → Text
  | string text => quoted text
  | number n => Numeral.ofNat n.toNat
  | flag holds => if holds then "true".toList else "false".toList
  | strings texts => '[' :: texts.flatMap (fun text => quoted text ++ [',']) ++ [']']

end Literal

/-- A line of a document that opens an element of an array, or gives an entry. -/
inductive Written where
  | element (name : Text)
  | setting (key : Text) (literal : Literal)

namespace Written

def name : Written → Text
  | element name => name
  | setting key _ => key

def statement : Written → Statement
  | element name => .element [] name
  | setting key literal => .entry [] key literal.value

def toText : Written → Text
  | element name => '[' :: '[' :: name ++ [']',']','\n']
  | setting key literal => key ++ '=' :: literal.toText ++ ['\n']

end Written

namespace Scan

section Literals

theorem gap_cons {c : Char} (solid : c ∉ [' ','\t','#','\n','\r']) (rest : Text) :
    gap (c :: rest) = some ((),c :: rest) := by
  simp only [List.mem_cons,List.not_mem_nil,or_false,not_or] at solid
  obtain ⟨space,tab,hash,feed,carriage⟩ := solid
  refine map_of_some (collect_of_stop ?_)
  rw [bind_of_some (spaces_of_head (by simp [space,tab])),bind_of_some (peek_cons c rest)]
  simp only [Option.some.injEq,hash,feed,carriage,imp_self]
  rfl

theorem elements_quoted (depth : Nat) (texts : List Text) (rest : Text) :
    elements (value depth) ('[' :: texts.flatMap
      (fun text => quoted text ++ [',']) ++ ']' :: rest) = some (texts.map .string,rest) := by
  rw [elements,List.cons_append,bind_of_some (exactly_cons _ _)]
  refine bind_eq (texts.map .string) (']' :: rest)
    (collect_pieces ?_ (fun text _ => List.cons_ne_nil _ _) ?_) rfl
  · intro text _ rest
    rw [List.append_assoc,List.singleton_append]
    refine bind_eq () (quoted text ++ ',' :: rest) (gap_cons (by decide) _) ?_
    refine bind_eq (some '"') (quoted text ++ ',' :: rest) rfl ?_
    rw [if_neg (by decide),bind_of_some (value_string depth text (by simp)),
      bind_of_some (gap_cons (by decide) _)]
    rfl
  · rw [bind_of_some (gap_cons (by decide) rest)]
    rfl

theorem value_literal (depth : Nat) (literal : Literal) (rest : Text) :
    value (depth + 1) (literal.toText ++ '\n' :: rest) = some (literal.value,'\n' :: rest) := by
  cases literal with
  | string text => exact value_string _ text (by simp)
  | number n => exact value_ofNat (Nat.lt_trans n.toNat_lt (by decide)) _ rest
  | flag holds => cases holds <;> rfl
  | strings texts =>
    have body : (Literal.strings texts).toText ++ '\n' :: rest = '[' :: texts.flatMap
        (fun text => quoted text ++ [',']) ++ ']' :: '\n' :: rest := by
      simp [Literal.toText]
    rw [body]
    exact map_of_some (elements_quoted depth texts ('\n' :: rest))

theorem spaces_literal (literal : Literal) (rest : Text) :
    spaces (literal.toText ++ rest) = some ((),literal.toText ++ rest) := by
  apply spaces_of_head
  cases literal with
  | string text => rfl
  | number n =>
    obtain ⟨d,tail,bound,front,_⟩ := Numeral.ofNat_head n.toNat
    rw [Literal.toText,front]
    interval_cases d <;> rfl
  | flag holds => cases holds <;> rfl
  | strings texts => rfl

end Literals

section Lines
variable {name rest : Text} {mark : Char} {lines : List Written}

/-- The name on a line needs no quotes. -/
def IsBare (name : Text) : Prop := name ≠ [] ∧ name.all isBareKey = true

instance (name : Text) : Decidable (IsBare name) := inferInstanceAs (Decidable (_ ∧ _))

theorem ne_of_isBareKey {c other : Char} (accepted : isBareKey c = true)
    (refused : isBareKey other = false) : c ≠ other := by
  rintro rfl
  cases accepted.symm.trans refused

theorem IsBare.accepted (bare : IsBare name) : ∀ c ∈ name, isBareKey c = true :=
  List.all_eq_true.mp bare.2

theorem IsBare.head (bare : IsBare name) : ∃ c tail, name = c :: tail ∧ isBareKey c = true := by
  obtain ⟨c,tail,rfl⟩ := List.exists_cons_of_ne_nil bare.1
  exact ⟨c,tail,rfl,bare.accepted c List.mem_cons_self⟩

theorem spaces_name (bare : IsBare name) (rest : Text) :
    spaces (name ++ rest) = some ((),name ++ rest) := by
  obtain ⟨c,tail,rfl,first⟩ := bare.head
  apply spaces_of_head
  have blank : c ≠ ' ' ∧ c ≠ '\t' := ⟨ne_of_isBareKey first rfl,ne_of_isBareKey first rfl⟩
  simpa using blank

theorem keyPart_name (bare : IsBare name) (stops : rest.head?.all (!isBareKey ·) = true) :
    keyPart (name ++ rest) = some (name,rest) := by
  obtain ⟨c,tail,front,first⟩ := bare.head
  have quote : c ≠ '"' ∧ c ≠ '\'' := ⟨ne_of_isBareKey first rfl,ne_of_isBareKey first rfl⟩
  have seen : peek (name ++ rest) = some (some c,name ++ rest) := by rw [front]; rfl
  rw [keyPart,bind_of_some seen]
  simp only [Option.some.injEq,quote.1,quote.2,imp_self]
  rw [bind_of_some (span_append bare.accepted stops),if_neg bare.1]
  rfl

theorem key_name (bare : IsBare name) (ends : mark = '=' ∨ mark = ']') :
    key (name ++ mark :: rest) = some (([],name),mark :: rest) := by
  refine bind_eq name (mark :: rest) ?_ ?_
  · refine bind_eq () (name ++ mark :: rest) (spaces_name bare _)
      (bind_eq name (mark :: rest) (keyPart_name bare ?_) ?_)
    · rcases ends with rfl | rfl <;> rfl
    · rcases ends with rfl | rfl <;> rfl
  · refine bind_eq [] (mark :: rest) (collect_of_stop ?_) rfl
    rcases ends with rfl | rfl <;> rfl

theorem header_written (bare : IsBare name) (rest : Text) :
    header ((Written.element name).toText ++ rest) = some (.element [] name,rest) := by
  have brackets : (Written.element name).toText ++ rest =
      '[' :: '[' :: (name ++ ']' :: ']' :: '\n' :: rest) := by
    simp [Written.toText]
  rw [brackets,header,bind_of_some (exactly_cons _ _),bind_of_some (peek_cons _ _),
    if_pos (by decide)]
  exact bind_eq ()
    (name ++ ']' :: ']' :: '\n' :: rest) rfl (bind_eq ([],name) _ (key_name bare (.inr rfl)) rfl)

theorem setting_append (key : Text) (literal : Literal) (rest : Text) :
    (Written.setting key literal).toText ++ rest =
      key ++ '=' :: (literal.toText ++ '\n' :: rest) := by
  simp [Written.toText]

theorem entry_written (bare : IsBare name) (literal : Literal) (rest : Text) :
    entry (name ++ '=' :: (literal.toText ++ '\n' :: rest)) =
      some (.entry [] name literal.value,rest) := by
  rw [entry,bind_of_some (key_name bare (.inl rfl))]
  dsimp only
  rw [bind_of_some (exactly_cons _ _),bind_of_some (spaces_literal literal _),
    bind_of_some (value_literal 78 literal rest)]
  rfl

/-- A line that starts with a name is taken for an entry. -/
theorem line_name (bare : IsBare name) (rest : Text) :
    line (name ++ rest) = ((fun statement => some (some statement)) <$> entry) (name ++ rest) := by
  obtain ⟨c,tail,front,first⟩ := bare.head
  have other : c ≠ '#' ∧ c ≠ '\n' ∧ c ≠ '\r' ∧ c ≠ '[' :=
    ⟨ne_of_isBareKey first rfl,ne_of_isBareKey first rfl,ne_of_isBareKey first rfl,
      ne_of_isBareKey first rfl⟩
  have seen : peek (name ++ rest) = some (some c,name ++ rest) := by rw [front]; rfl
  rw [line,bind_of_some (spaces_name bare rest),bind_of_some seen]
  simp [other]

theorem line_written {line : Written} (bare : IsBare line.name) (rest : Text) :
    Scan.line (line.toText ++ rest) = some (some (some line.statement),rest) := by
  cases line with
  | element name =>
    exact bind_eq () _ rfl (bind_eq (some '[') _ rfl (bind_eq _ _ (header_written bare rest) rfl))
  | setting key literal =>
    have named : IsBare key := bare
    rw [setting_append,line_name named,map_of_some (entry_written named literal rest)]
    rfl

theorem toText_cons {line : Written} (bare : IsBare line.name) :
    ∃ c tail, line.toText = c :: tail ∧ c ≠ '\uFEFF' := by
  cases line with
  | element name => exact ⟨'[',_,rfl,by decide⟩
  | setting key literal =>
    obtain ⟨c,tail,front,first⟩ := bare.head
    have starts : key = c :: tail := front
    exact ⟨c,tail ++ '=' :: literal.toText ++ ['\n'],by rw [Written.toText,starts]; rfl,
      ne_of_isBareKey first rfl⟩

theorem head_lines (bare : ∀ line ∈ lines, IsBare line.name) :
    (lines.flatMap Written.toText).head? ≠ some '\uFEFF' := by
  cases lines with
  | nil => nofun
  | cons line lines =>
    obtain ⟨c,tail,front,other⟩ := toText_cons (bare line List.mem_cons_self)
    rw [List.flatMap_cons,front]
    exact fun same => other (Option.some.inj same)

theorem statements_written (bare : ∀ line ∈ lines, IsBare line.name) :
    statements (lines.flatMap Written.toText) = some (lines.map Written.statement,[]) := by
  have filled : ∀ line ∈ lines, line.toText ≠ [] := by
    intro line member
    obtain ⟨c,tail,front,_⟩ := toText_cons (bare line member)
    rw [front]
    exact List.cons_ne_nil c tail
  have collected : collect line (lines.flatMap Written.toText ++ []) =
      some (lines.map fun line => some line.statement,[]) :=
    collect_pieces (fun line member => line_written (bare line member)) filled rfl
  rw [List.append_nil] at collected
  rw [statements]
  -- No line starts with a byte order mark, so there is none to take off.
  refine bind_eq _ _ rfl ?_
  rw [if_neg (by simpa using head_lines bare)]
  refine bind_eq _ _ collected ?_
  rw [List.filterMap_map,Function.id_comp,← Function.comp_def,List.filterMap_eq_map]
  rfl

end Lines
end Scan

variable {name : Text} {lines : List Written}

/-- A document that is written line by line says what its lines say. -/
theorem parse_written (bare : ∀ line ∈ lines, Scan.IsBare line.name) :
    parse (lines.flatMap Written.toText) = Statement.document (lines.map Written.statement) := by
  change (Scan.statements (lines.flatMap Written.toText)).bind _ = _
  rw [Scan.statements_written bare]
  rfl

namespace Statement

theorem addEntry_header {key : Text} {table : Entries} (value : Value)
    (absent : table.find? key = none) :
    Entries.addEntry [] key value .header table = some (table ++ [(key,value)]) := by
  simp [Entries.addEntry,Entries.edit,absent]

theorem apply_entry {key : Text} {table : Entries} (value : Value)
    (absent : table.find? key = none) :
    apply ([name],[(name,.array true [.table .header table])]) (.entry [] key value) =
      some ([name],[(name,.array true [.table .header (table ++ [(key,value)])])]) := by
  simp [apply,Entries.edit,Entries.find?,addEntry_header value absent,Entries.replace]

/-- Entries below the header of an element go into that element, in their order. -/
theorem foldlM_entries (name : Text) {settings : List (Text × Literal)}
    (distinct : (settings.map Prod.fst).Nodup) :
    (settings.map fun (key,literal) => entry [] key literal.value).foldlM apply ([name],
        [(name,.array true [.table .header []])]) =
      some ([name],[(name,.array true
        [.table .header (settings.map fun (key,literal) => (key,literal.value))])]) := by
  induction settings using List.reverseRecOn with
  | nil => rfl
  | append_singleton settings setting ih =>
    rw [List.map_append] at distinct
    have absent :
        Entries.find? (settings.map fun (key,literal) => (key,literal.value)) setting.1 = none := by
      rw [Entries.find?_eq_none_iff,List.map_map]
      exact List.disjoint_singleton.mp (List.disjoint_of_nodup_append distinct)
    rw [List.map_append,List.foldlM_append,ih distinct.of_append_left,List.map_append]
    exact (Option.bind_some _ _).trans (congrArg (·.bind some) (apply_entry setting.2.value absent))

end Statement

/-- A document with one element under a header, whose entries have distinct names. -/
theorem parse_element {settings : List (Text × Literal)} (bare : Scan.IsBare name)
    (bares : ∀ setting ∈ settings, Scan.IsBare setting.1)
    (distinct : (settings.map Prod.fst).Nodup) :
    parse ((Written.element name :: settings.map fun (key,literal) =>
        Written.setting key literal).flatMap Written.toText) =
      some [(name,
        .array true [.table .header (settings.map fun (key,literal) => (key,literal.value))])] := by
  have all : ∀ line ∈ Written.element name :: settings.map fun (key,literal) =>
      Written.setting key literal, Scan.IsBare line.name :=
    List.forall_mem_cons.mpr ⟨bare,List.forall_mem_map.mpr bares⟩
  rw [parse_written all,Statement.document,List.map_cons,List.map_map]
  exact congrArg (Prod.snd <$> ·) (Statement.foldlM_entries name distinct)

end LayoutRules.Toml
