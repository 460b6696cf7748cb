import LayoutRules.Proofs.Text.Spacing
import LayoutRules.Toml.Document

/-! How a scan runs on a text that starts with what it takes, whatever stands
behind that. Scans one after the other take one text behind the other, and a
repeated scan takes one piece after the other. -/
namespace LayoutRules.Toml.Scan
open Text

section Sequence
variable {α β : Type} {scan other : Scan α} {next : α → Scan β} {f : α → β} {value : α}
  {text rest : Text}

theorem bind_of_some (first : scan text = some (value,rest)) :
    (scan >>= next) text = next value rest := by
  change (scan text).bind (fun (value,rest) => next value rest) = _
  rw [first]
  rfl

theorem bind_eq {outcome : Option (β × Text)} (value : α) (rest : Text)
    (first : scan text = some (value,rest)) (last : next value rest = outcome) :
    (scan >>= next) text = outcome := (bind_of_some first).trans last

theorem bind_of_none (first : scan text = none) : (scan >>= next) text = none := by
  change (scan text).bind _ = none
  rw [first]
  rfl

theorem map_of_some (first : scan text = some (value,rest)) :
    (f <$> scan) text = some (f value,rest) := by
  rw [map_eq_pure_bind,bind_of_some first]
  rfl

theorem map_of_none (first : scan text = none) : (f <$> scan) text = none := by
  rw [map_eq_pure_bind,bind_of_none first]

theorem orElse_of_none (first : scan text = none) : (scan <|> other) text = other text := by
  change (scan text <|> other text) = _
  rw [first]
  rfl

end Sequence

section Characters
variable {accepts : Char → Bool} {c : Char} {taken text rest : Text}

theorem rest_eq (text : Text) : Scan.rest text = some (text,text) := rfl

theorem set_eq (text left : Text) : (set left : Scan Unit) text = some ((),left) := rfl

theorem peek_cons (c : Char) (rest : Text) : peek (c :: rest) = some (some c,c :: rest) := rfl

theorem char_cons (c : Char) (rest : Text) : char (c :: rest) = some (c,rest) := rfl

theorem satisfying_cons (accepted : accepts c = true) (rest : Text) :
    satisfying accepts (c :: rest) = some (c,rest) := by
  rw [satisfying,bind_of_some (char_cons c rest),if_pos accepted]
  rfl

theorem satisfying_of_head (refused : text.head?.any accepts = false) :
    satisfying accepts text = none := by
  cases text with
  | nil => rfl
  | cons c rest =>
    have stop : ¬accepts c = true := by simpa using refused
    rw [satisfying,bind_of_some (char_cons c rest),if_neg stop]
    rfl

theorem exactly_cons (c : Char) (rest : Text) : exactly c (c :: rest) = some ((),rest) :=
  map_of_some (satisfying_cons (beq_self_eq_true c) rest)

theorem isPrefixOf_of_head {start : Text} (differs : text.head? ≠ some c) :
    (c :: start).isPrefixOf text = false := by
  cases text with
  | nil => rfl
  | cons d rest =>
    have other : c ≠ d := by rintro rfl; exact differs rfl
    rw [List.isPrefixOf,beq_false_of_ne other,Bool.false_and]

theorem startsWith_of_not {start : Text} (differs : start.isPrefixOf text = false) :
    startsWith start text = some (false,text) := by
  change some (start.isPrefixOf text,text) = _
  rw [differs]

theorem span_append (inside : ∀ c ∈ taken, accepts c = true)
    (stops : rest.head?.all (!accepts ·) = true) :
    span accepts (taken ++ rest) = some (taken,rest) := by
  change some ((taken ++ rest).takeWhile accepts,(taken ++ rest).dropWhile accepts) = _
  rw [takeWhile_append_of_stop inside stops,dropWhile_append_of_stop inside stops]

theorem spaces_of_head (stops : rest.head?.all (fun c => !(c == ' ' || c == '\t')) = true) :
    spaces rest = some ((),rest) := by
  have none : span (fun c => c == ' ' || c == '\t') ([] ++ rest) = some ([],rest) :=
    span_append nofun stops
  exact map_of_some none

end Characters

section Pieces
variable {ι α : Type} {scan : Scan (Option α)} {items : List ι} {write : ι → Text} {value : ι → α}
  {tail rest : Text}

theorem collectAtMost_pieces
    (piece : ∀ item ∈ items, ∀ rest, scan (write item ++ rest) = some (some (value item),rest))
    (stops : scan tail = some (none,rest)) {limit : Nat} (enough : items.length < limit) :
    collectAtMost scan limit (items.flatMap write ++ tail) = some (items.map value,rest) := by
  induction items generalizing limit with
  | nil =>
    obtain ⟨limit,rfl⟩ := Nat.exists_eq_add_one_of_ne_zero (Nat.ne_of_gt enough)
    exact bind_of_some stops
  | cons item items ih =>
    obtain ⟨limit,rfl⟩ := Nat.exists_eq_add_one_of_ne_zero (Nat.ne_of_gt (Nat.zero_lt_of_lt enough))
    have first := piece item List.mem_cons_self (items.flatMap write ++ tail)
    have others := ih (fun other member => piece other (List.mem_cons_of_mem _ member))
      (Nat.lt_of_succ_lt_succ enough)
    rw [List.flatMap_cons,List.append_assoc,collectAtMost,bind_of_some first]
    exact bind_of_some others

theorem length_le_length_flatMap (filled : ∀ item ∈ items, write item ≠ []) :
    items.length ≤ (items.flatMap write).length := by
  induction items with
  | nil => exact Nat.zero_le _
  | cons item items ih =>
    have first := List.length_pos_iff.mpr (filled item List.mem_cons_self)
    have others := ih fun other member => filled other (List.mem_cons_of_mem _ member)
    rw [List.flatMap_cons,List.length_append,List.length_cons]
    omega

/-- A repeated scan takes the pieces written for a list of items,
up to a text in front of which it stops. -/
theorem collect_pieces
    (piece : ∀ item ∈ items, ∀ rest, scan (write item ++ rest) = some (some (value item),rest))
    (filled : ∀ item ∈ items, write item ≠ []) (stops : scan tail = some (none,rest)) :
    collect scan (items.flatMap write ++ tail) = some (items.map value,rest) := by
  have enough := length_le_length_flatMap filled
  have longer : items.length < (items.flatMap write ++ tail).length + 1 := by
    rw [List.length_append]
    omega
  exact collectAtMost_pieces piece stops longer

theorem collect_of_stop (stops : scan tail = some (none,rest)) :
    collect scan tail = some ([],rest) := by
  rw [collect,bind_of_some rfl]
  exact bind_of_some stops

end Pieces

end LayoutRules.Toml.Scan
