import LayoutRules.Proofs.Toml.Steps

/-! Texts between quotes. What may not stand there as it is, stands there by the four digits of its
code. Every text is read back from its quotes, if no further quote follows. -/
namespace LayoutRules.Toml

def hexDigit (n : Nat) : Char := if n < 10 then Char.ofNat (48 + n) else Char.ofNat (87 + n)

def standsForItself (c : Char) : Bool := Scan.isPlain c && c != '"' && c != '\\'

/-- A character between quotes: as it is, or by the digits of its code. -/
def spelled (c : Char) : Text :=
  if standsForItself c then [c]
  else ['\\','u','0','0',hexDigit (c.toNat / 16),hexDigit (c.toNat % 16)]

def quoted (text : Text) : Text := '"' :: text.flatMap spelled ++ ['"']

namespace Scan
variable {text rest : Text}

theorem value_hexDigits :
    ∀ n < 128, Numeral.value? 16 ['0','0',hexDigit (n / 16),hexDigit (n % 16)] = some n := by decide

theorem toNat_lt_of_not_itself {c : Char} (other : standsForItself c = false) : c.toNat < 128 := by
  by_contra large
  have plain : isPlain c = true := by
    simp only [isPlain,Bool.or_eq_true,Bool.and_eq_true,decide_eq_true_eq]
    omega
  have quote : c ≠ '"' := by rintro rfl; exact large (by decide)
  have backslash : c ≠ '\\' := by rintro rfl; exact large (by decide)
  simp [standsForItself,plain,quote,backslash] at other

theorem escaped_spelled {c : Char} (other : standsForItself c = false) (rest : Text) :
    escaped ('u' :: '0' :: '0' :: hexDigit (c.toNat / 16) :: hexDigit (c.toNat % 16) :: rest) =
      some (c,rest) := by
  have digits := value_hexDigits c.toNat (toNat_lt_of_not_itself other)
  have valid : c.toNat.isValidChar := c.valid
  have taken : ('0' :: '0' :: hexDigit (c.toNat / 16) :: hexDigit (c.toNat % 16) :: rest).take 4 =
      ['0','0',hexDigit (c.toNat / 16),hexDigit (c.toNat % 16)] := rfl
  change codePoint 4 _ = _
  rw [codePoint,bind_of_some (rest_eq _),bind_of_some (rest_eq _),bind_of_some (set_eq _ _),taken,
    if_pos (by simp),digits]
  dsimp only
  rw [if_pos valid,Char.ofNat_toNat]
  rfl

theorem spelled_ne_nil (c : Char) : spelled c ≠ [] := by
  unfold spelled
  split <;> exact List.cons_ne_nil _ _

theorem head_spelled (c : Char) (rest : Text) : (spelled c ++ rest).head? ≠ some '"' := by
  unfold spelled
  split
  · rename_i itself
    rintro same
    cases same
    cases itself
  · nofun

theorem basicString_quoted (text rest : Text) :
    basicString (quoted text ++ rest) = some (text,rest) := by
  have body : quoted text ++ rest = '"' :: (text.flatMap spelled ++ '"' :: rest) := by simp [quoted]
  rw [body,basicString,bind_of_some (exactly_cons _ _)]
  refine (collect_pieces ?_ (fun c _ => spelled_ne_nil c) rfl).trans (by rw [List.map_id])
  intro c _ rest
  unfold spelled
  split
  · rename_i itself
    obtain ⟨⟨plain,quote⟩,backslash⟩ : (isPlain c = true ∧ c ≠ '"') ∧ c ≠ '\\' := by
      simpa [standsForItself] using itself
    rw [List.singleton_append,bind_of_some (char_cons c rest)]
    dsimp only [id]
    split
    · contradiction
    · contradiction
    · rw [if_pos plain]
      rfl
  · rename_i other
    exact map_of_some (escaped_spelled (eq_false_of_ne_true other) rest)

theorem string_quoted (text : Text) (ends : rest.head? ≠ some '"') :
    string (quoted text ++ rest) = some (text,rest) := by
  have single : ['"','"','"'].isPrefixOf (quoted text ++ rest) = false := by
    cases text with
    | nil =>
      change ['"','"','"'].isPrefixOf ('"' :: '"' :: rest) = false
      rw [List.isPrefixOf_cons_cons_self,List.isPrefixOf_cons_cons_self,isPrefixOf_of_head ends]
    | cons c text =>
      have differs : (spelled c ++ (text.flatMap spelled ++ '"' :: rest)).head? ≠ some '"' :=
        head_spelled c _
      have same : quoted (c :: text) ++ rest =
          '"' :: (spelled c ++ (text.flatMap spelled ++ '"' :: rest)) := by
        simp [quoted]
      rw [same,List.isPrefixOf_cons_cons_self,isPrefixOf_of_head differs]
  rw [string,bind_of_some (startsWith_of_not single)]
  exact basicString_quoted text rest

theorem value_string (depth : Nat) (text : Text) (ends : rest.head? ≠ some '"') :
    value depth (quoted text ++ rest) = some (.string text,rest) := by
  have scanned := map_of_some (f := Value.string) (string_quoted text ends)
  cases depth with
  | zero => exact scanned
  | succ depth => exact scanned

end Scan
end LayoutRules.Toml
