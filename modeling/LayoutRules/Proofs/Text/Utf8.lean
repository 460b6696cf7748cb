import LayoutRules.Text.Utf8

/-! Bytes decode to a text exactly if they are its encoding, so that a text has one UTF-8
form and bytes have none or one text. A byte below 0x80 stands for itself only. -/
namespace LayoutRules.Utf8

theorem encode_append (first second : Text) :
    encode (first ++ second) = encode first ++ encode second :=
  List.flatMap_append

theorem encode_cons (c : Char) (rest : Text) : encode (c :: rest) = encodeChar c ++ encode rest :=
  List.flatMap_cons

private theorem toNat_toUInt8 {n : Nat} (bound : n < 256) : n.toUInt8.toNat = n := by
  simp [Nat.toUInt8,Nat.mod_eq_of_lt bound]

private theorem tail_toUInt8 {n : Nat} (bound : n < 64) : tail? (0x80 + n).toUInt8 = some n := by
  rw [tail?,toNat_toUInt8 (by omega),if_pos (by omega)]
  simp

private theorem scalar_toNat {c : Char} {least n : Nat} (code : n = c.toNat) (bound : least ≤ n) :
    scalar? least n = some c := by
  subst code
  rw [scalar?,if_pos ⟨bound,c.valid⟩,Char.ofNat_toNat]

private theorem toNat_lt (c : Char) : c.toNat < 0x110000 := by
  have scalar := c.valid
  simp only [UInt32.isValidChar,Nat.isValidChar] at scalar
  change c.val.toNat < 0x110000
  omega

theorem decode_encodeChar_append (c : Char) (rest : Bytes) :
    decode (encodeChar c ++ rest) = (decode rest).map (c :: ·) := by
  have valid := toNat_lt c
  unfold encodeChar
  dsimp only
  by_cases one : c.toNat < 0x80
  · have byte := toNat_toUInt8 (show c.toNat < 256 by omega)
    rw [if_pos one,List.singleton_append,decode.eq_def]
    dsimp only
    rw [byte,if_pos one,Char.ofNat_toNat]
    cases decode rest <;> rfl
  by_cases two : c.toNat < 0x800
  · have lead := toNat_toUInt8 (show 0xC0 + c.toNat / 64 < 256 by omega)
    have last := tail_toUInt8 (show c.toNat % 64 < 64 by omega)
    have found : scalar? 0x80 ((0xC0 + c.toNat / 64 - 0xC0) * 64 + c.toNat % 64) = some c :=
      scalar_toNat (by omega) (by omega)
    rw [if_neg one,if_pos two]
    simp only [List.cons_append,List.nil_append]
    rw [decode,lead,if_neg (by omega),if_neg (by omega),if_pos (by omega)]
    simp only [last,found,Option.bind_eq_bind,Option.bind_some]
    cases decode rest <;> rfl
  by_cases three : c.toNat < 0x10000
  · have lead := toNat_toUInt8 (show 0xE0 + c.toNat / 4096 < 256 by omega)
    have middle := tail_toUInt8 (show c.toNat / 64 % 64 < 64 by omega)
    have last := tail_toUInt8 (show c.toNat % 64 < 64 by omega)
    have found : scalar? 0x800
        ((0xE0 + c.toNat / 4096 - 0xE0) * 4096 + c.toNat / 64 % 64 * 64 + c.toNat % 64) = some c :=
      scalar_toNat (by omega) (by omega)
    rw [if_neg one,if_neg two,if_pos three]
    simp only [List.cons_append,List.nil_append]
    rw [decode,lead,if_neg (by omega),if_neg (by omega),if_neg (by omega),if_pos (by omega)]
    simp only [middle,last,found,Option.bind_eq_bind,Option.bind_some]
    cases decode rest <;> rfl
  · have lead := toNat_toUInt8 (show 0xF0 + c.toNat / 262144 < 256 by omega)
    have second := tail_toUInt8 (show c.toNat / 4096 % 64 < 64 by omega)
    have third := tail_toUInt8 (show c.toNat / 64 % 64 < 64 by omega)
    have last := tail_toUInt8 (show c.toNat % 64 < 64 by omega)
    have found :
        scalar? 0x10000 ((0xF0 + c.toNat / 262144 - 0xF0) * 262144 + c.toNat / 4096 % 64 * 4096 +
        c.toNat / 64 % 64 * 64 + c.toNat % 64) = some c := scalar_toNat (by omega) (by omega)
    rw [if_neg one,if_neg two,if_neg three]
    simp only [List.cons_append,List.nil_append]
    rw [decode,lead,if_neg (by omega),if_neg (by omega),if_neg (by omega),if_neg (by omega)]
    -- With definitional proofs the kernel would multiply out the
    -- code point of an unknown character.
    simp -implicitDefEqProofs only [second,third,last,found,Option.bind_eq_bind,Option.bind_some]
    cases decode rest <;> rfl

theorem decode_encode (text : Text) : decode (encode text) = some text := by
  induction text with
  | nil => rfl
  | cons c rest ih => rw [encode_cons,decode_encodeChar_append,ih,Option.map_some]

private theorem toUInt8_of_toNat {byte : UInt8} {n : Nat} (same : byte.toNat = n) :
    n.toUInt8 = byte := by
  subst same
  exact UInt8.ofNat_toNat

private theorem tail_bounds {byte : UInt8} {n : Nat} (found : tail? byte = some n) :
    n < 64 ∧ byte.toNat = 0x80 + n := by
  unfold tail? at found
  split at found
  · have same := Option.some.inj found
    omega
  · cases found

private theorem toNat_ofNat {n : Nat} (valid : n.isValidChar) : (Char.ofNat n).toNat = n := by
  rw [Char.ofNat,dif_pos valid]
  rfl

private theorem scalar_bounds {least n : Nat} {c : Char} (found : scalar? least n = some c) :
    least ≤ n ∧ c.toNat = n := by
  unfold scalar? at found
  split at found
  · rename_i valid
    rw [← Option.some.inj found]
    exact ⟨valid.1,toNat_ofNat valid.2⟩
  · cases found

private theorem encodeChar_single {a : UInt8} (one : a.toNat < 0x80) :
    encodeChar (Char.ofNat a.toNat) = [a] := by
  have code : (Char.ofNat a.toNat).toNat = a.toNat := toNat_ofNat (Or.inl (by omega))
  rw [encodeChar,code]
  rw [if_pos one,toUInt8_of_toNat rfl]

section
variable {a b c d : UInt8} {x y z : Nat} {char : Char}

private theorem encodeChar_double (lead : 0xC0 ≤ a.toNat ∧ a.toNat < 0xE0)
    (second : tail? b = some x) (scalar : scalar? 0x80 ((a.toNat - 0xC0) * 64 + x) = some char) :
    encodeChar char = [a,b] := by
  obtain ⟨bound,byte⟩ := tail_bounds second
  obtain ⟨least,code⟩ := scalar_bounds scalar
  rw [encodeChar,if_neg (by omega),if_pos (by omega)]
  rw [toUInt8_of_toNat (show a.toNat = _ by omega),toUInt8_of_toNat (show b.toNat = _ by omega)]

private theorem encodeChar_triple (lead : 0xE0 ≤ a.toNat ∧ a.toNat < 0xF0)
    (second : tail? b = some x) (third : tail? c = some y)
    (scalar : scalar? 0x800 ((a.toNat - 0xE0) * 4096 + x * 64 + y) = some char) :
    encodeChar char = [a,b,c] := by
  obtain ⟨bound,byte⟩ := tail_bounds second
  obtain ⟨limit,last⟩ := tail_bounds third
  obtain ⟨least,code⟩ := scalar_bounds scalar
  rw [encodeChar,if_neg (by omega),if_neg (by omega),if_pos (by omega)]
  rw [toUInt8_of_toNat (show a.toNat = _ by omega),toUInt8_of_toNat (show b.toNat = _ by omega),
    toUInt8_of_toNat (show c.toNat = _ by omega)]

private theorem encodeChar_quadruple (lead : 0xF0 ≤ a.toNat) (second : tail? b = some x)
    (third : tail? c = some y) (fourth : tail? d = some z)
    (scalar : scalar? 0x10000 ((a.toNat - 0xF0) * 262144 + x * 4096 + y * 64 + z) = some char) :
    encodeChar char = [a,b,c,d] := by
  obtain ⟨bound,byte⟩ := tail_bounds second
  obtain ⟨limit,middle⟩ := tail_bounds third
  obtain ⟨top,last⟩ := tail_bounds fourth
  obtain ⟨least,code⟩ := scalar_bounds scalar
  rw [encodeChar,if_neg (by omega),if_neg (by omega),if_neg (by omega)]
  rw [toUInt8_of_toNat (show a.toNat = _ by omega),toUInt8_of_toNat (show b.toNat = _ by omega),
    toUInt8_of_toNat (show c.toNat = _ by omega),toUInt8_of_toNat (show d.toNat = _ by omega)]

end

theorem encode_of_decode {bytes : Bytes} {text : Text} (decoded : decode bytes = some text) :
    encode text = bytes := by
  fun_induction decode bytes generalizing text with
  | case1 =>
    cases decoded
    rfl
  | case2 a rest one ih =>
    obtain ⟨later,found,same⟩ := Option.bind_eq_some_iff.mp decoded
    cases same
    rw [encode_cons,ih found,encodeChar_single one]
    rfl
  | case4 a _ high two b rest ih =>
    obtain ⟨x,second,decoded⟩ := Option.bind_eq_some_iff.mp decoded
    obtain ⟨char,scalar,decoded⟩ := Option.bind_eq_some_iff.mp decoded
    obtain ⟨later,found,same⟩ := Option.bind_eq_some_iff.mp decoded
    cases same
    rw [encode_cons,ih found,encodeChar_double ⟨by omega,two⟩ second scalar]
    rfl
  | case6 a _ _ high three b c rest ih =>
    obtain ⟨x,second,decoded⟩ := Option.bind_eq_some_iff.mp decoded
    obtain ⟨y,third,decoded⟩ := Option.bind_eq_some_iff.mp decoded
    obtain ⟨char,scalar,decoded⟩ := Option.bind_eq_some_iff.mp decoded
    obtain ⟨later,found,same⟩ := Option.bind_eq_some_iff.mp decoded
    cases same
    rw [encode_cons,ih found,encodeChar_triple ⟨by omega,three⟩ second third scalar]
    rfl
  | case8 a _ _ _ high b c d rest ih =>
    obtain ⟨x,second,decoded⟩ := Option.bind_eq_some_iff.mp decoded
    obtain ⟨y,third,decoded⟩ := Option.bind_eq_some_iff.mp decoded
    obtain ⟨z,fourth,decoded⟩ := Option.bind_eq_some_iff.mp decoded
    obtain ⟨char,scalar,decoded⟩ := Option.bind_eq_some_iff.mp decoded
    obtain ⟨later,found,same⟩ := Option.bind_eq_some_iff.mp decoded
    cases same
    rw [encode_cons,ih found,encodeChar_quadruple (by omega) second third fourth scalar]
    rfl
  | case3 => cases decoded
  | case5 => cases decoded
  | case7 => cases decoded
  | case9 => cases decoded

theorem decode_eq_some_iff {bytes : Bytes} {text : Text} :
    decode bytes = some text ↔ encode text = bytes := by
  constructor
  · exact encode_of_decode
  · rintro rfl
    exact decode_encode text

theorem decode_eq_none_iff {bytes : Bytes} : decode bytes = none ↔ ∀ text, encode text ≠ bytes := by
  simp only [Option.eq_none_iff_forall_ne_some,ne_eq,decode_eq_some_iff]

theorem mapM_decode_eq_some_iff {pieces : List Bytes} {texts : List Text} :
    pieces.mapM decode = some texts ↔ pieces = texts.map encode := by
  induction pieces generalizing texts with
  | nil => cases texts <;> simp
  | cons piece pieces ih =>
    rw [List.mapM_cons]
    simp only [Option.bind_eq_bind,Option.bind_eq_some_iff,decode_eq_some_iff,ih]
    constructor
    · rintro ⟨text,rfl,later,rfl,⟨⟩⟩
      rfl
    · intro split
      cases texts with
      | nil => cases split
      | cons text texts =>
        obtain ⟨rfl,rfl⟩ := List.cons.inj split
        exact ⟨text,rfl,texts,rfl,rfl⟩

theorem mem_encodeChar_iff (c : Char) (byte : UInt8) (low : byte.toNat < 0x80) :
    byte ∈ encodeChar c ↔ c.toNat = byte.toNat := by
  have valid := toNat_lt c
  have high (n : Nat) (least : 0x80 ≤ n) (bound : n < 256) : byte ≠ n.toUInt8 := by
    rintro rfl
    rw [toNat_toUInt8 bound] at low
    omega
  unfold encodeChar
  dsimp only
  by_cases one : c.toNat < 0x80
  · rw [if_pos one,List.mem_singleton]
    constructor
    · rintro rfl
      exact (toNat_toUInt8 (by omega)).symm
    · intro same
      exact UInt8.toNat_inj.mp (by rw [toNat_toUInt8 (by omega),same])
  · have differ : ¬c.toNat = byte.toNat := by omega
    simp only [if_neg one,differ,iff_false]
    intro member
    split at member
    · simp only [List.mem_cons,List.not_mem_nil,or_false] at member
      rcases member with same | same <;> exact high _ (by omega) (by omega) same
    · split at member
      · simp only [List.mem_cons,List.not_mem_nil,or_false] at member
        rcases member with same | same | same <;> exact high _ (by omega) (by omega) same
      · simp only [List.mem_cons,List.not_mem_nil,or_false] at member
        rcases member with same | same | same | same <;> exact high _ (by omega) (by omega) same

theorem mem_encode_iff (text : Text) (c : Char) (low : c.toNat < 0x80) :
    c.toNat.toUInt8 ∈ encode text ↔ c ∈ text := by
  have byte := toNat_toUInt8 (show c.toNat < 256 by omega)
  simp only [encode,List.mem_flatMap]
  constructor
  · rintro ⟨d,inside,member⟩
    have same := (mem_encodeChar_iff d _ (by omega)).mp member
    rw [byte] at same
    rwa [← Char.toNat_inj.mp same]
  · intro inside
    exact ⟨c,inside,(mem_encodeChar_iff c _ (by omega)).mpr byte.symm⟩

theorem encodeChar_of_low {c : Char} (low : c.toNat < 0x80) : encodeChar c = [c.toNat.toUInt8] := by
  unfold encodeChar
  dsimp only
  rw [if_pos low]

/-- The first byte of a character cannot be a later byte of one. -/
theorem exists_lead (c : Char) : ∃ lead rest, encodeChar c = lead :: rest ∧ tail? lead = none := by
  have valid := toNat_lt c
  have leads (n : Nat) (bound : n < 256) (apart : n < 0x80 ∨ 0xC0 ≤ n) :
      tail? n.toUInt8 = none := by
    rw [tail?,toNat_toUInt8 bound,if_neg (by omega)]
  unfold encodeChar
  dsimp only
  split
  · exact ⟨_,_,rfl,leads _ (by omega) (by omega)⟩
  · split
    · exact ⟨_,_,rfl,leads _ (by omega) (by omega)⟩
    · split
      · exact ⟨_,_,rfl,leads _ (by omega) (by omega)⟩
      · exact ⟨_,_,rfl,leads _ (by omega) (by omega)⟩

theorem encode_eq_nil_iff {text : Text} : encode text = [] ↔ text = [] := by
  constructor
  · intro empty
    have decoded := decode_encode text
    rw [empty] at decoded
    exact (Option.some.inj decoded).symm
  · rintro rfl
    rfl

/-- Where a byte below 0x80 stands in the encoding of a text, its character stands in the text, and
the bytes in front of it and behind it encode what is in front of the character and behind it. -/
theorem encode_eq_append_iff {c : Char} (low : c.toNat < 0x80) {text : Text} {front back : Bytes} :
    encode text = front ++ c.toNat.toUInt8 :: back ↔
      ∃ one two, text = one ++ c :: two ∧ encode one = front ∧ encode two = back := by
  constructor
  · intro same
    induction text generalizing front with
    | nil => cases front <;> cases same
    | cons d text ih =>
      rw [encode_cons] at same
      rcases List.append_eq_append_iff.mp same with ⟨more,split,rest⟩ | ⟨more,split,rest⟩
      · obtain ⟨one,two,rfl,rfl,rfl⟩ := ih rest
        exact ⟨d :: one,two,rfl,by rw [encode_cons,split],rfl⟩
      · cases more with
        | nil =>
          have later : encode text = [] ++ c.toNat.toUInt8 :: back := rest.symm
          obtain ⟨one,two,rfl,empty,rfl⟩ := ih later
          rw [encode_eq_nil_iff] at empty
          subst empty
          exact ⟨[d],two,rfl,by simpa [encode] using split,rfl⟩
        | cons byte more =>
          -- No other character has the byte in its encoding.
          obtain ⟨rfl,behind⟩ := List.cons.inj rest
          have byte := toNat_toUInt8 (show c.toNat < 256 by omega)
          have member : c.toNat.toUInt8 ∈ encodeChar d := by simp [split]
          obtain rfl : d = c :=
            Char.toNat_inj.mp (((mem_encodeChar_iff d _ (by omega)).mp member).trans byte)
          rw [encodeChar_of_low low,List.singleton_eq_append_iff] at split
          rcases split with ⟨rfl,alone⟩ | ⟨_,none⟩
          · rw [(List.cons.inj alone).2] at behind
            exact ⟨[],text,rfl,rfl,behind.symm⟩
          · cases none
  · rintro ⟨one,two,rfl,rfl,rfl⟩
    rw [encode_append,encode_cons,encodeChar_of_low low]
    rfl

/-- A byte below 0x80 behind other bytes is one more character
behind their text, if they have one. -/
theorem decode_append_low {c : Char} (low : c.toNat < 0x80) (bytes : Bytes) :
    decode (bytes ++ [c.toNat.toUInt8]) = (decode bytes).map (· ++ [c]) := by
  apply Option.ext
  intro text
  rw [decode_eq_some_iff,encode_eq_append_iff low]
  simp only [Option.map_eq_some_iff,decode_eq_some_iff,encode_eq_nil_iff]
  constructor
  · rintro ⟨one,_,rfl,encoded,rfl⟩
    exact ⟨one,encoded,rfl⟩
  · rintro ⟨one,encoded,rfl⟩
    exact ⟨one,[],rfl,encoded,rfl⟩

end LayoutRules.Utf8
