import Marginalia.Text.Utf8

/-!
# Bytes that are UTF-8

Bytes are read as a text exactly if they are the bytes of its string (`Utf8.decode_eq_some_iff`);
all others are refused (`Utf8.decode_eq_none_iff`).  The reader goes byte by byte; here it is taken
character by character: the bytes of a character lead to the character (`Utf8.decodeFrom_bytesOf`),
and bytes that lead to a text begin with those of a character (`Utf8.exists_bytesOf`).
-/

namespace Marginalia.Utf8

variable {byte : UInt8} {rest bytes : List UInt8} {reversed text : Text}
  {part : Partial} {n v : Nat}

/-! ## Single bytes -/

/-- What the first byte of a character of two bytes says. -/
def leadOfTwo (n : Nat) : Partial := { missing := 1, bits := n - 0xC0 }

/-- What the first byte of a character of three bytes says; no shorter form and no surrogate
follows. -/
def leadOfThree (n : Nat) : Partial :=
  { missing := 2, bits := n - 0xE0, low := if n = 0xE0 then 0xA0 else 0x80
    high := if n = 0xED then 0x9F else 0xBF }

/-- What the first byte of a character of four bytes says; no shorter form follows, and nothing
beyond the last code point. -/
def leadOfFour (n : Nat) : Partial :=
  { missing := 3, bits := n - 0xF0, low := if n = 0xF0 then 0x90 else 0x80
    high := if n = 0xF4 then 0x8F else 0xBF }

/-- The first byte of a character of two bytes. -/
theorem lead?_two (h : 0xC2 ≤ n) (h' : n < 0xE0) : lead? n = some (leadOfTwo n) := by
  rw [lead?, if_neg (by omega), if_pos h', leadOfTwo]

/-- The first byte of a character of three bytes; for two of them, the second byte has bounds of its
own. -/
theorem lead?_three (h : 0xE0 ≤ n) (h' : n < 0xF0) : lead? n = some (leadOfThree n) := by
  rw [lead?, if_neg (by omega), if_neg (by omega)]
  by_cases hfirst : n = 0xE0
  · subst hfirst
    rfl
  by_cases hlast : n = 0xED
  · subst hlast
    rfl
  rw [if_neg hfirst, if_neg hlast, if_pos h', leadOfThree, if_neg hfirst, if_neg hlast]

/-- The first byte of a character of four bytes; for two of them, the second byte has bounds of its
own. -/
theorem lead?_four (h : 0xF0 ≤ n) (h' : n ≤ 0xF4) : lead? n = some (leadOfFour n) := by
  rw [lead?, if_neg (by omega), if_neg (by omega), if_neg (by omega), if_neg (by omega),
    if_neg (by omega)]
  by_cases hfirst : n = 0xF0
  · subst hfirst
    rfl
  by_cases hlast : n = 0xF4
  · subst hlast
    rfl
  rw [if_neg hfirst, if_pos (by omega), leadOfFour, if_neg hfirst, if_neg hlast]

/-- No other byte begins a character of several bytes. -/
theorem lead?_none (h : n < 0xC2 ∨ 0xF4 < n) : lead? n = none := by
  unfold lead?
  rcases h with h | h
  · rw [if_pos h]
  · rw [if_neg (by omega), if_neg (by omega), if_neg (by omega), if_neg (by omega),
      if_neg (by omega), if_neg (by omega), if_neg (by omega), if_neg (by omega)]

/-- The last byte of a character completes it. -/
theorem decodeFrom_last (hmissing : part.missing = 1) (hlow : part.low ≤ byte.toNat)
    (hhigh : byte.toNat ≤ part.high) (hv : part.bits * 64 + (byte.toNat - 0x80) = v) :
    decodeFrom reversed (some part) (byte :: rest) =
      decodeFrom (.char (Char.ofNat v) :: reversed) none rest := by
  rw [decodeFrom, if_neg (by simp; omega)]
  simp only [hmissing, hv]

/-- A byte before the last one adds its bits. -/
theorem decodeFrom_more (hmissing : part.missing = n + 2) (hlow : part.low ≤ byte.toNat)
    (hhigh : byte.toNat ≤ part.high) (hv : part.bits * 64 + (byte.toNat - 0x80) = v) :
    decodeFrom reversed (some part) (byte :: rest) =
      decodeFrom reversed (some { missing := n + 1, bits := v }) rest := by
  rw [decodeFrom, if_neg (by simp; omega)]
  simp only [hmissing, hv]

/-- After a first byte, a byte within the bounds has to follow. -/
theorem exists_next (h : decodeFrom reversed (some part) bytes = some text) :
    ∃ byte rest, bytes = byte :: rest ∧ part.low ≤ byte.toNat ∧ byte.toNat ≤ part.high := by
  cases bytes with
  | nil => cases h
  | cons byte rest =>
      refine ⟨byte, rest, rfl, ?_⟩
      rw [decodeFrom] at h
      split at h
      · cases h
      · rename_i hbounds
        simp only [Bool.or_eq_true, decide_eq_true_eq] at hbounds
        omega

/-- A byte that stands by itself is a character. -/
theorem decodeFrom_ascii (h : byte.toNat < 0x80) :
    decodeFrom reversed none (byte :: rest) =
      decodeFrom (.char (Char.ofNat byte.toNat) :: reversed) none rest := by
  rw [decodeFrom, if_pos h]

/-- A first byte is kept until the others are there. -/
theorem decodeFrom_lead (h : lead? byte.toNat = some part) (hlong : 0x80 ≤ byte.toNat) :
    decodeFrom reversed none (byte :: rest) = decodeFrom reversed (some part) rest := by
  rw [decodeFrom, if_neg (by omega)]
  simp only [h]

/-! ## Single characters -/

theorem toNat_ofNat (h : n < 0x100) : (UInt8.ofNat n).toNat = n := by
  rw [UInt8.toNat_ofNat', Nat.mod_eq_of_lt h]

/-- The bytes of the character with a number. -/
def bytesOf (v : Nat) : List UInt8 :=
  if v ≤ 0x7F then [.ofNat v]
  else if v ≤ 0x7FF then [.ofNat (v / 64 % 32 + 0xC0), .ofNat (v % 64 + 0x80)]
  else if v ≤ 0xFFFF then
    [.ofNat (v / 4096 % 16 + 0xE0), .ofNat (v / 64 % 64 + 0x80), .ofNat (v % 64 + 0x80)]
  else
    [.ofNat (v / 262144 % 8 + 0xF0), .ofNat (v / 4096 % 64 + 0x80), .ofNat (v / 64 % 64 + 0x80),
      .ofNat (v % 64 + 0x80)]

/-- The bytes of a character are those that the library writes for it. -/
theorem bytesOf_toNat (c : Char) : bytesOf c.toNat = String.utf8EncodeChar c := rfl

/-- The bytes of a character lead to it. -/
theorem decodeFrom_bytesOf (reversed : Text) (hv : v.isValidChar) (rest : List UInt8) :
    decodeFrom reversed none (bytesOf v ++ rest) =
      decodeFrom (.char (Char.ofNat v) :: reversed) none rest := by
  have hlow : (UInt8.ofNat (v % 64 + 0x80)).toNat = v % 64 + 0x80 := toNat_ofNat (by omega)
  have hmiddle : (UInt8.ofNat (v / 64 % 64 + 0x80)).toNat = v / 64 % 64 + 0x80 :=
    toNat_ofNat (by omega)
  have hhigh : (UInt8.ofNat (v / 4096 % 64 + 0x80)).toNat = v / 4096 % 64 + 0x80 :=
    toNat_ofNat (by omega)
  unfold bytesOf
  by_cases hone : v ≤ 0x7F
  · have hfirst : (UInt8.ofNat v).toNat = v := toNat_ofNat (by omega)
    rw [if_pos hone, List.cons_append, decodeFrom_ascii (by omega), hfirst, List.nil_append]
  by_cases htwo : v ≤ 0x7FF
  · have hfirst : (UInt8.ofNat (v / 64 % 32 + 0xC0)).toNat = v / 64 % 32 + 0xC0 :=
      toNat_ofNat (by omega)
    rw [if_neg hone, if_pos htwo, List.cons_append, List.cons_append, List.nil_append,
      decodeFrom_lead (lead?_two (by omega) (by omega)) (by omega)]
    refine decodeFrom_last rfl ?_ ?_ ?_ <;> simp only [leadOfTwo, hfirst, hlow] <;> omega
  by_cases hthree : v ≤ 0xFFFF
  · have hfirst : (UInt8.ofNat (v / 4096 % 16 + 0xE0)).toNat = v / 4096 % 16 + 0xE0 :=
      toNat_ofNat (by omega)
    rw [if_neg hone, if_neg htwo, if_pos hthree, List.cons_append, List.cons_append,
      List.cons_append, List.nil_append,
      decodeFrom_lead (lead?_three (by omega) (by omega)) (by omega),
      decodeFrom_more (v := v / 64) rfl]
    · refine decodeFrom_last rfl ?_ ?_ ?_ <;> simp only [hlow] <;> omega
    all_goals
      simp only [leadOfThree, hfirst, hmiddle]
      try split
      all_goals omega
  · have hfirst : (UInt8.ofNat (v / 262144 % 8 + 0xF0)).toNat = v / 262144 % 8 + 0xF0 :=
      toNat_ofNat (by omega)
    rw [if_neg hone, if_neg htwo, if_neg hthree, List.cons_append, List.cons_append,
      List.cons_append, List.cons_append, List.nil_append,
      decodeFrom_lead (lead?_four (by omega) (by omega)) (by omega),
      decodeFrom_more (v := v / 4096) rfl, decodeFrom_more (v := v / 64) rfl]
    · refine decodeFrom_last rfl ?_ ?_ ?_ <;> simp only [hlow] <;> omega
    · simp only [hmiddle]
      omega
    · simp only [hmiddle]
      omega
    · simp only [hmiddle]
      omega
    all_goals
      simp only [leadOfFour, hfirst, hhigh]
      try split
      all_goals omega

theorem ofNat_eq (h : n = byte.toNat) : UInt8.ofNat n = byte := by
  rw [h, UInt8.ofNat_toNat]

/-- Bytes begin with those of a character, from where on they lead to a text. -/
def Begins (reversed : Text) (bytes : List UInt8) (text : Text) : Prop :=
  ∃ v more, v.isValidChar ∧ bytes = bytesOf v ++ more ∧
    decodeFrom (.char (Char.ofNat v) :: reversed) none more = some text

/-- A byte that stands by itself. -/
theorem begins_of_one (hone : byte.toNat < 0x80)
    (h : decodeFrom reversed none (byte :: rest) = some text) :
    Begins reversed (byte :: rest) text := by
  refine ⟨byte.toNat, rest, .inl (by omega), ?_, by rwa [decodeFrom_ascii hone] at h⟩
  rw [bytesOf, if_pos (by omega), ofNat_eq rfl]
  rfl

/-- Two bytes, the first of which is not one of those that would spell a shorter character. -/
theorem begins_of_two (hlong : 0xC2 ≤ byte.toNat) (htwo : byte.toNat < 0xE0)
    (h : decodeFrom reversed none (byte :: rest) = some text) :
    Begins reversed (byte :: rest) text := by
  rw [decodeFrom_lead (lead?_two hlong htwo) (by omega)] at h
  obtain ⟨last, more, rfl, hlow, hhigh⟩ := exists_next h
  rw [decodeFrom_last rfl hlow hhigh rfl] at h
  simp only [leadOfTwo] at h hlow hhigh
  refine ⟨_, more, .inl (by omega), ?_, h⟩
  generalize hv : (byte.toNat - 0xC0) * 64 + (last.toNat - 0x80) = v
  have hbyte : UInt8.ofNat (v / 64 % 32 + 0xC0) = byte := ofNat_eq (by omega)
  have hlast : UInt8.ofNat (v % 64 + 0x80) = last := ofNat_eq (by omega)
  rw [bytesOf, if_neg (by omega), if_pos (by omega), hbyte, hlast]
  rfl

/-- Three bytes, which spell no shorter character and no surrogate. -/
theorem begins_of_three (hlong : 0xE0 ≤ byte.toNat) (hthree : byte.toNat < 0xF0)
    (h : decodeFrom reversed none (byte :: rest) = some text) :
    Begins reversed (byte :: rest) text := by
  rw [decodeFrom_lead (lead?_three hlong hthree) (by omega)] at h
  obtain ⟨middle, more, rfl, hlow, hhigh⟩ := exists_next h
  rw [decodeFrom_more rfl hlow hhigh rfl] at h
  obtain ⟨last, more, rfl, hlow', hhigh'⟩ := exists_next h
  rw [decodeFrom_last rfl hlow' hhigh' rfl] at h
  simp only [leadOfThree] at h hlow hhigh hlow' hhigh'
  refine ⟨_, more, ?_, ?_, h⟩
  -- the bounds on the second byte leave the surrogates out
  · split at hlow <;> split at hhigh <;> simp only [Nat.isValidChar] <;> omega
  generalize hv : ((byte.toNat - 0xE0) * 64 + (middle.toNat - 0x80)) * 64 + (last.toNat - 0x80) = v
  have hleast : 0x80 ≤ middle.toNat ∧ middle.toNat ≤ 0xBF := by
    split at hlow <;> split at hhigh <;> omega
  have hleastValue : 0x800 ≤ v := by split at hlow <;> omega
  have hbyte : UInt8.ofNat (v / 4096 % 16 + 0xE0) = byte := ofNat_eq (by omega)
  have hmiddle : UInt8.ofNat (v / 64 % 64 + 0x80) = middle := ofNat_eq (by omega)
  have hlast : UInt8.ofNat (v % 64 + 0x80) = last := ofNat_eq (by omega)
  rw [bytesOf, if_neg (by omega), if_neg (by omega), if_pos (by omega), hbyte, hmiddle, hlast]
  rfl

/-- Four bytes, which spell no shorter character and nothing beyond the last one. -/
theorem begins_of_four (hlong : 0xF0 ≤ byte.toNat) (hfour : byte.toNat ≤ 0xF4)
    (h : decodeFrom reversed none (byte :: rest) = some text) :
    Begins reversed (byte :: rest) text := by
  rw [decodeFrom_lead (lead?_four hlong hfour) (by omega)] at h
  obtain ⟨high, more, rfl, hlow, hhigh⟩ := exists_next h
  rw [decodeFrom_more rfl hlow hhigh rfl] at h
  obtain ⟨middle, more, rfl, hlow', hhigh'⟩ := exists_next h
  rw [decodeFrom_more rfl hlow' hhigh' rfl] at h
  obtain ⟨last, more, rfl, hlow'', hhigh''⟩ := exists_next h
  rw [decodeFrom_last rfl hlow'' hhigh'' rfl] at h
  simp only [leadOfFour] at h hlow hhigh hlow' hhigh' hlow'' hhigh''
  refine ⟨_, more, ?_, ?_, h⟩
  -- the bounds on the second byte end with the last code point
  · split at hlow <;> split at hhigh <;> simp only [Nat.isValidChar] <;> omega
  generalize hv : (((byte.toNat - 0xF0) * 64 + (high.toNat - 0x80)) * 64 + (middle.toNat - 0x80)) *
    64 + (last.toNat - 0x80) = v
  have hleast : 0x80 ≤ high.toNat ∧ high.toNat ≤ 0xBF := by
    split at hlow <;> split at hhigh <;> omega
  have hleastValue : 0x10000 ≤ v := by split at hlow <;> omega
  have hbyte : UInt8.ofNat (v / 262144 % 8 + 0xF0) = byte := ofNat_eq (by omega)
  have hhigh : UInt8.ofNat (v / 4096 % 64 + 0x80) = high := ofNat_eq (by omega)
  have hmiddle : UInt8.ofNat (v / 64 % 64 + 0x80) = middle := ofNat_eq (by omega)
  have hlast : UInt8.ofNat (v % 64 + 0x80) = last := ofNat_eq (by omega)
  rw [bytesOf, if_neg (by omega), if_neg (by omega), if_neg (by omega), hbyte, hhigh, hmiddle,
    hlast]
  rfl

/-- Bytes that lead to a text begin with those of a character: the first byte says how many they
are. -/
theorem exists_bytesOf (h : decodeFrom reversed none (byte :: rest) = some text) :
    Begins reversed (byte :: rest) text := by
  by_cases hone : byte.toNat < 0x80
  · exact begins_of_one hone h
  by_cases hnone : byte.toNat < 0xC2 ∨ 0xF4 < byte.toNat
  · rw [decodeFrom, if_neg hone, lead?_none hnone] at h
    cases h
  by_cases htwo : byte.toNat < 0xE0
  · exact begins_of_two (by omega) htwo h
  by_cases hthree : byte.toNat < 0xF0
  · exact begins_of_three (by omega) hthree h
  · exact begins_of_four (by omega) (by omega) h

/-! ## Texts -/

/-- The bytes of characters lead to them. -/
theorem decodeFrom_flatMap (reversed : Text) (chars : List Char) :
    decodeFrom reversed none (chars.flatMap String.utf8EncodeChar) =
      some (reversed.reverse ++ chars.map .char) := by
  induction chars generalizing reversed with
  | nil => simp [decodeFrom]
  | cons c chars ih =>
      have hvalid : c.toNat.isValidChar := c.valid
      rw [List.flatMap_cons, ← bytesOf_toNat, decodeFrom_bytesOf reversed hvalid,
        Char.ofNat_toNat, ih, List.reverse_cons, List.append_assoc]
      rfl

/-- No character is without bytes. -/
theorem bytesOf_ne_nil (v : Nat) : bytesOf v ≠ [] := by
  unfold bytesOf
  split
  · simp
  split
  · simp
  split <;> simp

/-- Bytes that lead to a text are those of the characters that it has more. -/
theorem exists_flatMap (h : decodeFrom reversed none bytes = some text) :
    ∃ chars : List Char, bytes = chars.flatMap String.utf8EncodeChar ∧
      text = reversed.reverse ++ chars.map .char := by
  induction hn : bytes.length using Nat.strongRecOn generalizing bytes reversed with
  | ind n ih =>
  cases bytes with
  | nil =>
      simp only [decodeFrom, Option.some.injEq] at h
      exact ⟨[], rfl, by simp [h]⟩
  | cons byte rest =>
      obtain ⟨v, more, hvalid, hbytes, hmore⟩ := exists_bytesOf h
      have hshorter : more.length < n := by
        have := List.length_pos_iff.2 (bytesOf_ne_nil v)
        rw [← hn, hbytes, List.length_append]
        omega
      obtain ⟨chars, rfl, rfl⟩ := ih _ hshorter hmore rfl
      have hv : (Char.ofNat v).toNat = v := by
        rw [Char.ofNat, dif_pos hvalid]
        rfl
      refine ⟨Char.ofNat v :: chars, ?_, by simp⟩
      rw [hbytes, List.flatMap_cons, ← bytesOf_toNat, hv]

/-- **What is read.**  Bytes are read as a text exactly if they are the bytes of its string. -/
theorem decode_eq_some_iff :
    decode bytes = some text ↔ ∃ s : String, s.toUTF8 = bytes.toByteArray ∧ text = .ofString s := by
  constructor
  · intro h
    obtain ⟨chars, hbytes, htext⟩ := exists_flatMap h
    refine ⟨.ofList chars, ?_, by simpa [Text.ofString] using htext⟩
    rw [hbytes]
    rfl
  · rintro ⟨s, hbytes, rfl⟩
    have hchars : s.toList.flatMap String.utf8EncodeChar = bytes :=
      List.toByteArray_inj.1 (String.utf8Encode_toList.trans hbytes)
    rw [decode, ← hchars, decodeFrom_flatMap]
    rfl

/-- **What is refused.**  Bytes are refused exactly if no string has them. -/
theorem decode_eq_none_iff : decode bytes = none ↔ ¬ bytes.toByteArray.IsValidUTF8 := by
  constructor
  · rintro h ⟨chars, hchars⟩
    have hdecode : decode bytes = some (.ofString (.ofList chars)) :=
      decode_eq_some_iff.2 ⟨.ofList chars, hchars.symm, rfl⟩
    rw [h] at hdecode
    cases hdecode
  · intro h
    refine Option.eq_none_iff_forall_ne_some.2 fun text htext => h ?_
    obtain ⟨s, hbytes, -⟩ := decode_eq_some_iff.1 htext
    exact hbytes ▸ s.isValidUTF8

end Marginalia.Utf8
