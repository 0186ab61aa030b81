import SqlMapper.Proofs.Text.Utf8
import SqlMapper.Url.Read
/-!
# PercentDecode — the bytes that an encoded text stands for

Decoding undoes encoding, unless the text had percent signs of its own (`Url.percentDecode_percentEncode`).  What is
encoded once holds only characters that are kept (`Url.keeps_of_mem_percentEncode`), and a text is kept as it is exactly
if it holds no others.  A dot segment is one in the encoded text only if it was one before, since encoding never writes
a dot.
-/
namespace SqlMapper.Url

open String (utf8EncodeChar)

/-! ## Decoding -/

/-- The byte with the given hexadecimal digits. -/
def hexByte? (high low : Char) : Option UInt8 :=
  (hexValue? high).bind fun h => (hexValue? low).map fun l => UInt8.ofNat (h * 16 + l)

/-- The bytes of a text where a percent sign and two hexadecimal digits stand for one byte. -/
def percentDecode : List Char → List UInt8
  | [] => []
  | '%' :: high :: low :: rest =>
    (hexByte? high low).elim (0x25 :: percentDecode (high :: low :: rest)) (· :: percentDecode rest)
  | c :: rest => utf8EncodeChar c ++ percentDecode rest

theorem percentDecode_cons {c : Char} (h : c ≠ '%') (rest : List Char) :
    percentDecode (c :: rest) = utf8EncodeChar c ++ percentDecode rest :=
  percentDecode.eq_3 c rest fun _ _ _ hc _ => h hc

theorem hexValue?_hexDigit {n : Nat} (h : n < 16) : hexValue? (hexDigit n) = some n := by
  decide +revert

theorem hexByte?_hexDigit (b : UInt8) : hexByte? (hexDigit (b.toNat / 16)) (hexDigit (b.toNat % 16)) = some b := by
  have hb := b.toNat_lt
  have hbyte : b.toNat / 16 * 16 + b.toNat % 16 = b.toNat := by omega
  rw [hexByte?, hexValue?_hexDigit (by omega), hexValue?_hexDigit (by omega), Option.bind_some, Option.map_some,
    hbyte, UInt8.ofNat_toNat]

theorem percentDecode_encodedBytes (rest : List Char) :
    ∀ bytes : List UInt8, percentDecode (bytes.flatMap encodedByte ++ rest) = bytes ++ percentDecode rest
  | [] => rfl
  | b :: bytes => by
    rw [List.flatMap_cons, encodedByte, List.append_assoc]
    show percentDecode ('%' :: _ :: _ :: (bytes.flatMap encodedByte ++ rest)) = _
    rw [percentDecode, hexByte?_hexDigit, Option.elim_some, percentDecode_encodedBytes rest bytes, List.cons_append]

/-- A character that a part of a URL can hold as it is. -/
def Keeps (set : List Char) (c : Char) : Prop := 0x20 ≤ c.toNat ∧ c.toNat < 0x7F ∧ c ∉ set

instance (set : List Char) (c : Char) : Decidable (Keeps set c) := inferInstanceAs (Decidable (_ ∧ _ ∧ _))

variable {set cs : List Char}

theorem not_keeps_iff {c : Char} : ¬ Keeps set c ↔ c.toNat < 0x20 ∨ 0x7F ≤ c.toNat ∨ c ∈ set := by
  simp only [Keeps, Classical.not_and_iff_not_or_not, Nat.not_le, Nat.not_lt, Classical.not_not]

theorem percentEncode_cons (c : Char) (cs : List Char) :
    percentEncode set (c :: cs) =
      (if Keeps set c then [c] else (utf8EncodeChar c).flatMap encodedByte) ++ percentEncode set cs := by
  rw [percentEncode, List.flatMap_cons, percentEncode]
  by_cases h : Keeps set c
  · rw [if_pos h, if_neg fun hc => not_keeps_iff.2 hc h]
  · rw [if_neg h, if_pos (not_keeps_iff.1 h)]

theorem head?_percentEncode (c : Char) (cs : List Char) :
    (percentEncode set (c :: cs)).head? = some (if Keeps set c then c else '%') := by
  rw [percentEncode_cons]
  split
  · rfl
  · obtain ⟨b, bytes, hbytes⟩ := List.exists_cons_of_ne_nil (utf8EncodeChar_ne_nil c)
    rw [hbytes]
    rfl

/-- **Decoding gives the bytes back that were encoded.** -/
theorem percentDecode_percentEncode (h : '%' ∉ cs) : percentDecode (percentEncode set cs) = utf8Bytes cs := by
  induction cs with
  | nil => rfl
  | cons c cs ih =>
    rw [List.mem_cons, not_or] at h
    obtain ⟨hc, hcs⟩ := h
    rw [percentEncode_cons, utf8Bytes_cons]
    split
    · rw [List.singleton_append, percentDecode_cons (Ne.symm hc), ih hcs]
    · rw [percentDecode_encodedBytes, ih hcs]

/-! ## What is kept -/

theorem keeps_of_mem_encodedByte {b : UInt8} {c : Char} (h : c ∈ encodedByte b) : Keeps pathSet c := by
  have hdigit : ∀ n < 16, Keeps pathSet (hexDigit n) := by decide
  have hb := b.toNat_lt
  simp only [encodedByte, List.mem_cons, List.not_mem_nil, or_false] at h
  rcases h with rfl | rfl | rfl
  · decide
  · exact hdigit _ (by omega)
  · exact hdigit _ (by omega)

/-- An encoded path holds only characters that are kept. -/
theorem keeps_of_mem_percentEncode {c : Char} (h : c ∈ percentEncode pathSet cs) : Keeps pathSet c := by
  induction cs with
  | nil => cases h
  | cons d cs ih =>
    rw [percentEncode_cons, List.mem_append] at h
    rcases h with h | h
    · split at h
      · rename_i hd
        exact List.mem_singleton.1 h ▸ hd
      · obtain ⟨b, -, hb⟩ := List.mem_flatMap.1 h
        exact keeps_of_mem_encodedByte hb
    · exact ih h

/-- A path is written as it is exactly if all its characters are kept. -/
theorem percentEncode_eq_self_iff : percentEncode pathSet cs = cs ↔ ∀ c ∈ cs, Keeps pathSet c :=
  ⟨fun h _ hc => keeps_of_mem_percentEncode (h ▸ hc), percentEncode_eq_self⟩

/-! ## Dot segments -/

theorem isSingleDot_iff {s : List Char} :
    isSingleDot s = true ↔ s.map Char.toLower = ['.'] ∨ s.map Char.toLower = ['%', '2', 'e'] := by
  simp only [isSingleDot, List.mem_cons, List.not_mem_nil, or_false, decide_eq_true_eq, ← String.toList_inj,
    String.toList_ofList]
  rfl

/-- A double dot segment is made of two single ones. -/
theorem split_of_isDoubleDot {s : List Char} (h : isDoubleDot s = true) :
    ∃ a b, s = a ++ b ∧ isSingleDot a = true ∧ isSingleDot b = true := by
  simp only [isDoubleDot, List.mem_cons, List.not_mem_nil, or_false, decide_eq_true_eq, ← String.toList_inj,
    String.toList_ofList] at h
  have hsplit : ∀ a b : List Char, (a = ['.'] ∨ a = ['%', '2', 'e']) → (b = ['.'] ∨ b = ['%', '2', 'e']) →
      s.map Char.toLower = a ++ b → ∃ a b, s = a ++ b ∧ isSingleDot a = true ∧ isSingleDot b = true := by
    intro a b ha hb hs
    obtain ⟨front, back, rfl, rfl, rfl⟩ := List.map_eq_append_iff.1 hs
    exact ⟨front, back, rfl, isSingleDot_iff.2 ha, isSingleDot_iff.2 hb⟩
  rcases h with h | h | h | h
  · exact hsplit ['.'] ['.'] (.inl rfl) (.inl rfl) h
  · exact hsplit ['.'] ['%', '2', 'e'] (.inl rfl) (.inr rfl) h
  · exact hsplit ['%', '2', 'e'] ['.'] (.inr rfl) (.inl rfl) h
  · exact hsplit ['%', '2', 'e'] ['%', '2', 'e'] (.inr rfl) (.inr rfl) h

theorem percentDecode_dot {s : List Char} (h : isSingleDot s = true) (rest : List Char) :
    percentDecode (s ++ rest) = 0x2E :: percentDecode rest := by
  rcases isSingleDot_iff.1 h with h | h
  · obtain ⟨dot, rfl, hdot⟩ := List.map_eq_singleton_iff.1 h
    rw [eq_of_toLower hdot (by decide)]
    rfl
  · obtain ⟨sign, digits, rfl, hsign, hdigits⟩ := List.map_eq_cons_iff.1 h
    obtain ⟨high, lows, rfl, hhigh, hlows⟩ := List.map_eq_cons_iff.1 hdigits
    obtain ⟨low, rfl, hlow⟩ := List.map_eq_singleton_iff.1 hlows
    rw [eq_of_toLower hsign (by decide), eq_of_toLower hhigh (by decide)]
    have hcase : low = 'e' ∨ low = 'E' := eq_or_eq_of_toLower hlow rfl
    rcases hcase with rfl | rfl
    · rfl
    · rfl

/-- Encoding makes no dot segments. -/
theorem isSingleDot_percentEncode (h : '%' ∉ cs) (hdot : isSingleDot (percentEncode set cs) = true) : cs = ['.'] := by
  have hdecoded := percentDecode_dot hdot []
  rw [List.append_nil, percentDecode_percentEncode h] at hdecoded
  exact utf8Bytes_injective hdecoded

theorem isDoubleDot_percentEncode (h : '%' ∉ cs) (hdot : isDoubleDot (percentEncode set cs) = true) :
    cs = ['.', '.'] := by
  obtain ⟨a, b, hab, ha, hb⟩ := split_of_isDoubleDot hdot
  have hdecoded : percentDecode (percentEncode set cs) = utf8Bytes cs := percentDecode_percentEncode h
  rw [hab, ← List.append_nil b, percentDecode_dot ha, percentDecode_dot hb] at hdecoded
  exact utf8Bytes_injective hdecoded.symm

end SqlMapper.Url
