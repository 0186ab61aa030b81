/-!
# Utf8 — the bytes of a text, and ASCII letter case

A text is stored as the bytes of its characters.  Different texts have different bytes (`utf8Bytes_injective`), an
ASCII character is one byte with its number, and no byte of another character is the number of an ASCII one
(`le_of_mem_utf8EncodeChar`).  So an ASCII text is found among the bytes where it is found among the characters
(`utf8Bytes_isPrefix_iff`), in any letter case (`utf8Bytes_map_toLower`).
-/
namespace SqlMapper

/-- A condition on the characters of a text is decided by reading the text.  There are finitely many characters, and
going through all of them would decide it as well. -/
instance decidableForallChar (p : Char → Prop) [DecidablePred p] (cs : List Char) : Decidable (∀ c ∈ cs, p c) :=
  List.decidableBAll p cs

def utf8Bytes (cs : List Char) : List UInt8 := cs.flatMap String.utf8EncodeChar

/-- These are the bytes that a string is stored as. -/
theorem toList_data_toByteArray (s : String) : s.toByteArray.data.toList = utf8Bytes s.toList := by
  have hbytes : s.toByteArray = (utf8Bytes s.toList).toByteArray := by
    conv => lhs; rw [← String.ofList_toList (s := s)]
    exact String.toByteArray_ofList
  rw [hbytes, List.toList_data_toByteArray]

theorem length_utf8Bytes (s : String) : (utf8Bytes s.toList).length = s.utf8ByteSize := by
  rw [← toList_data_toByteArray, ← String.size_toByteArray]
  rfl

@[simp] theorem utf8Bytes_cons (c : Char) (cs : List Char) :
    utf8Bytes (c :: cs) = String.utf8EncodeChar c ++ utf8Bytes cs := List.flatMap_cons

theorem utf8Bytes_injective {cs ds : List Char} (h : utf8Bytes cs = utf8Bytes ds) : cs = ds := by
  have hbytes : (String.ofList cs).toByteArray = (String.ofList ds).toByteArray :=
    congrArg List.toByteArray h
  exact String.ofList_inj.1 (String.toByteArray_inj.1 hbytes)

theorem toNat_byte {n : Nat} (h : n < 256) : (UInt8.ofNat n).toNat = n := by
  rw [UInt8.toNat_ofNat', Nat.mod_eq_of_lt h]

theorem utf8EncodeChar_of_ascii {c : Char} (h : c.toNat < 128) : String.utf8EncodeChar c = [UInt8.ofNat c.toNat] :=
  if_pos (Nat.le_of_lt_succ h)

theorem le_of_mem_utf8EncodeChar {c : Char} (h : 128 ≤ c.toNat) : ∀ b ∈ String.utf8EncodeChar c, 128 ≤ b.toNat := by
  have hc : ¬ c.val.toNat ≤ 127 := Nat.not_le.2 h
  -- a leading byte is at least 192 and a following one at least 128, and nothing wraps around
  have hbyte : ∀ {n : Nat}, 128 ≤ n → n < 256 → 128 ≤ (UInt8.ofNat n).toNat := by
    intro n hn hlt
    rw [toNat_byte hlt]
    exact hn
  intro b hb
  simp only [String.utf8EncodeChar, if_neg hc] at hb
  split at hb
  · simp only [List.mem_cons, List.not_mem_nil, or_false] at hb
    rcases hb with rfl | rfl <;> exact hbyte (by omega) (by omega)
  · split at hb
    · simp only [List.mem_cons, List.not_mem_nil, or_false] at hb
      rcases hb with rfl | rfl | rfl <;> exact hbyte (by omega) (by omega)
    · simp only [List.mem_cons, List.not_mem_nil, or_false] at hb
      rcases hb with rfl | rfl | rfl | rfl <;> exact hbyte (by omega) (by omega)

theorem utf8EncodeChar_ne_nil (c : Char) : String.utf8EncodeChar c ≠ [] := by
  have h := c.utf8Size_pos
  rw [← String.length_utf8EncodeChar] at h
  exact List.ne_nil_of_length_pos h

/-- The bytes of an ASCII text are at the front only if its characters are. -/
theorem utf8Bytes_isPrefix_iff {cs : List Char} (h : ∀ c ∈ cs, c.toNat < 128) :
    ∀ {ds : List Char}, utf8Bytes cs <+: utf8Bytes ds ↔ cs <+: ds := by
  induction cs with
  | nil => exact fun {ds} => ⟨fun _ => List.nil_prefix, fun _ => List.nil_prefix⟩
  | cons c cs ih =>
    have hc := h c List.mem_cons_self
    have hcs := fun e he => h e (List.mem_cons_of_mem _ he)
    intro ds
    rw [utf8Bytes_cons, utf8EncodeChar_of_ascii hc, List.singleton_append]
    cases ds with
    | nil => simp [utf8Bytes]
    | cons d ds =>
      rw [utf8Bytes_cons]
      rcases Nat.lt_or_ge d.toNat 128 with hd | hd
      · have hsame : UInt8.ofNat c.toNat = UInt8.ofNat d.toNat ↔ c = d := by
          rw [← UInt8.toNat_inj, toNat_byte (by omega), toNat_byte (by omega), Char.toNat_inj]
        rw [utf8EncodeChar_of_ascii hd, List.singleton_append, List.cons_prefix_cons, List.cons_prefix_cons, ih hcs, hsame]
      · obtain ⟨b, bytes, hbytes⟩ := List.exists_cons_of_ne_nil (utf8EncodeChar_ne_nil d)
        have hb := le_of_mem_utf8EncodeChar hd b (hbytes ▸ List.mem_cons_self)
        rw [hbytes, List.cons_append, List.cons_prefix_cons, List.cons_prefix_cons]
        refine ⟨fun hfront => absurd hb ?_, fun hfront => absurd hd ?_⟩
        · rw [← hfront.1, toNat_byte (by omega)]
          omega
        · rw [← hfront.1]
          omega

/-! ## ASCII letter case -/

theorem toNat_toLower (c : Char) :
    c.toLower.toNat = if 65 ≤ c.toNat ∧ c.toNat ≤ 90 then c.toNat + 32 else c.toNat := by
  have hcapital : (c.val ≥ 'A'.val ∧ c.val ≤ 'Z'.val) ↔ 65 ≤ c.toNat ∧ c.toNat ≤ 90 := by
    rw [ge_iff_le, UInt32.le_iff_toNat_le, UInt32.le_iff_toNat_le]
    rfl
  unfold Char.toLower
  split
  · rename_i hc
    rw [if_pos (hcapital.1 hc)]
    show (c.val + 32).toNat = c.val.toNat + 32
    rw [UInt32.toNat_add]
    exact Nat.mod_eq_of_lt (Nat.lt_of_le_of_lt (Nat.add_le_add_right (hcapital.1 hc).2 32) (by decide))
  · rename_i hc
    rw [if_neg (mt hcapital.2 hc)]

/-- Below the small letters, only the character itself has it for lower case. -/
theorem eq_of_toLower {c d : Char} (h : c.toLower = d) (hd : d.toNat < 97) : c = d := by
  have hc := toNat_toLower c
  rw [h] at hc
  refine Char.toNat_inj.1 ?_
  split at hc <;> omega

/-- A small letter is the lower case of itself and of its capital. -/
theorem eq_or_eq_of_toLower {c small capital : Char} (h : c.toLower = small) (hs : capital.toNat + 32 = small.toNat) :
    c = small ∨ c = capital := by
  have hc := toNat_toLower c
  rw [h] at hc
  rw [← Char.toNat_inj, ← Char.toNat_inj]
  split at hc <;> omega

/-- The byte of the small letter for that of a capital one. -/
def lowerByte (b : UInt8) : UInt8 := if 65 ≤ b.toNat ∧ b.toNat ≤ 90 then b + 32 else b

theorem lowerByte_of_le {b : UInt8} (h : 128 ≤ b.toNat) : lowerByte b = b := if_neg (by omega)

theorem utf8EncodeChar_toLower (c : Char) :
    String.utf8EncodeChar c.toLower = (String.utf8EncodeChar c).map lowerByte := by
  have hlower := toNat_toLower c
  rcases Nat.lt_or_ge c.toNat 128 with hc | hc
  · have hbyte : (UInt8.ofNat c.toNat).toNat = c.toNat := toNat_byte (by omega)
    rw [utf8EncodeChar_of_ascii hc, utf8EncodeChar_of_ascii (by rw [hlower]; split <;> omega), hlower, List.map_singleton,
      lowerByte, hbyte]
    split
    · rw [UInt8.ofNat_add]
      rfl
    · rfl
  · have hsame : c.toLower = c := Char.toNat_inj.1 (hlower.trans (if_neg (by omega)))
    rw [hsame, List.map_congr_left fun b hb => lowerByte_of_le (le_of_mem_utf8EncodeChar hc b hb), List.map_id']

/-- Letter case is the same for the characters and for the bytes. -/
theorem utf8Bytes_map_toLower (cs : List Char) : utf8Bytes (cs.map Char.toLower) = (utf8Bytes cs).map lowerByte := by
  induction cs with
  | nil => rfl
  | cons c cs ih => rw [List.map_cons, utf8Bytes_cons, utf8Bytes_cons, List.map_append, ih, utf8EncodeChar_toLower]

end SqlMapper
