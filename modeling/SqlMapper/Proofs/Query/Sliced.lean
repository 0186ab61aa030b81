import SqlMapper.Proofs.Query.Alias
import SqlMapper.Relation.Link
/-!
# Sliced — the alias of a column, found by its bytes

The separator can be looked for among the bytes of a text, four at a time, and the text cut at byte offsets.  A byte of
the separator is no byte of a character outside ASCII, so the first window that spells it starts where the first
separator starts (`Column.separatorOffset?_utf8Bytes`).  Both cuts are then between characters, no cut fails, and the
column is the one that is read character by character (`Column.parseSliced?_eq`).

A name and its alias that are written into one text are so read back from it (`Column.parse_undoes_alias`).  This is
what the query of a many-to-many relationship needs for the columns of the join table.
-/
namespace SqlMapper

namespace Column

/-! ## Windows of bytes -/

/-- Whether the bytes spell the separator, in any letter case. -/
def spellsSeparator (window : List UInt8) : Bool := window.map lowerByte = [0x20, 0x61, 0x73, 0x20]

/-- The offset of the first window of four bytes that spells the separator. -/
def separatorOffset? : List UInt8 → Option Nat
  | [] => none
  | b :: bytes => if spellsSeparator ((b :: bytes).take 4) then some 0 else (separatorOffset? bytes).map (· + 1)

/-- A window spells the separator where a separator starts. -/
theorem spellsSeparator_take (cs : List Char) : spellsSeparator ((utf8Bytes cs).take 4) = startsWithAs cs := by
  rw [Bool.eq_iff_iff, startsWithAs_iff_separator, spellsSeparator, decide_eq_true_eq, List.map_take,
    ← utf8Bytes_map_toLower]
  have hseparator : [0x20, 0x61, 0x73, 0x20] = utf8Bytes " as ".toList := rfl
  rw [hseparator]
  have hfront : (utf8Bytes (cs.map Char.toLower)).take 4 = utf8Bytes " as ".toList ↔
      " as ".toList <+: cs.map Char.toLower := by
    rw [← utf8Bytes_isPrefix_iff (by decide), List.prefix_iff_eq_take, eq_comm]
    rfl
  rw [hfront]
  constructor
  · rintro ⟨rest, h⟩
    obtain ⟨separator, after, rfl, hs, -⟩ := List.map_eq_append_iff.1 h.symm
    exact ⟨separator, after, rfl, hs⟩
  · rintro ⟨separator, after, rfl, hs⟩
    rw [List.map_append, hs]
    exact List.prefix_append _ _

/-- No separator starts inside a character. -/
theorem separatorOffset?_append {bytes : List UInt8} (h : ∀ b ∈ bytes, 128 ≤ b.toNat) (rest : List UInt8) :
    separatorOffset? (bytes ++ rest) = (separatorOffset? rest).map (· + bytes.length) := by
  induction bytes with
  | nil => simp
  | cons b bytes ih =>
    have hb := h b List.mem_cons_self
    have hwindow : spellsSeparator ((b :: (bytes ++ rest)).take 4) = false := by
      rw [spellsSeparator, decide_eq_false_iff_not, List.take_succ_cons, List.map_cons, lowerByte_of_le hb]
      intro hspelled
      rw [(List.cons.inj hspelled).1] at hb
      exact absurd hb (by decide)
    rw [List.cons_append, separatorOffset?, hwindow, ih fun c hc => h c (List.mem_cons_of_mem b hc)]
    exact Option.map_map (· + 1) (· + bytes.length) (separatorOffset? rest)

theorem separatorOffset?_of_startsWithAs {cs : List Char} (h : startsWithAs cs = true) :
    separatorOffset? (utf8Bytes cs) = some 0 := by
  rw [← spellsSeparator_take] at h
  cases hbytes : utf8Bytes cs with
  | nil =>
    rw [hbytes] at h
    cases h
  | cons b bytes =>
    rw [hbytes] at h
    exact if_pos h

/-- The search goes on behind a character that no separator starts with. -/
theorem separatorOffset?_cons {c : Char} {cs : List Char} (h : startsWithAs (c :: cs) = false) :
    separatorOffset? (utf8Bytes (c :: cs)) =
      (separatorOffset? (utf8Bytes cs)).map (· + (String.utf8EncodeChar c).length) := by
  rcases Nat.lt_or_ge c.toNat 128 with hc | hc
  · rw [← spellsSeparator_take, utf8Bytes_cons, utf8EncodeChar_of_ascii hc, List.singleton_append] at h
    rw [utf8Bytes_cons, utf8EncodeChar_of_ascii hc, List.singleton_append, separatorOffset?, h]
    rfl
  · exact separatorOffset?_append (le_of_mem_utf8EncodeChar hc) (utf8Bytes cs)

/-- The window is found where the text is split. -/
theorem separatorOffset?_utf8Bytes (cs : List Char) :
    separatorOffset? (utf8Bytes cs) = (splitAs? cs).map fun parts => (utf8Bytes parts.1).length := by
  induction cs with
  | nil => rfl
  | cons c cs ih =>
    rw [splitAs?]
    split
    · rename_i hstarts
      exact separatorOffset?_of_startsWithAs hstarts
    · rename_i hstarts
      rw [separatorOffset?_cons (Bool.not_eq_true _ ▸ hstarts), ih]
      cases splitAs? cs with
      | none => rfl
      | some parts =>
        obtain ⟨before, after⟩ := parts
        show some ((utf8Bytes before).length + _) = some (utf8Bytes (c :: before)).length
        rw [utf8Bytes_cons, List.length_append, Nat.add_comm]

/-! ## Slices -/

/-- The text before a byte offset, if it is a boundary between characters. -/
def textBefore? (text : String) (offset : Nat) : Option String :=
  if h : (⟨offset⟩ : String.Pos.Raw).IsValid text then some (text.sliceTo (text.pos ⟨offset⟩ h)).copy else none

/-- The text from a byte offset on, if it is a boundary between characters. -/
def textFrom? (text : String) (offset : Nat) : Option String :=
  if h : (⟨offset⟩ : String.Pos.Raw).IsValid text then some (text.sliceFrom (text.pos ⟨offset⟩ h)).copy else none

/-- Reads a name or a name with an alias, by byte offsets; there is none if one is inside a character. -/
def parseSliced? (text : String) : Option Column :=
  match separatorOffset? text.toByteArray.data.toList with
  | none => some (name (trim text))
  | some offset => do
    let before ← textBefore? text offset
    let after ← textFrom? text (offset + 4)
    some (aliased (trim before) (trim after))

theorem isValid_append (s t : String) : (⟨s.utf8ByteSize⟩ : String.Pos.Raw).IsValid (s ++ t) :=
  String.Pos.Raw.isValid_iff_exists_append.2 ⟨s, t, rfl, rfl⟩

theorem textBefore?_append (s t : String) : textBefore? (s ++ t) s.utf8ByteSize = some s := by
  rw [textBefore?, dif_pos (isValid_append s t)]
  exact congrArg some (String.Pos.splits_append_rawEndPos (s := s) (t := t)).copy_sliceTo_eq

theorem textFrom?_append (s t : String) : textFrom? (s ++ t) s.utf8ByteSize = some t := by
  rw [textFrom?, dif_pos (isValid_append s t)]
  exact congrArg some (String.Pos.splits_append_rawEndPos (s := s) (t := t)).copy_sliceFrom_eq

/-- Where a separator is found, both offsets are between characters: the name is before the first, the alias behind the
second. -/
theorem exists_parts_of_offset {text : String} {offset : Nat}
    (h : separatorOffset? text.toByteArray.data.toList = some offset) :
    ∃ name separator shownAs : String, text = name ++ separator ++ shownAs ∧
      splitAs? text.toList = some (name.toList, shownAs.toList) ∧ offset = name.utf8ByteSize ∧
      offset + 4 = (name ++ separator).utf8ByteSize := by
  rw [toList_data_toByteArray, separatorOffset?_utf8Bytes, Option.map_eq_some_iff] at h
  obtain ⟨⟨before, after⟩, hsplit, rfl⟩ := h
  obtain ⟨separator, hseparator, htext⟩ := exists_separator_of_splitAs? hsplit
  have hsize : (String.ofList separator).utf8ByteSize = 4 := by
    obtain ⟨a, s, rfl, rfl | rfl, rfl | rfl⟩ := isSeparator_iff.1 hseparator <;> rfl
  refine ⟨String.ofList before, String.ofList separator, String.ofList after, ?_, ?_, ?_, ?_⟩
  · rw [← String.toList_inj, htext]
    simp
  · rw [hsplit, String.toList_ofList, String.toList_ofList]
  · rw [← length_utf8Bytes, String.toList_ofList]
  · rw [String.utf8ByteSize_append, hsize, ← length_utf8Bytes, String.toList_ofList]

/-- No cut fails, and the column is the one that is read character by character. -/
theorem parseSliced?_eq (text : String) : parseSliced? text = some (parse text) := by
  unfold parseSliced? parse
  cases hoffset : separatorOffset? text.toByteArray.data.toList with
  | none =>
    rw [toList_data_toByteArray, separatorOffset?_utf8Bytes, Option.map_eq_none_iff] at hoffset
    rw [hoffset]
  | some offset =>
    obtain ⟨before, separator, after, rfl, hsplit, hbefore, hafter⟩ := exists_parts_of_offset hoffset
    rw [hsplit]
    dsimp only
    rw [hafter, textFrom?_append, hbefore, String.append_assoc, textBefore?_append]
    rfl

/-! ## Written and read -/

/-- Before an alias the name is left whole: it has no outer blanks, and no separator even if a blank follows it. -/
structure IsAliasable (name : String) : Prop where
  trimmed : IsTrimmed name
  unseparated : ¬ HasSeparator (name.toList ++ [' '])

theorem IsAliasable.parse_append {name separator shownAs : String} (hn : IsAliasable name) (ha : IsTrimmed shownAs)
    (hs : IsSeparator separator.toList) : parse (name ++ separator ++ shownAs) = .aliased name shownAs :=
  Column.parse_append (isTrimmed_iff.1 hn.trimmed) (isTrimmed_iff.1 ha) hs (splitAs?_eq_none_iff.2 hn.unseparated)

/-- A prefix that does not start in a blank, and a column that ends a trimmed name, are trimmed together. -/
theorem isTrimmed_pivot {table column : String} (h : IsTrimmed (table ++ "." ++ column)) :
    IsTrimmed ("pivot_" ++ column) := by
  refine ⟨fun c hc => ?_, fun c hc => ?_⟩
  · rw [String.toList_append] at hc
    cases hc
    rfl
  · have hlast := h.2 c
    rw [String.toList_append, List.getLast?_append] at hc hlast
    cases hcolumn : column.toList.getLast? with
    | some last =>
      rw [hcolumn] at hc hlast
      exact hlast hc
    | none =>
      rw [hcolumn] at hc
      cases hc
      rfl

theorem IsAliasable.pivotColumn_eq {join : JoinTable} {column : String}
    (h : IsAliasable (join.table ++ "." ++ column)) :
    Relation.pivotColumn join column = .aliased (join.table ++ "." ++ column) ("pivot_" ++ column) := by
  rw [Relation.pivotColumn_eq]
  exact h.parse_append (isTrimmed_pivot h.trimmed) rfl

/-- **Reading a column undoes writing it with an alias.**  Every cut of the text is between characters, and the columns
of a join table are selected as they were written. -/
theorem parse_undoes_alias :
    (∀ name separator shownAs : String, IsAliasable name → IsTrimmed shownAs → IsSeparator separator.toList →
      parse (name ++ separator ++ shownAs) = .aliased name shownAs) ∧
    (∀ text : String, IsTrimmed text → ¬ HasSeparator text.toList → parse text = .name text) ∧
    (∀ text : String, parseSliced? text = some (parse text) ∧
      ∀ offset, separatorOffset? text.toByteArray.data.toList = some offset →
        (⟨offset⟩ : String.Pos.Raw).IsValid text ∧ (⟨offset + 4⟩ : String.Pos.Raw).IsValid text) ∧
    ∀ (r : Relation) (related : Model) (join : JoinTable), r.link = .manyToMany join →
      ∀ i column, (join.foreignKey :: join.otherKey :: join.pivotColumns)[i]? = some column →
        IsAliasable (join.table ++ "." ++ column) →
        (r.baseQuery related).columns[i + 1]? = some (.aliased (join.table ++ "." ++ column) ("pivot_" ++ column)) := by
  refine ⟨fun name separator shownAs hn ha hs => hn.parse_append ha hs, fun text ht hseparator => ?_, fun text => ?_,
    fun r related join hlink i column hcolumn hname => ?_⟩
  · exact parse_eq_name_iff.2
      ⟨splitAs?_eq_none_iff.2 hseparator, trimChars_eq_self_iff.2 ht⟩
  · refine ⟨parseSliced?_eq text, fun offset hoffset => ?_⟩
    obtain ⟨name, separator, shownAs, rfl, -, hbefore, hafter⟩ := exists_parts_of_offset hoffset
    rw [hafter, hbefore]
    exact ⟨String.append_assoc ▸ isValid_append name (separator ++ shownAs), isValid_append (name ++ separator) shownAs⟩
  · have hcolumns : (r.baseQuery related).columns = .parse (related.table ++ ".*") ::
        (join.foreignKey :: join.otherKey :: join.pivotColumns).map (Relation.pivotColumn join) := by
      unfold Relation.baseQuery
      rw [hlink]
      rfl
    rw [hcolumns, List.getElem?_cons_succ, List.getElem?_map, hcolumn, ← hname.pivotColumn_eq]
    rfl

/-- Letters outside ASCII on both sides of a separator, an end that looks like half of one, an alias with one in it,
and a join table whose column holds `as` as a part of its name. -/
theorem parse_undoes_alias_umlaut :
    let name := "as größe a"
    let shownAs := "é as ü"
    let join : JoinTable := ⟨"größen", "as_größe", "user_id", []⟩
    let sizes : Relation := ⟨"sizes", 1, .manyToMany join, []⟩
    let size := Model.conventional 1 "size"
    (IsAliasable name ∧ IsTrimmed shownAs ∧ IsSeparator " aS ".toList ∧
      parse (name ++ " aS " ++ shownAs) = .aliased name shownAs) ∧
    (IsTrimmed name ∧ ¬ HasSeparator name.toList ∧ parse name = .name name) ∧
    (parseSliced? "größe AS ß" = some (parse "größe AS ß") ∧
      separatorOffset? "größe AS ß".toByteArray.data.toList = some 7 ∧
      (⟨7⟩ : String.Pos.Raw).IsValid "größe AS ß" ∧ (⟨11⟩ : String.Pos.Raw).IsValid "größe AS ß") ∧
    (sizes.link = .manyToMany join ∧ IsAliasable "größen.as_größe" ∧
      (sizes.baseQuery size).columns[1]? = some (.aliased "größen.as_größe" "pivot_as_größe")) := by
  intro name shownAs join sizes size
  obtain ⟨haliased, hname, hsliced, hbase⟩ := parse_undoes_alias
  have hleft : IsAliasable name := ⟨by decide, splitAs?_eq_none_iff.1 (by decide)⟩
  have hright : IsTrimmed shownAs := by decide
  have hwhole : ¬ HasSeparator name.toList := splitAs?_eq_none_iff.1 (by decide)
  have hcolumn : IsAliasable "größen.as_größe" := ⟨by decide, splitAs?_eq_none_iff.1 (by decide)⟩
  have hoffset : separatorOffset? "größe AS ß".toByteArray.data.toList = some 7 := by decide
  exact ⟨⟨hleft, hright, rfl, haliased _ _ _ hleft hright rfl⟩,
    ⟨hleft.trimmed, hwhole, hname _ hleft.trimmed hwhole⟩,
    ⟨(hsliced _).1, hoffset, (hsliced _).2 7 hoffset⟩,
    rfl, hcolumn, hbase sizes size join rfl 0 "as_größe" rfl hcolumn⟩

end Column
end SqlMapper
