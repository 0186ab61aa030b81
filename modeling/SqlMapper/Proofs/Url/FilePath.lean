import SqlMapper.Proofs.Text.Trim
import SqlMapper.Proofs.Url.PercentDecode
import SqlMapper.Url.Database
/-!
# FilePath — the file that a URL opens

A path behind `sqlite:` goes through the reader of URLs, and what comes out is the name of the file.  The reader keeps
the segments of a path without dot segments, but it encodes what a URL cannot hold, and the name of the file is not
decoded again.  So a path is opened under its own name exactly if all its characters are kept, and a path with another
character is the name of no file that any URL opens (`SqliteLocation.ofUrl_filePath`).
-/
namespace SqlMapper

namespace Url

/-! ## Parts of a URL -/

theorem clean_eq_self {cs : List Char} (hfirst : ∀ c ∈ cs.head?, isControlOrSpace c = false)
    (hlast : ∀ c ∈ cs.getLast?, isControlOrSpace c = false) (hall : ∀ c ∈ cs, c ≠ '\t' ∧ c ≠ '\n' ∧ c ≠ '\r') :
    clean cs = cs := by
  rw [clean, dropEnds_eq_self_iff.2 ⟨hfirst, hlast⟩, List.filter_eq_self]
  intro c hc
  simpa [and_assoc] using hall c hc

theorem cut_of_not_mem {c : Char} {cs : List Char} (h : c ∉ cs) : cut c cs = (cs, none) := by
  have hdrop : cs.dropWhile (· != c) = [] := by
    rw [List.dropWhile_eq_nil_iff]
    intro d hd
    simpa using fun hdc : d = c => h (hdc ▸ hd)
  rw [cut, hdrop]

theorem readScheme?_sqlite (rest : List Char) : readScheme? ("sqlite:".toList ++ rest) = some ("sqlite".toList, rest) :=
  rfl

/-! ## The path -/

theorem resolveDots_eq {segments : List (List Char)}
    (h : ∀ s ∈ segments, isSingleDot s = false ∧ isDoubleDot s = false) :
    ∀ kept, resolveDots kept segments = kept.reverse ++ segments := by
  induction segments with
  | nil => simp [resolveDots]
  | cons s segments ih =>
    intro kept
    obtain ⟨hs, hs'⟩ := h s List.mem_cons_self
    cases segments with
    | nil => simp [resolveDots, hs, hs']
    | cons t segments =>
      have hrest := ih (fun r hr => h r (List.mem_cons_of_mem _ hr)) (s :: kept)
      simp only [resolveDots, hs, hs', Bool.false_eq_true, ↓reduceIte, hrest]
      simp

theorem mem_goUp {s : List Char} {kept : List (List Char)} (h : s ∈ goUp kept) : s ∈ kept := by
  cases kept with
  | nil => exact h
  | cons t kept =>
    rw [goUp] at h
    split at h
    · exact h
    · exact List.mem_cons_of_mem t h

/-- Resolving makes no segment but the empty one. -/
theorem mem_resolveDots {s : List Char} {segments : List (List Char)} :
    ∀ {kept}, s ∈ resolveDots kept segments → s ∈ kept ∨ s ∈ segments ∨ s = [] := by
  induction segments with
  | nil => exact fun h => .inl (List.mem_reverse.1 h)
  | cons t segments ih =>
    intro kept h
    cases segments with
    | nil =>
      rw [resolveDots, List.mem_reverse] at h
      split at h
      · rcases List.mem_cons.1 h with h | h
        · exact .inr (.inr h)
        · exact .inl (mem_goUp h)
      · split at h
        · exact (List.mem_cons.1 h).elim (.inr ∘ .inr) .inl
        · exact (List.mem_cons.1 h).elim (fun hs => .inr (.inl (hs ▸ List.mem_cons_self))) .inl
    | cons r segments =>
      simp only [resolveDots] at h
      rcases ih h with h | h | h
      · split at h
        · exact .inl (mem_goUp h)
        · split at h
          · exact .inl h
          · exact (List.mem_cons.1 h).elim (fun hs => .inr (.inl (hs ▸ List.mem_cons_self))) .inl
      · exact .inr (.inl (List.mem_cons_of_mem t h))
      · exact .inr (.inr h)

/-- A path is the text of its segments, each behind a slash. -/
theorem flatMap_slash_splitWhere (cs : List Char) :
    (splitWhere (· == '/') cs).flatMap ('/' :: ·) = '/' :: cs := by
  induction cs with
  | nil => rfl
  | cons c cs ih =>
    rw [splitWhere]
    split
    · rename_i hc
      rw [List.flatMap_cons, ih, eq_of_beq hc]
      rfl
    · cases hparts : splitWhere (· == '/') cs with
      | nil => exact absurd hparts (splitWhere_ne_nil _ cs)
      | cons part parts =>
        rw [hparts, List.flatMap_cons, List.cons_append, List.cons.injEq] at ih
        show '/' :: c :: (part ++ parts.flatMap ('/' :: ·)) = _
        rw [ih.2]

/-- Where there are no dot segments, the rooted path is the text as it is written, encoded. -/
theorem text_readRooted {cs : List Char} (hsign : '%' ∉ cs)
    (hdots : ∀ s ∈ splitWhere (· == '/') cs, s ≠ ['.'] ∧ s ≠ ['.', '.']) :
    (readRooted cs).text = percentEncode pathSet ('/' :: cs) := by
  have hparts : ∀ s ∈ (splitWhere (· == '/') cs).map (percentEncode pathSet),
      isSingleDot s = false ∧ isDoubleDot s = false := by
    intro s hs
    obtain ⟨part, hpart, rfl⟩ := List.mem_map.1 hs
    have hsign' : '%' ∉ part := by
      intro h
      have hmem : '%' ∈ (splitWhere (· == '/') cs).flatMap ('/' :: ·) :=
        List.mem_flatMap.2 ⟨part, hpart, List.mem_cons_of_mem _ h⟩
      rw [flatMap_slash_splitWhere, List.mem_cons] at hmem
      exact hmem.elim (by decide) hsign
    obtain ⟨hsingle, hdouble⟩ := hdots part hpart
    exact ⟨Bool.eq_false_iff.2 fun h => hsingle (isSingleDot_percentEncode hsign' h),
      Bool.eq_false_iff.2 fun h => hdouble (isDoubleDot_percentEncode hsign' h)⟩
  rw [readRooted, resolveDots_eq hparts, List.reverse_nil, List.nil_append, Path.text, ← flatMap_slash_splitWhere,
    List.flatMap_map, percentEncode, List.flatMap_assoc]
  rfl

/-- A rooted path holds only characters that are kept. -/
theorem keeps_of_mem_readRooted {cs : List Char} {c : Char} (h : c ∈ (readRooted cs).text) : Keeps pathSet c := by
  obtain ⟨s, hs, hc⟩ := List.mem_flatMap.1 h
  rcases List.mem_cons.1 hc with rfl | hc
  · decide
  · rcases mem_resolveDots hs with h | h | rfl
    · cases h
    · obtain ⟨part, -, rfl⟩ := List.mem_map.1 h
      exact keeps_of_mem_percentEncode hc
    · cases hc

/-- A path that starts with a slash holds only characters that are kept, behind an authority or without one. -/
theorem keeps_of_readHierarchy {cs : List Char} {more : Bool} {authority : Option Authority} {path : Path}
    (h : readHierarchy cs more = .ok (authority, path)) (hroot : path.text.head? = some '/') :
    ∀ c ∈ path.text, Keeps pathSet c := by
  unfold readHierarchy at h
  split at h
  · rename_i rest
    dsimp only at h
    cases hread : readAuthority (rest.takeWhile (· != '/')) (rest.dropWhile (· != '/') ≠ [] || more) with
    | error fault =>
      rw [hread] at h
      cases h
    | ok found =>
      rw [hread] at h
      cases h
      split
      · exact fun c hc => nomatch hc
      · exact fun c => keeps_of_mem_readRooted
      · exact fun c => keeps_of_mem_readRooted
  · cases h
    exact fun c => keeps_of_mem_readRooted
  · rename_i hslash
    cases h
    cases cs with
    | nil => cases hroot
    | cons c cs =>
      -- a text that does not start with a slash is encoded to one that does not either
      have hhead : (percentEncode [] (c :: cs)).head? = some '/' := hroot
      rw [head?_percentEncode, Option.some.injEq] at hhead
      split at hhead
      · exact absurd (congrArg (· :: cs) hhead) (hslash cs)
      · cases hhead

theorem keeps_of_read {s : String} {u : Url} (h : Url.read s = .ok u) (hroot : u.path.text.head? = some '/') :
    ∀ c ∈ u.path.text, Keeps pathSet c := by
  rw [Url.read] at h
  split at h
  · cases h
  · dsimp only at h
    generalize hread : readHierarchy _ _ = found at h
    cases found with
    | error fault => cases h
    | ok found =>
      cases h
      exact keeps_of_readHierarchy hread hroot

end Url

namespace SqliteLocation

open Url

/-- A rooted path, as it is written behind the scheme of a URL: it starts with one slash and ends in no space, it has
neither dot segments nor characters that mean something in a URL, and no control characters. -/
structure IsFilePath (p : List Char) : Prop where
  rooted : p.head? = some '/' ∧ p.tail.head? ≠ some '/'
  resolved : ∀ segment ∈ splitWhere (· == '/') p, segment ≠ ['.'] ∧ segment ≠ ['.', '.']
  unmarked : ∀ c ∈ p, c ≠ '?' ∧ c ≠ '#' ∧ c ≠ '%'
  printable : ∀ c ∈ p, 0x20 ≤ c.toNat
  trimmed : p.getLast? ≠ some ' '

/-- Nothing is cleaned away around a file path or inside it. -/
theorem clean_filePath {p : String} (h : IsFilePath p.toList) :
    clean ("sqlite:" ++ p).toList = "sqlite:".toList ++ p.toList := by
  rw [String.toList_append]
  refine clean_eq_self (fun c hc => ?_) (fun c hc => ?_) fun c hc => ?_
  · cases hc
    rfl
  · obtain ⟨rest, hp⟩ := List.head?_eq_some_iff.1 h.rooted.1
    have hne : p.toList ≠ [] := hp ▸ List.cons_ne_nil '/' rest
    rw [List.getLast?_append, List.getLast?_eq_some_getLast hne, Option.some_or, ← List.getLast?_eq_some_getLast] at hc
    have hprintable := h.printable c (List.mem_of_getLast? hc)
    have hspace : c.toNat ≠ 32 := fun h32 => h.trimmed (hc.trans (congrArg some (Char.toNat_inj.1 h32)))
    rw [isControlOrSpace, decide_eq_false_iff_not]
    omega
  · rcases List.mem_append.1 hc with hc | hc
    · exact (by decide : ∀ d ∈ "sqlite:".toList, d ≠ '\t' ∧ d ≠ '\n' ∧ d ≠ '\r') c hc
    · have hprintable := h.printable c hc
      refine ⟨?_, ?_, ?_⟩ <;> rintro rfl <;> exact absurd hprintable (by decide)

/-- One slash starts a path and no authority. -/
theorem readHierarchy_rooted {rest : List Char} (h : rest.head? ≠ some '/') (more : Bool) :
    readHierarchy ('/' :: rest) more = .ok (none, readRooted rest) := by
  cases rest with
  | nil => rfl
  | cons c rest =>
    have hc : c ≠ '/' := fun hc => h (congrArg some hc)
    simp [readHierarchy, hc]

/-- Behind the scheme a rooted path is read as one, encoded. -/
theorem read_filePath {p : String} (h : IsFilePath p.toList) :
    ∃ path, Url.read ("sqlite:" ++ p) = .ok ⟨"sqlite".toList, none, path, none, none⟩ ∧
      path.text = percentEncode pathSet p.toList := by
  obtain ⟨hslash, hsecond⟩ := h.rooted
  obtain ⟨rest, hp⟩ := List.head?_eq_some_iff.1 hslash
  rw [hp, List.tail_cons] at hsecond
  have hhash : cut '#' p.toList = (p.toList, none) := cut_of_not_mem fun hc => (h.unmarked _ hc).2.1 rfl
  have hquery : cut '?' p.toList = (p.toList, none) := cut_of_not_mem fun hc => (h.unmarked _ hc).1 rfl
  refine ⟨readRooted rest, ?_, ?_⟩
  · rw [Url.read, clean_filePath h, readScheme?_sqlite]
    dsimp only
    rw [hhash]
    dsimp only
    rw [hquery]
    show (readHierarchy p.toList false >>= _) = _
    rw [hp, readHierarchy_rooted hsecond]
    rfl
  · rw [hp]
    refine text_readRooted (fun hc => ?_) fun s hs => ?_
    · exact (h.unmarked _ (hp ▸ List.mem_cons_of_mem _ hc)).2.2 rfl
    · exact h.resolved s (hp ▸ List.mem_cons_of_mem _ hs)

/-- The name of the file is the path of the URL. -/
theorem read_of_ofUrl {url opened : String} (h : ofUrl url = .ok (.file opened)) :
    ∃ u, Url.read url = .ok u ∧ opened = String.ofList u.path.text := by
  rw [ofUrl] at h
  cases hread : Url.read url with
  | error fault =>
    rw [hread] at h
    cases h
  | ok u =>
    rw [hread] at h
    dsimp only at h
    split at h
    · cases h
    · injection h with h
      split at h
      · cases h
      · cases h
        exact ⟨u, rfl, rfl⟩

/-- **A file is opened under the name in its URL exactly if a URL can hold the name.**  Every rooted path behind the
scheme is read as a file, whose name is the path encoded: decoded it gives the bytes of the path, but it is the path
only if all characters are kept.  Of a path with another character there is no URL at all that opens the file. -/
theorem ofUrl_filePath {p : String} (h : IsFilePath p.toList) :
    ∃ opened, ofUrl ("sqlite:" ++ p) = .ok (.file opened) ∧ percentDecode opened.toList = p.toByteArray.data.toList ∧
      (opened = p ↔ ∀ c ∈ p.toList, Keeps pathSet c) ∧
      ((∃ url, ofUrl url = .ok (.file p)) ↔ ∀ c ∈ p.toList, Keeps pathSet c) := by
  obtain ⟨path, hread, hpath⟩ := read_filePath h
  have hsign : '%' ∉ p.toList := fun hc => (h.unmarked _ hc).2.2 rfl
  have hroot : (percentEncode pathSet p.toList).head? = some '/' := by
    obtain ⟨rest, hp⟩ := List.head?_eq_some_iff.1 h.rooted.1
    rw [hp, head?_percentEncode]
    rfl
  have hopened : ofUrl ("sqlite:" ++ p) = .ok (.file (String.ofList path.text)) := by
    have hmemory : String.ofList path.text ≠ ":memory:" := by
      intro hmemory
      rw [hpath, ← String.toList_inj, String.toList_ofList] at hmemory
      have hhead := hroot
      rw [hmemory] at hhead
      cases hhead
    rw [ofUrl, hread]
    show Except.ok (if String.ofList path.text = ":memory:" then memory else file (String.ofList path.text)) = _
    rw [if_neg hmemory]
  have hkept : String.ofList path.text = p ↔ ∀ c ∈ p.toList, Keeps pathSet c := by
    rw [← percentEncode_eq_self_iff, hpath, ← String.toList_inj, String.toList_ofList]
  refine ⟨_, hopened, ?_, hkept, ?_, fun hall => ⟨"sqlite:" ++ p, ?_⟩⟩
  · rw [String.toList_ofList, hpath, percentDecode_percentEncode hsign, toList_data_toByteArray]
  · rintro ⟨url, hurl⟩
    obtain ⟨u, hu, rfl⟩ := read_of_ofUrl hurl
    rw [String.toList_ofList] at h ⊢
    exact keeps_of_read hu h.rooted.1
  · rw [hopened, hkept.2 hall]

/-- Colons, a drive letter, an empty segment, and dots that are not a whole segment. -/
theorem ofUrl_filePath_drive :
    IsFilePath "/C:/..data//:memory:/a.b".toList ∧
      ofUrl ("sqlite:" ++ "/C:/..data//:memory:/a.b") = .ok (.file "/C:/..data//:memory:/a.b") := by
  have h : IsFilePath "/C:/..data//:memory:/a.b".toList :=
    ⟨by decide, by decide, by decide, by decide, by decide⟩
  obtain ⟨opened, hopened, -, hkept, -⟩ := ofUrl_filePath h
  obtain rfl := hkept.2 (by decide)
  exact ⟨h, hopened⟩

/-- A path with a space is a file path, and its URL opens a file of another name. -/
theorem ofUrl_renames_space :
    IsFilePath "/tmp/my app.db".toList ∧ ofUrl ("sqlite:" ++ "/tmp/my app.db") = .ok (.file "/tmp/my%20app.db") ∧
      ofUrl ("sqlite:" ++ "/tmp/my app.db") ≠ .ok (.file "/tmp/my app.db") := by
  have hopened : ofUrl ("sqlite:" ++ "/tmp/my app.db") = .ok (.file "/tmp/my%20app.db") := by decide +kernel
  refine ⟨⟨by decide, by decide, by decide, by decide, by decide⟩, hopened, fun h => ?_⟩
  injection hopened.symm.trans h with h
  exact absurd (SqliteLocation.file.inj h) (by decide)

end SqliteLocation

end SqlMapper
