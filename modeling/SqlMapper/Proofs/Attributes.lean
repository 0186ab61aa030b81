import SqlMapper.Attributes
/-!
# Attributes — pairs of different names

A list of pairs whose names differ is found in attributes as it stands, in its order.
-/
namespace SqlMapper

theorem Assoc.insert_insert {α : Type} (name : String) (value value' : α) :
    ∀ entries : List (String × α),
      Assoc.insert name value (Assoc.insert name value' entries) = Assoc.insert name value entries
  | [] => by simp [Assoc.insert]
  | (n, v) :: rest => by
    by_cases hn : n = name
    · simp [Assoc.insert, hn]
    · simp [Assoc.insert, hn, Assoc.insert_insert name value value' rest]

theorem Assoc.insert_of_not_mem {α : Type} (name : String) (value : α) :
    ∀ {entries : List (String × α)}, name ∉ Assoc.names entries →
      Assoc.insert name value entries = entries ++ [(name, value)]
  | [], _ => rfl
  | (n, v) :: rest, h => by
    simp only [Assoc.names, List.map_cons, List.mem_cons, not_or] at h
    rw [Assoc.insert, if_neg (Ne.symm h.1), Assoc.insert_of_not_mem name value h.2]
    rfl

theorem Assoc.insert_of_get? {α : Type} {name : String} {value : α} :
    ∀ {entries : List (String × α)}, Assoc.get? entries name = some value → Assoc.insert name value entries = entries
  | [], h => by cases h
  | (n, v) :: rest, h => by
    rw [Assoc.get?_cons] at h
    rw [Assoc.insert]
    split
    · rename_i hn
      rw [if_pos hn] at h
      cases hn
      cases h
      rfl
    · rename_i hn
      rw [if_neg hn] at h
      rw [Assoc.insert_of_get? h]

theorem Assoc.get?_of_mem {α : Type} :
    ∀ {entries : List (String × α)} {p : String × α}, (Assoc.names entries).Nodup → p ∈ entries →
      Assoc.get? entries p.1 = some p.2
  | [], _, _, hp => by cases hp
  | q :: rest, p, hn, hp => by
    rw [Assoc.names, List.map_cons, List.nodup_cons] at hn
    rw [Assoc.get?_cons]
    rcases List.mem_cons.1 hp with rfl | hp
    · exact if_pos rfl
    · have hne : q.1 ≠ p.1 := fun he => hn.1 (he ▸ List.mem_map_of_mem hp)
      rw [if_neg hne]
      exact Assoc.get?_of_mem hn.2 hp

theorem Attributes.entries_insertAll {pairs : List (String × Value)} :
    ∀ {a : Attributes}, (a.names ++ Assoc.names pairs).Nodup → (a.insertAll pairs).entries = a.entries ++ pairs := by
  induction pairs with
  | nil => exact fun _ => (List.append_nil _).symm
  | cons p pairs ih =>
    intro a h
    obtain ⟨name, value⟩ := p
    have hn : name ∉ Assoc.names a.entries := by
      intro hm
      exact (List.nodup_append.1 h).2.2 name hm name (by simp [Assoc.names]) rfl
    have he : (a.insert name value).entries = a.entries ++ [(name, value)] := Assoc.insert_of_not_mem name value hn
    have hnames : (a.insert name value).names = a.names ++ [name] := by simp [Attributes.names, Assoc.names, he]
    have ih' := ih (a := a.insert name value) (by simpa [hnames, Assoc.names] using h)
    simpa [Attributes.insertAll, he] using ih'

/-- Pairs of different names are attributes as they stand. -/
theorem Attributes.entries_ofList {pairs : List (String × Value)} (h : (Assoc.names pairs).Nodup) :
    (Attributes.ofList pairs).entries = pairs :=
  Attributes.entries_insertAll (a := .empty) h

theorem Attributes.get?_insertAll_of_not_mem {name : String} :
    ∀ {pairs : List (String × Value)} {a : Attributes}, name ∉ Assoc.names pairs →
      (a.insertAll pairs).get? name = a.get? name
  | [], _, _ => rfl
  | (n, v) :: pairs, a, h => by
    rw [Assoc.names, List.map_cons, List.mem_cons, not_or] at h
    show ((a.insert n v).insertAll pairs).get? name = a.get? name
    rw [Attributes.get?_insertAll_of_not_mem h.2, Attributes.get?_insert, if_neg (Ne.symm h.1)]

theorem Attributes.get?_insertAll_of_mem {p : String × Value} :
    ∀ {pairs : List (String × Value)} {a : Attributes}, (Assoc.names pairs).Nodup → p ∈ pairs →
      (a.insertAll pairs).get? p.1 = some p.2
  | [], _, _, hp => absurd hp List.not_mem_nil
  | (n, v) :: pairs, a, hn, hp => by
    rw [Assoc.names, List.map_cons, List.nodup_cons] at hn
    show ((a.insert n v).insertAll pairs).get? p.1 = some p.2
    rcases List.mem_cons.1 hp with rfl | hp
    · rw [Attributes.get?_insertAll_of_not_mem hn.1, Attributes.get?_insert, if_pos rfl]
    · exact Attributes.get?_insertAll_of_mem hn.2 hp

/-- Attributes that are set over others win, the last one of a name over those before it. -/
theorem Attributes.get?_insertAll {name : String} :
    ∀ {pairs : List (String × Value)} {a : Attributes},
      (a.insertAll pairs).get? name = ((Attributes.ofList pairs).get? name).or (a.get? name)
  | [], _ => rfl
  | (n, v) :: pairs, a => by
    have hfirst : (a.insert n v).get? name = ((Attributes.empty.insert n v).get? name).or (a.get? name) := by
      rw [Attributes.get?_insert, Attributes.get?_insert]
      split <;> rfl
    show ((a.insert n v).insertAll pairs).get? name =
      (((Attributes.empty.insert n v).insertAll pairs).get? name).or (a.get? name)
    rw [Attributes.get?_insertAll, hfirst, Attributes.get?_insertAll (a := Attributes.empty.insert n v),
      Option.or_assoc]

theorem Attributes.mem_entries_of_get? {a : Attributes} {name : String} {v : Value} (h : a.get? name = some v) :
    (name, v) ∈ a.entries := by
  obtain ⟨p, hp, rfl⟩ := Option.map_eq_some_iff.1 h
  have hname := List.find?_some hp
  rw [beq_iff_eq] at hname
  subst hname
  exact List.mem_of_find?_eq_some hp

theorem Attributes.get?_of_sameAs {a b : Attributes} (h : a.sameAs b = true) {name : String} {v : Value}
    (hv : a.get? name = some v) : b.get? name = some v := by
  unfold Attributes.sameAs at h
  rw [Bool.and_eq_true, List.all_eq_true] at h
  exact beq_iff_eq.1 (h.2 (name, v) (Attributes.mem_entries_of_get? hv))

/-- What changed is what the other attributes lack or give another value. -/
theorem Attributes.mem_changedFrom_iff {a b : Attributes} {name : String} {v : Value} :
    (name, v) ∈ (a.changedFrom b).entries ↔ a.get? name = some v ∧ b.get? name ≠ some v := by
  show (name, v) ∈ a.entries.filter _ ↔ _
  rw [List.mem_filter, bne_iff_ne]
  exact and_congr_left' ⟨fun hm => Assoc.get?_of_mem a.nodup hm, Attributes.mem_entries_of_get?⟩

theorem Attributes.get?_changedFrom_eq_some_iff {a b : Attributes} {name : String} {v : Value} :
    (a.changedFrom b).get? name = some v ↔ a.get? name = some v ∧ b.get? name ≠ some v :=
  ⟨fun h => mem_changedFrom_iff.1 (mem_entries_of_get? h),
    fun h => Assoc.get?_of_mem (a.changedFrom b).nodup (mem_changedFrom_iff.2 h)⟩

theorem Attributes.changedFrom_self (a : Attributes) : (a.changedFrom a).entries = [] := by
  refine List.eq_nil_iff_forall_not_mem.2 fun p hp => ?_
  obtain ⟨hv, hn⟩ := Attributes.mem_changedFrom_iff.1 hp
  exact hn hv

theorem Attributes.sameAs_self (a : Attributes) : a.sameAs a = true := by
  unfold Attributes.sameAs
  rw [Bool.and_eq_true]
  exact ⟨beq_self_eq_true _, List.all_eq_true.2 fun p hp => beq_iff_eq.2 (Assoc.get?_of_mem a.nodup hp)⟩

end SqlMapper
