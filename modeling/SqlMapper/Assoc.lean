/-!
# Assoc — lists of named values in insertion order

A name that is set again keeps its place.  The view of a list is the value it gives a name; `names` is its order.
-/
namespace SqlMapper.Assoc

variable {α : Type}

def names (entries : List (String × α)) : List String := entries.map Prod.fst

def get? (entries : List (String × α)) (name : String) : Option α :=
  (entries.find? (·.1 == name)).map Prod.snd

/-- Replaces the value of a name in its place, or appends the name. -/
def insert (name : String) (value : α) : List (String × α) → List (String × α)
  | [] => [(name, value)]
  | (n, v) :: rest => if n = name then (name, value) :: rest else (n, v) :: insert name value rest

/-- Removes a name; the others keep their order. -/
def erase (name : String) (entries : List (String × α)) : List (String × α) :=
  entries.filter (·.1 != name)

theorem get?_cons (n name : String) (v : α) (rest : List (String × α)) :
    get? ((n, v) :: rest) name = if n = name then some v else get? rest name := by
  by_cases h : n = name <;> simp [get?, h]

@[simp] theorem get?_nil (name : String) : get? ([] : List (String × α)) name = none := rfl

theorem get?_insert (name other : String) (value : α) :
    ∀ entries : List (String × α),
      get? (insert name value entries) other = if name = other then some value else get? entries other
  | [] => by simp [insert, get?_cons]
  | (n, v) :: rest => by
    have ih := get?_insert name other value rest
    by_cases hn : n = name
    · subst hn
      by_cases ho : n = other <;> simp [insert, get?_cons, ho]
    · by_cases ho : n = other
      · subst ho
        simp [insert, hn, get?_cons, Ne.symm hn]
      · simp [insert, hn, get?_cons, ho, ih]

theorem get?_erase (name other : String) :
    ∀ entries : List (String × α), get? (erase name entries) other = if name = other then none else get? entries other
  | [] => by simp [erase]
  | (n, v) :: rest => by
    have ih := get?_erase name other rest
    simp only [erase] at ih
    by_cases hn : n = name
    · subst hn
      simp only [erase, List.filter_cons, bne_self_eq_false, Bool.false_eq_true, ↓reduceIte, ih, get?_cons]
      split <;> rfl
    · simp only [erase, List.filter_cons, bne_iff_ne, ne_eq, hn, not_false_eq_true, ↓reduceIte, get?_cons, ih]
      by_cases ho : n = other
      · subst ho; simp [Ne.symm hn]
      · simp [ho]

/-- A name has a value exactly when it is listed. -/
theorem get?_isSome_iff (name : String) :
    ∀ entries : List (String × α), (get? entries name).isSome ↔ name ∈ names entries
  | [] => by simp [names]
  | (n, v) :: rest => by
    have ih := get?_isSome_iff name rest
    rw [get?_cons]
    by_cases hn : n = name
    · simp [names, hn]
    · simp only [hn, ↓reduceIte, ih, names, List.map_cons, List.mem_cons, false_or, Ne.symm hn]

theorem names_insert (name : String) (value : α) :
    ∀ entries : List (String × α),
      names (insert name value entries) = if name ∈ names entries then names entries else names entries ++ [name]
  | [] => by simp [insert, names]
  | (n, v) :: rest => by
    have ih := names_insert name value rest
    by_cases hn : n = name
    · simp [insert, hn, names]
    · simp only [names] at ih
      by_cases hm : name ∈ rest.map Prod.fst <;>
        simp_all [insert, names, Ne.symm hn]

theorem nodup_names_insert (name : String) (value : α) {entries : List (String × α)} (h : (names entries).Nodup) :
    (names (insert name value entries)).Nodup := by
  rw [names_insert]
  split
  · exact h
  · rename_i hm
    exact List.nodup_append.2 ⟨h, by simp, fun a ha b hb => by
      rintro rfl
      exact hm (by simpa using (List.mem_singleton.1 hb) ▸ ha)⟩

theorem nodup_names_filter (p : String × α → Bool) {entries : List (String × α)} (h : (names entries).Nodup) :
    (names (entries.filter p)).Nodup :=
  List.Nodup.sublist (List.Sublist.map Prod.fst List.filter_sublist) h

end SqlMapper.Assoc
