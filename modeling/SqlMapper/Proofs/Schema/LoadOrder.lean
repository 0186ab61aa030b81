import Mathlib.Data.Fintype.EquivFin
import Mathlib.Data.Fintype.Sets
import Mathlib.Data.List.FinRange
import Mathlib.Order.WellFounded
import SqlMapper.Proofs.Schema.Verified
import SqlMapper.Schema.EagerOrder
/-!
# LoadOrder — dependencies first, else as requested

Names are placed one after the other, each time the first of those left that waits for none of them.  Where the
dependencies have no cycle there is such a name at every step (`Model.Acyclic.exists_isReady`).  So no name is placed
before one that it waits for, and compared place by place no other arrangement of the requests that respects the
dependencies comes before this one (`Schema.eagerOrder_arranges`).
-/
namespace SqlMapper

/-! ## The first that is ready -/

section

variable {α : Type} {ready : α → Bool}

/-- What is taken is ready, and nothing before it was. -/
theorem takeReady_split :
    ∀ {pending : List α} {a : α} {others : List α}, takeReady ready pending = some (a, others) →
      ∃ skipped rest, pending = skipped ++ a :: rest ∧ others = skipped ++ rest ∧ ready a = true ∧
        ∀ b ∈ skipped, ready b = false
  | [], _, _, h => by cases h
  | b :: rest, a, others, h => by
    rw [takeReady] at h
    split at h
    · rename_i hb
      cases h
      exact ⟨[], rest, rfl, rfl, hb, List.forall_mem_nil _⟩
    · rename_i hb
      obtain ⟨⟨c, more⟩, hc, hp⟩ := Option.map_eq_some_iff.1 h
      cases hp
      obtain ⟨skipped, behind, rfl, rfl, hready, hskipped⟩ := takeReady_split hc
      exact ⟨b :: skipped, behind, rfl, rfl, hready, List.forall_mem_cons.2 ⟨Bool.not_eq_true _ ▸ hb, hskipped⟩⟩

theorem takeReady_isSome_iff : ∀ {pending : List α}, (takeReady ready pending).isSome ↔ ∃ a ∈ pending, ready a = true
  | [] => by simp [takeReady]
  | b :: rest => by
    have ih : (takeReady ready rest).isSome ↔ ∃ a ∈ rest, ready a = true := takeReady_isSome_iff
    rw [takeReady]
    split
    · rename_i hb
      simp [hb]
    · rename_i hb
      rw [Option.isSome_map, ih]
      simp [hb]

theorem takeReady_congr {ready' : α → Bool} :
    ∀ {pending : List α}, (∀ a ∈ pending, ready a = ready' a) → takeReady ready pending = takeReady ready' pending
  | [], _ => rfl
  | b :: rest, h => by
    rw [List.forall_mem_cons] at h
    rw [takeReady, takeReady, h.1, takeReady_congr h.2]

theorem perm_takeReady {pending : List α} {a : α} {others : List α} (h : takeReady ready pending = some (a, others)) :
    pending.Perm (a :: others) := by
  obtain ⟨skipped, rest, rfl, rfl, -, -⟩ := takeReady_split h
  exact List.perm_middle

theorem takeReady_map {β : Type} (f : α → β) (ready : β → Bool) :
    ∀ as : List α, takeReady ready (as.map f) =
      (takeReady (fun a => ready (f a)) as).map fun taken => (f taken.1, taken.2.map f)
  | [] => rfl
  | a :: as => by
    rw [List.map_cons, takeReady, takeReady]
    split
    · rfl
    · rw [takeReady_map f ready as, Option.map_map, Option.map_map]
      rfl

end

namespace Model

variable {α : Type} {m : Model}

/-! ## One after the other -/

theorem perm_eagerOrderBy (m : Model) (name : α → String) (pending : List α) :
    (m.eagerOrderBy name pending).Perm pending := by
  fun_induction Model.eagerOrderBy m name pending with
  | case1 => exact List.Perm.refl _
  | case2 a rest b others h ih => exact (ih.cons b).trans (perm_takeReady h).symm
  | case3 a rest h ih => exact ih.cons a

theorem eagerOrderBy_singleton (m : Model) (name : α → String) (a : α) : m.eagerOrderBy name [a] = [a] :=
  List.perm_singleton.1 (m.perm_eagerOrderBy name [a])

theorem eagerOrderBy_cons (m : Model) (name : α → String) (a : α) (rest : List α) :
    m.eagerOrderBy name (a :: rest) =
      match takeReady (fun b => m.isReady ((a :: rest).map name) (name b)) (a :: rest) with
      | some taken => taken.1 :: m.eagerOrderBy name taken.2
      | none => a :: m.eagerOrderBy name rest := by
  rw [Model.eagerOrderBy]
  split <;> rename_i h <;> rw [h]

theorem eagerOrderBy_map {β : Type} (m : Model) (f : α → β) (name : β → String) (as : List α) :
    m.eagerOrderBy name (as.map f) = (m.eagerOrderBy (fun a => name (f a)) as).map f := by
  have hnames (as : List α) : (as.map f).map name = as.map fun a => name (f a) := List.map_map
  fun_induction Model.eagerOrderBy m (fun a => name (f a)) as with
  | case1 => rw [List.map_nil, Model.eagerOrderBy]
  | case2 a rest b others h ih =>
    rw [List.map_cons, eagerOrderBy_cons, ← List.map_cons, hnames, takeReady_map, h, List.map_cons, ← ih]
    rfl
  | case3 a rest h ih =>
    rw [List.map_cons, eagerOrderBy_cons, ← List.map_cons, hnames, takeReady_map, h, List.map_cons, ← ih]
    rfl

/-- Ordering elements by their names orders the names. -/
theorem map_eagerOrderBy (m : Model) (name : α → String) (as : List α) :
    (m.eagerOrderBy name as).map name = m.eagerOrder (as.map name) :=
  (m.eagerOrderBy_map name (fun n => n) as).symm

/-! ## Names that wait -/

theorem isReady_iff {pending : List String} {name : String} :
    m.isReady pending name = true ↔ ∀ other ∈ pending, ¬ m.WaitsFor name other := by
  unfold isReady WaitsFor
  cases m.relation? name with
  | none => simp
  | some r =>
    simp only [List.all_eq_true, Bool.not_eq_true', List.contains_eq_mem, decide_eq_false_iff_not, Option.some.injEq,
      exists_eq_left']
    exact ⟨fun h other hp ha => h other ha hp, fun h other ha hp => h other hp ha⟩

/-- **Without a cycle some name waits for none of them**: following the dependencies among finitely many names comes to
an end. -/
theorem Acyclic.exists_isReady (hm : m.Acyclic) {pending : List String} (hne : pending ≠ []) :
    ∃ name ∈ pending, m.isReady pending name = true := by
  let waitedFor : {name // name ∈ pending} → {name // name ∈ pending} → Prop := fun b a =>
    Relation.TransGen m.WaitsFor a.1 b.1
  have htrans : IsTrans _ waitedFor := ⟨fun _ _ _ hab hbc => hbc.trans hab⟩
  have hirrefl : Std.Irrefl waitedFor := ⟨fun a => hm a.1⟩
  have hwf : WellFounded waitedFor := Finite.wellFounded_of_trans_of_irrefl waitedFor
  obtain ⟨first, hfirst⟩ := List.exists_mem_of_ne_nil pending hne
  obtain ⟨⟨name, hname⟩, -, hlast⟩ := hwf.has_min Set.univ ⟨⟨first, hfirst⟩, trivial⟩
  exact ⟨name, hname, isReady_iff.2 fun other ho hw => hlast ⟨other, ho⟩ trivial (.single hw)⟩

/-- No name waits for one behind it. -/
def Respects (m : Model) (names : List String) : Prop := names.Pairwise fun a b => ¬ m.WaitsFor a b

theorem Acyclic.takeReady_ne_none (hm : m.Acyclic) (name : α → String) {pending : List α} (hne : pending ≠ []) :
    takeReady (fun a => m.isReady (pending.map name) (name a)) pending ≠ none := by
  obtain ⟨n, hn, hready⟩ := hm.exists_isReady (mt List.map_eq_nil_iff.1 hne)
  obtain ⟨a, ha, rfl⟩ := List.mem_map.1 hn
  exact Option.ne_none_iff_isSome.2 (takeReady_isSome_iff.2 ⟨a, ha, hready⟩)

theorem Acyclic.respects_eagerOrderBy (hm : m.Acyclic) (name : α → String) (pending : List α) :
    m.Respects ((m.eagerOrderBy name pending).map name) := by
  fun_induction Model.eagerOrderBy m name pending with
  | case1 => exact .nil
  | case2 a rest b others h ih =>
    obtain ⟨skipped, behind, hsplit, rfl, hready, -⟩ := takeReady_split h
    rw [List.map_cons]
    refine List.pairwise_cons.2 ⟨fun other ho => isReady_iff.1 hready other ?_, ih⟩
    have hleft : (skipped ++ behind).Sublist (a :: rest) := hsplit ▸ (List.sublist_cons_self b behind).append_left skipped
    have hperm := (m.perm_eagerOrderBy name (skipped ++ behind)).map name
    exact (hleft.map name).subset (hperm.subset ho)
  | case3 a rest h ih => exact absurd h (hm.takeReady_ne_none name (List.cons_ne_nil a rest))

theorem Acyclic.eagerOrderBy_of_respects (hm : m.Acyclic) (name : α → String) :
    ∀ {pending : List α}, m.Respects (pending.map name) → m.eagerOrderBy name pending = pending
  | [], _ => by rw [Model.eagerOrderBy]
  | a :: rest, h => by
    obtain ⟨hfirst, hrest⟩ := List.pairwise_cons.1 h
    have hready : m.isReady ((a :: rest).map name) (name a) = true :=
      isReady_iff.2 (List.forall_mem_cons.2 ⟨fun hself => hm _ (.single hself), hfirst⟩)
    rw [Model.eagerOrderBy_cons, takeReady, if_pos hready]
    exact congrArg (a :: ·) (hm.eagerOrderBy_of_respects name hrest)

/-- Only what the names wait for among themselves matters. -/
theorem eagerOrderBy_congr {m' : Model} (name : α → String) :
    ∀ pending : List α, (∀ a ∈ pending, ∀ b ∈ pending, m'.WaitsFor (name a) (name b) ↔ m.WaitsFor (name a) (name b)) →
      m'.eagerOrderBy name pending = m.eagerOrderBy name pending
  | [], _ => by rw [Model.eagerOrderBy, Model.eagerOrderBy]
  | a :: rest, h => by
    have hready : ∀ b ∈ a :: rest,
        m'.isReady ((a :: rest).map name) (name b) = m.isReady ((a :: rest).map name) (name b) := by
      intro b hb
      rw [Bool.eq_iff_iff, isReady_iff, isReady_iff]
      simp only [List.forall_mem_map]
      exact forall₂_congr fun c hc => not_congr (h b hb c hc)
    rw [Model.eagerOrderBy_cons, Model.eagerOrderBy_cons, takeReady_congr hready]
    cases htaken : takeReady (fun b => m.isReady ((a :: rest).map name) (name b)) (a :: rest) with
    | none =>
      have hrest : ∀ b ∈ rest, b ∈ a :: rest := fun b hb => List.mem_cons_of_mem _ hb
      exact congrArg _ (eagerOrderBy_congr name rest fun b hb c hc => h b (hrest b hb) c (hrest c hc))
    | some taken =>
      have hothers : ∀ b ∈ taken.2, b ∈ a :: rest := fun b hb =>
        (perm_takeReady htaken).mem_iff.2 (List.mem_cons_of_mem _ hb)
      exact congrArg _ (eagerOrderBy_congr name taken.2 fun b hb c hc => h b (hothers b hb) c (hothers c hc))
termination_by pending => pending.length
decreasing_by
  · simp
  · have := length_takeReady htaken
    simp only [List.length_cons] at this ⊢
    omega

/-! ## The least arrangement -/

/-- What comes first in an arrangement that respects the dependencies waits for nothing in it. -/
theorem Acyclic.isReady_of_respects (hm : m.Acyclic) {name : α → String} {first : α} {rest pending : List α}
    (h : m.Respects ((first :: rest).map name)) (hp : (first :: rest).Perm pending) :
    m.isReady (pending.map name) (name first) = true := by
  refine isReady_iff.2 fun other ho hw => ?_
  have hmem : other ∈ (first :: rest).map name := (hp.map name).mem_iff.2 ho
  rcases List.mem_cons.1 hmem with rfl | hmem
  · exact hm _ (.single hw)
  · exact (List.pairwise_cons.1 h).1 other hmem hw

/-- **Placing the first ready name each time gives the least arrangement**: where another one differs for the first
time, it has a later element, since all earlier ones that are left still wait. -/
theorem Acyclic.eagerOrderBy_least [LinearOrder α] (hm : m.Acyclic) (name : α → String) (pending : List α) :
    pending.Pairwise (· < ·) → ∀ order : List α, order.Perm pending → m.Respects (order.map name) →
      m.eagerOrderBy name pending = order ∨ List.Lex (· < ·) (m.eagerOrderBy name pending) order := by
  fun_induction Model.eagerOrderBy m name pending with
  | case1 => exact fun _ order hp _ => .inl (List.perm_nil.1 hp).symm
  | case2 a rest b others h ih =>
    rintro hsorted (_ | ⟨first, order⟩) hperm hrespects
    · cases List.nil_perm.1 hperm
    obtain ⟨skipped, behind, hsplit, rfl, -, hskipped⟩ := takeReady_split h
    have hready := hm.isReady_of_respects hrespects hperm
    rw [hsplit] at hperm hsorted hready
    rcases List.mem_append.1 (hperm.subset List.mem_cons_self) with hearlier | hmem
    · have hnot := hskipped first hearlier
      rw [hsplit, hready] at hnot
      cases hnot
    rcases List.mem_cons.1 hmem with rfl | hbehind
    · have hothers : (skipped ++ behind).Pairwise (· < ·) :=
        hsorted.sublist ((List.sublist_cons_self first behind).append_left skipped)
      have hrest : order.Perm (skipped ++ behind) := List.Perm.cons_inv (hperm.trans List.perm_middle)
      rcases ih hothers order hrest (List.pairwise_cons.1 hrespects).2 with heq | hlex
      · exact .inl (congrArg _ heq)
      · exact .inr (.cons hlex)
    · have hless : b < first := (List.pairwise_cons.1 (List.pairwise_append.1 hsorted).2.1).1 first hbehind
      exact .inr (.rel hless)
  | case3 a rest h ih => exact absurd h (hm.takeReady_ne_none name (List.cons_ne_nil a rest))

/-- The positions of a list, each once, in an order in which no name waits for one behind it. -/
structure Arrangement (m : Model) (requested : List String) (positions : List (Fin requested.length)) : Prop where
  perm : positions.Perm (List.finRange requested.length)
  respects : m.Respects (positions.map requested.get)

end Model

/-! ## Models of a schema -/

namespace Schema

variable {s : Schema} {m : Model}

theorem acyclic_of_mem (hm : m ∈ s.models) : m.Acyclic := (verifyModels_eq_ok_iff.1 s.verified).acyclic m hm

/-- **Relationships are loaded in the least order that respects their dependencies.**  The requested names are placed,
each as often as it was requested, none before one that it waits for, and where the dependencies leave a choice the
position in the request decides.  So a request that respects the dependencies is kept, and dependencies on names that
were not requested change nothing.  There is a name that can be placed at every step. -/
theorem eagerOrder_arranges (hm : m ∈ s.models) (requested : List String) :
    (m.eagerOrder requested).Perm requested ∧ m.Respects (m.eagerOrder requested) ∧
      (∃ positions, m.Arrangement requested positions ∧ m.eagerOrder requested = positions.map requested.get ∧
        ∀ other, m.Arrangement requested other → positions = other ∨ List.Lex (· < ·) positions other) ∧
      (m.Respects requested → m.eagerOrder requested = requested) ∧
      (∀ m' : Model, (∀ a ∈ requested, ∀ b ∈ requested, m'.WaitsFor a b ↔ m.WaitsFor a b) →
        m'.eagerOrder requested = m.eagerOrder requested) ∧
      ∀ pending, pending ≠ [] → (takeReady (m.isReady pending) pending).isSome := by
  have hacyclic := acyclic_of_mem hm
  have hget : (List.finRange requested.length).map requested.get = requested := List.map_get_finRange requested
  have hpositions := m.map_eagerOrderBy requested.get (List.finRange requested.length)
  rw [hget] at hpositions
  have hrespects := hacyclic.respects_eagerOrderBy requested.get (List.finRange requested.length)
  refine ⟨m.perm_eagerOrderBy _ requested, hpositions ▸ hrespects, ?_, fun h => ?_, fun m' h => ?_, fun pending hne => ?_⟩
  · refine ⟨_, ⟨m.perm_eagerOrderBy _ _, hrespects⟩, hpositions.symm, fun other h => ?_⟩
    exact hacyclic.eagerOrderBy_least requested.get _ (List.pairwise_lt_finRange _) other h.perm h.respects
  · refine hacyclic.eagerOrderBy_of_respects _ ?_
    rwa [List.map_id']
  · exact Model.eagerOrderBy_congr _ requested h
  · obtain ⟨name, hname, hready⟩ := hacyclic.exists_isReady hne
    exact takeReady_isSome_iff.2 ⟨name, hname, hready⟩

/-- Posts whose comments wait for their tags, and these for their likes. -/
def posts : Model :=
  (((Model.conventional 0 "post").declare ⟨"comments", 0, .hasMany "post_id", ["tags"]⟩).declare
    ⟨"tags", 0, .hasMany "post_id", ["likes"]⟩).declare ⟨"likes", 0, .hasMany "post_id", []⟩

def ofPosts : Schema := ⟨[posts], by decide, by decide +kernel⟩

/-- Comments go behind the tags, and the tags need not wait for likes that nobody asked for. -/
theorem eagerOrder_arranges_posts :
    posts ∈ ofPosts.models ∧ posts.eagerOrder ["comments", "authors", "tags", "comments"] =
        ["authors", "tags", "comments", "comments"] ∧
      ∃ positions, posts.Arrangement ["comments", "authors", "tags", "comments"] positions ∧
        posts.eagerOrder ["comments", "authors", "tags", "comments"] =
          positions.map ["comments", "authors", "tags", "comments"].get ∧
        ∀ other, posts.Arrangement ["comments", "authors", "tags", "comments"] other →
          positions = other ∨ List.Lex (· < ·) positions other := by
  have hm : posts ∈ ofPosts.models := List.mem_singleton_self _
  obtain ⟨-, -, hleast, -, -, -⟩ := eagerOrder_arranges hm ["comments", "authors", "tags", "comments"]
  exact ⟨hm, by decide +kernel, hleast⟩

end Schema

end SqlMapper
