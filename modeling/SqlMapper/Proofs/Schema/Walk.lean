import Mathlib.Data.List.Chain
import Mathlib.Logic.Relation
import SqlMapper.Schema.Basic
/-!
# Walk — what a walk over relationships finds

A relationship and the names that it waits for are the edges of a graph.  The walk finishes a name after everything
that it waits for, so each finished name waits for earlier ones only, and no cycle goes through it (`Settled`).  The
path holds the names that the walk is inside of, each of which waits for the one before it.  A name that is on the path
already therefore closes a cycle (`visit_error`), and for a model without cycles every walk succeeds.
-/
namespace SqlMapper.Model

variable {m : Model}

/-- The first name is that of a relationship that lists the second. -/
def WaitsFor (m : Model) (a b : String) : Prop := ∃ r, m.relation? a = some r ∧ b ∈ r.after

def Acyclic (m : Model) : Prop := ∀ name, ¬ Relation.TransGen m.WaitsFor name name

/-- Every name that is waited for is declared. -/
def Declares (m : Model) : Prop := ∀ a b, m.WaitsFor a b → b ∈ m.relationNames

theorem mem_relationNames_of_waitsFor {a b : String} (h : m.WaitsFor a b) : a ∈ m.relationNames := by
  obtain ⟨r, hr, -⟩ := h
  exact mem_relationNames_of_relation? hr

theorem exists_relation?_of_mem {name : String} (h : name ∈ m.relationNames) : ∃ r, m.relation? name = some r := by
  obtain ⟨r, hr, rfl⟩ := List.mem_map.1 h
  exact ⟨r, relation?_eq_some_iff.2 ⟨hr, rfl⟩⟩

/-! ## Finished names -/

/-- Each name waits for names after it only.  The walk puts a name it finishes in front. -/
def Settled (m : Model) : List String → Prop
  | [] => True
  | name :: rest => (∀ next, m.WaitsFor name next → next ∈ rest) ∧ Settled m rest

theorem Settled.mem_of_waitsFor {a b : String} (hab : m.WaitsFor a b) :
    ∀ {names : List String}, m.Settled names → a ∈ names → b ∈ names
  | c :: rest, h, ha => by
    rcases List.mem_cons.1 ha with rfl | ha
    · exact List.mem_cons_of_mem _ (h.1 b hab)
    · exact List.mem_cons_of_mem _ (h.2.mem_of_waitsFor hab ha)

theorem Settled.mem_of_transGen {names : List String} (h : m.Settled names) {a b : String} (ha : a ∈ names)
    (hab : Relation.TransGen m.WaitsFor a b) : b ∈ names := by
  induction hab with
  | single hb => exact h.mem_of_waitsFor hb ha
  | tail _ hb ih => exact h.mem_of_waitsFor hb ih

/-- No cycle goes through a settled name: it would come back to the name from what is settled without it. -/
theorem Settled.not_transGen :
    ∀ {names : List String}, m.Settled names → ∀ a ∈ names, ¬ Relation.TransGen m.WaitsFor a a
  | c :: rest, h, a, ha, hcycle => by
    rcases List.mem_cons.1 ha with rfl | ha
    · obtain ⟨b, hab, hba⟩ := Relation.TransGen.head'_iff.1 hcycle
      have hb : b ∈ rest := h.1 b hab
      have ha : a ∈ rest := by
        rcases Relation.reflTransGen_iff_eq_or_transGen.1 hba with rfl | hba
        · exact hb
        · exact h.2.mem_of_transGen hb hba
      exact h.2.not_transGen a ha hcycle
    · exact h.2.not_transGen a ha hcycle

/-- What walking the names leads to from finished names. -/
structure Finishes (m : Model) (names before after : List String) : Prop where
  settled : m.Settled after
  kept : ∀ n ∈ before, n ∈ after
  added : ∀ n ∈ names, n ∈ after

theorem finishes_foldlM {f : List String → String → Except Error (List String)}
    (hf : ∀ next before after, m.Settled before → f before next = .ok after → m.Finishes [next] before after) :
    ∀ {names before after : List String}, m.Settled before → names.foldlM f before = .ok after →
      m.Finishes names before after
  | [], before, after, hb, h => by
    cases h
    exact ⟨hb, fun _ hn => hn, nofun⟩
  | next :: names, before, after, hb, h => by
    rw [List.foldlM_cons] at h
    cases hn : f before next with
    | error e =>
      rw [hn] at h
      cases h
    | ok middle =>
      rw [hn] at h
      have first := hf next before middle hb hn
      have rest := finishes_foldlM hf first.settled h
      refine ⟨rest.settled, fun n hm => rest.kept n (first.kept n hm), List.forall_mem_cons.2 ⟨?_, rest.added⟩⟩
      exact rest.kept next (first.added next List.mem_cons_self)

/-! ## One step of the walk -/

theorem visit_of_done {path done : List String} {name : String} (h : name ∈ done) : m.visit path name done = .ok done := by
  rw [visit, if_pos h]

theorem visit_of_mem_path {path done : List String} {name : String} (hdone : name ∉ done) (hpath : name ∈ path) :
    m.visit path name done = .error (Cause.invalidDependency m.name (path.headD name) name) := by
  rw [visit, if_neg hdone, dif_pos hpath]

theorem visit_of_stray {path done : List String} {name : String} (hdone : name ∉ done) (hpath : name ∉ path)
    (hr : m.relation? name = none) : m.visit path name done = .error (Cause.strayName m.name name) := by
  rw [visit, if_neg hdone, dif_neg hpath]
  split
  · rfl
  · simp_all

theorem visit_of_relation? {path done : List String} {name : String} {r : Relation} (hdone : name ∉ done)
    (hpath : name ∉ path) (hr : m.relation? name = some r) :
    m.visit path name done =
      (r.after.foldlM (fun done next => m.visit (name :: path) next done) done).map (name :: ·) := by
  rw [visit, if_neg hdone, dif_neg hpath]
  split
  · simp_all
  · rename_i r' hr'
    rw [hr] at hr'
    cases hr'
    rfl

/-! ## Walks that succeed -/

theorem visit_finishes {path done : List String} {name : String} :
    ∀ {after : List String}, m.Settled done → m.visit path name done = .ok after → m.Finishes [name] done after := by
  induction path, name, done using Model.visit.induct m with
  | case1 path name done hdone =>
    intro after hs h
    rw [visit_of_done hdone] at h
    cases h
    exact ⟨hs, fun _ hn => hn, List.forall_mem_singleton.2 hdone⟩
  | case2 path name done hdone hpath =>
    intro after hs h
    rw [visit_of_mem_path hdone hpath] at h
    cases h
  | case3 path name done hdone hpath hr =>
    intro after hs h
    rw [visit_of_stray hdone hpath hr] at h
    cases h
  | case4 path name done hdone hpath r hr ih =>
    intro after hs h
    rw [visit_of_relation? hdone hpath hr] at h
    cases hf : r.after.foldlM (fun done next => m.visit (name :: path) next done) done with
    | error e =>
      rw [hf] at h
      cases h
    | ok below =>
      rw [hf] at h
      cases h
      have hbelow := finishes_foldlM (fun next before after hb hn => ih before next hb hn) hs hf
      have hname : ∀ next, m.WaitsFor name next → next ∈ below := by
        rintro next ⟨r', hr', hmem⟩
        rw [hr] at hr'
        cases hr'
        exact hbelow.added next hmem
      exact ⟨⟨hname, hbelow.settled⟩, fun n hn => List.mem_cons_of_mem _ (hbelow.kept n hn),
        List.forall_mem_singleton.2 List.mem_cons_self⟩

/-! ## Walks that fail -/

theorem exists_error_of_foldlM {α β ε : Type} {f : β → α → Except ε β} {e : ε} :
    ∀ {as : List α} {b : β}, as.foldlM f b = .error e → ∃ a ∈ as, ∃ b', f b' a = .error e
  | a :: as, b, h => by
    rw [List.foldlM_cons] at h
    cases hb : f b a with
    | error e' =>
      rw [hb] at h
      cases h
      exact ⟨a, List.mem_cons_self, b, hb⟩
    | ok b' =>
      rw [hb] at h
      obtain ⟨a', ha', hf⟩ := exists_error_of_foldlM h
      exact ⟨a', List.mem_cons_of_mem _ ha', hf⟩

/-- Every name on the path leads to the name that the walk is at. -/
theorem reflTransGen_of_mem_path {name : String} :
    ∀ {path : List String} {last : String}, (last :: path).IsChain (fun a b => m.WaitsFor b a) → name ∈ last :: path →
      Relation.ReflTransGen m.WaitsFor name last
  | [], last, _, h => by
    rw [List.mem_singleton.1 h]
  | before :: path, last, hchain, h => by
    rw [List.isChain_cons_cons] at hchain
    rcases List.mem_cons.1 h with rfl | h
    · exact .refl
    · exact (reflTransGen_of_mem_path hchain.2 h).tail hchain.1

/-- Where every name is declared, a walk fails by a name that is waited for and waits for the name that waits for it. -/
theorem visit_error (hd : m.Declares) {path done : List String} {name : String} {e : Error} :
    name ∈ m.relationNames → (name :: path).IsChain (fun a b => m.WaitsFor b a) → m.visit path name done = .error e →
      ∃ a b, e = .ofCause (.invalidDependency m.name a b) ∧ m.WaitsFor a b ∧ Relation.ReflTransGen m.WaitsFor b a := by
  induction path, name, done using Model.visit.induct m with
  | case1 path name done hdone =>
    intro _ _ h
    rw [visit_of_done hdone] at h
    cases h
  | case2 path name done hdone hpath =>
    intro _ hchain h
    rw [visit_of_mem_path hdone hpath] at h
    cases h
    cases path with
    | nil => cases hpath
    | cons last path =>
      rw [List.isChain_cons_cons] at hchain
      exact ⟨last, name, rfl, hchain.1, reflTransGen_of_mem_path hchain.2 hpath⟩
  | case3 path name done hdone hpath hr =>
    intro hname _ _
    obtain ⟨r, hr'⟩ := exists_relation?_of_mem hname
    rw [hr] at hr'
    cases hr'
  | case4 path name done hdone hpath r hr ih =>
    intro hname hchain h
    rw [visit_of_relation? hdone hpath hr] at h
    cases hf : r.after.foldlM (fun done next => m.visit (name :: path) next done) done with
    | ok below =>
      rw [hf] at h
      cases h
    | error e' =>
      rw [hf] at h
      cases h
      obtain ⟨next, hnext, done', hv⟩ := exists_error_of_foldlM hf
      have hwaits : m.WaitsFor name next := ⟨r, hr, hnext⟩
      exact ih done' next (hd name next hwaits) (List.isChain_cons_cons.2 ⟨hwaits, hchain⟩) hv

/-! ## Walks from every name -/

theorem acyclic_of_visitAll {after : List String} (h : m.visitAll m.relationNames = .ok after) : m.Acyclic := by
  have hnil : m.Settled [] := trivial
  have hf := finishes_foldlM (fun next before after hb hn => visit_finishes hb hn) hnil h
  intro name hcycle
  obtain ⟨next, hwaits, -⟩ := Relation.TransGen.head'_iff.1 hcycle
  exact hf.settled.not_transGen name (hf.added name (mem_relationNames_of_waitsFor hwaits)) hcycle

theorem visitAll_error (hd : m.Declares) {e : Error} (h : m.visitAll m.relationNames = .error e) :
    ∃ a b, e = .ofCause (.invalidDependency m.name a b) ∧ m.WaitsFor a b ∧ Relation.ReflTransGen m.WaitsFor b a := by
  obtain ⟨name, hname, done, hv⟩ := exists_error_of_foldlM h
  exact visit_error hd hname (.singleton _) hv

end SqlMapper.Model
