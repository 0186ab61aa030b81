import Mathlib.Data.List.Infix
import SqlMapper.Proofs.Sql.Bindings
import SqlMapper.Proofs.Sql.Legible
/-!
# Reader — texts taken apart from the left

A reader takes something off the front of a text and leaves the rest.  Where a piece of text ends may depend on what
follows: a quoted segment ends at a quote that is not doubled, a list where no further separator stands.  So the
statement that a reader reads a piece back (`Reader.Reads`) says what has to follow, and such statements are put
together as the readers are.
-/
namespace SqlMapper

open Lexeme (Ends)
open Token (layout separated bindings)

/-- A text that starts with something else does not go on with a character of the kind. -/
theorem Lexeme.ends_append {p : Char → Prop} {text : List Char} {c : Char} (hhead : text.head? = some c) (hc : ¬ p c)
    (rest : List Char) : Ends p (text ++ rest) := by
  intro c' rest' h
  obtain ⟨cs, rfl⟩ := List.head?_eq_some_iff.1 hhead
  obtain ⟨rfl, -⟩ := List.cons.inj h
  exact hc

abbrev Reader : Type → Type := StateT (List Char) Option

namespace Reader

variable {α β : Type}

/-- Takes a fixed word off. -/
def expect (word : String) : Reader Unit := fun text => (text.dropPrefix? word.toList).map fun rest => ((), rest)

/-- Takes an item off, and further ones as long as there is a separator before them. -/
def listed (separator : String) (item : Reader α) : Reader (List α) := fun text => do
  let (a, rest) ← item text
  match rest.dropPrefix? separator.toList with
  | none => some ([a], rest)
  | some next =>
    if next.length < text.length then (listed separator item next).map fun (as, rest) => (a :: as, rest) else none
termination_by text => text.length

/-- Whatever follows in the given way, the reader takes the text off as a whole, and gives the result. -/
def Reads (r : Reader α) (text : List Char) (a : α) (follows : List Char → Prop) : Prop :=
  ∀ after, follows after → r (text ++ after) = some (a, after)

/-- The word does not stand in front. -/
def Without (word : String) (after : List Char) : Prop := ¬ word.toList <+: after

/-! ## Putting readers together -/

theorem Reads.pure (a : α) (follows : List Char → Prop) : (Pure.pure a : Reader α).Reads [] a follows := fun _ _ => rfl

theorem Reads.weaken {r : Reader α} {text : List Char} {a : α} {follows follows' : List Char → Prop}
    (h : r.Reads text a follows) (himp : ∀ after, follows' after → follows after) : r.Reads text a follows' :=
  fun after ha => h after (himp after ha)

theorem Reads.bind {r : Reader α} {k : α → Reader β} {text rest : List Char} {a : α} {b : β}
    {follows follows' : List Char → Prop} (hr : r.Reads text a follows) (hk : (k a).Reads rest b follows')
    (hrest : ∀ after, follows' after → follows (rest ++ after)) : (r >>= k).Reads (text ++ rest) b follows' := by
  intro after ha
  have hfirst := hr (rest ++ after) (hrest after ha)
  rw [List.append_assoc]
  show (r (text ++ (rest ++ after))).bind (fun p => k p.1 p.2) = _
  rw [hfirst]
  exact hk after ha

/-- What a reader makes of its result in the end changes nothing about what it takes off. -/
theorem Reads.map {r : Reader α} {text : List Char} {a : α} {follows : List Char → Prop} (f : α → β)
    (hr : r.Reads text a follows) : (r >>= fun a => Pure.pure (f a)).Reads text (f a) follows := by
  have h := hr.bind (k := fun a => Pure.pure (f a)) (Reads.pure (f a) follows) fun _ ha => ha
  rwa [List.append_nil] at h

theorem Reads.orElse {r r' : Reader α} {text : List Char} {a : α} {follows : List Char → Prop}
    (hr : ∀ after, follows after → r (text ++ after) = none) (hr' : r'.Reads text a follows) :
    (r <|> r').Reads text a follows := by
  intro after ha
  show (r (text ++ after) <|> r' (text ++ after)) = _
  rw [hr after ha, hr' after ha]
  rfl

theorem Reads.orElse_left {r : Reader α} (r' : Reader α) {text : List Char} {a : α} {follows : List Char → Prop}
    (hr : r.Reads text a follows) : (r <|> r').Reads text a follows := by
  intro after ha
  show (r (text ++ after) <|> r' (text ++ after)) = _
  rw [hr after ha]
  rfl

theorem reads_expect (word : String) (follows : List Char → Prop) : (expect word).Reads word.toList () follows := by
  intro after _
  rw [expect, List.dropPrefix?_append_of_beq after (beq_self_eq_true _)]
  rfl

/-- A word may stand before anything. -/
theorem Reads.word {r : Reader α} {text : List Char} {a : α} {follows : List Char → Prop} (word : String)
    (hr : r.Reads text a follows) : (do expect word; r).Reads (word.toList ++ text) a follows :=
  (reads_expect word fun _ => True).bind hr fun _ _ => trivial

/-- A word does not stand where another text does, if neither goes on from the other. -/
theorem without_append {word : String} {text : List Char} (hword : ¬ word.toList <+: text)
    (htext : ¬ text <+: word.toList) (rest : List Char) : Without word (text ++ rest) := fun h =>
  (List.prefix_or_prefix_of_prefix h (List.prefix_append text rest)).elim hword htext

theorem dropPrefix?_eq_none {word text : List Char} (h : ¬ word <+: text) : text.dropPrefix? word = none := by
  rw [Option.eq_none_iff_forall_ne_some]
  intro rest hr
  obtain ⟨word', rfl, hword⟩ := List.dropPrefix?_eq_some_iff.1 hr
  rw [beq_iff_eq.1 hword] at h
  exact h ⟨rest, rfl⟩

theorem word_eq_none {r : Reader α} {word : String} {text : List Char} (h : Without word text) :
    (do expect word; r) text = none := by
  have hword : expect word text = none := by
    rw [expect, dropPrefix?_eq_none h]
    rfl
  show (expect word text).bind _ = none
  rw [hword, Option.bind_none]

/-! ## Lists -/

theorem listed_of_last {separator : String} {item : Reader α} {text after : List Char} {a : α}
    (hitem : item text = some (a, after)) (hafter : Without separator after) :
    listed separator item text = some ([a], after) := by
  rw [listed, hitem, Option.bind_eq_bind, Option.bind_some]
  simp only [dropPrefix?_eq_none hafter]

theorem listed_of_more {separator : String} {item : Reader α} {text next after : List Char} {a : α} {as : List α}
    (hitem : item text = some (a, separator.toList ++ next)) (hlength : next.length < text.length)
    (hmore : listed separator item next = some (as, after)) :
    listed separator item text = some (a :: as, after) := by
  rw [listed, hitem, Option.bind_eq_bind, Option.bind_some]
  simp only [List.dropPrefix?_append_of_beq next (beq_self_eq_true separator.toList), if_pos hlength, hmore,
    Option.map_some]

/-- **Parts with separators between them are read back as a list.**  Each part binds as many values as the others, so it
is laid out, and read, at a position that is known beforehand. -/
theorem reads_separated (d : Dialect) (separator : String) {item : Reader α} {follows : List Char → Prop}
    {part : β → List Token} {value : Nat → β → α} (width : Nat) (hseparator : separator.toList ≠ []) (before : Nat)
    {xs : List β} (hxs : xs ≠ []) (hwidth : ∀ x ∈ xs, (bindings d (part x)).length = width)
    (hitem : ∀ x ∈ xs, ∀ n, item.Reads (layout d n (part x)) (value n x) follows)
    (hfollows : ∀ after, follows (separator.toList ++ after)) :
    (listed separator item).Reads (layout d before (separated separator (xs.map part)))
      (xs.zipIdx.map fun x => value (before + x.2 * width) x.1)
      fun after => follows after ∧ Without separator after := by
  suffices h : ∀ k, (listed separator item).Reads (layout d (before + k * width) (separated separator (xs.map part)))
      ((xs.zipIdx k).map fun x => value (before + x.2 * width) x.1)
      fun after => follows after ∧ Without separator after by
    have h0 := h 0
    rwa [Nat.zero_mul, Nat.add_zero] at h0
  induction xs with
  | nil => exact absurd rfl hxs
  | cons x xs ih =>
    intro k after hafter
    have hx := hitem x List.mem_cons_self (before + k * width)
    cases xs with
    | nil =>
      rw [List.map_singleton, separated, List.intercalate_singleton]
      exact listed_of_last (hx after hafter.1) hafter.2
    | cons y ys =>
      have hmore := ih (List.cons_ne_nil y ys) (fun z hz => hwidth z (List.mem_cons_of_mem x hz))
        (fun z hz => hitem z (List.mem_cons_of_mem x hz)) (k + 1) after hafter
      have hnext : before + k * width + width = before + (k + 1) * width := by rw [Nat.succ_mul, Nat.add_assoc]
      rw [List.map_cons, List.map_cons, Token.separated_cons_cons, Token.layout_append, hwidth x List.mem_cons_self,
        hnext, layout, List.append_assoc, List.append_assoc]
      refine listed_of_more (hx _ (hfollows _)) ?_ hmore
      have := List.length_pos_iff.2 hseparator
      simp only [List.length_append]
      omega

/-- Parts that bind nothing are read alike at every position. -/
theorem reads_separated_unbound (d : Dialect) (separator : String) {item : Reader α} {follows : List Char → Prop}
    {part : β → List Token} {value : β → α} (hseparator : separator.toList ≠ []) (before : Nat) {xs : List β}
    (hxs : xs ≠ []) (hunbound : ∀ x ∈ xs, bindings d (part x) = [])
    (hitem : ∀ x ∈ xs, ∀ n, item.Reads (layout d n (part x)) (value x) follows)
    (hfollows : ∀ after, follows (separator.toList ++ after)) :
    (listed separator item).Reads (layout d before (separated separator (xs.map part))) (xs.map value)
      fun after => follows after ∧ Without separator after := by
  have h := reads_separated d separator 0 hseparator before hxs
    (fun x hx => List.length_eq_zero_iff.2 (hunbound x hx)) hitem hfollows
  have hvalues : (xs.zipIdx.map fun x => value x.1) = (xs.zipIdx.map Prod.fst).map value := List.map_map.symm
  rwa [hvalues, List.zipIdx_map_fst] at h

end Reader

end SqlMapper
