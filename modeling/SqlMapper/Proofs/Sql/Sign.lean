import Mathlib.Data.List.Infix
import SqlMapper.Proofs.Sql.Bindings
import SqlMapper.Proofs.Sql.Legible
/-!
# Sign — the text of a statement with its values in place

The text of a statement asks for values and the bindings give them.  Put together, each value stands where its
placeholder stood, and neither the number nor the mark of the placeholder is left: what is written is a list of signs,
which are characters, quoted segments and values.  The signs of legible tokens can be found from their text and their
bindings (`signs_eq_of_layout_eq`).
-/
namespace SqlMapper

open Lexeme (lex)

inductive Sign where
  | char (c : Char)
  /-- A quoted segment, its doubled quotes read as one. -/
  | segment (text : List Char)
  | value (v : Value)
  deriving DecidableEq

namespace Sign

def chars (text : String) : List Sign := text.toList.map char

theorem char_injective : Function.Injective char := fun _ _ h => by
  cases h
  rfl

theorem value_injective : Function.Injective value := fun _ _ h => by
  cases h
  rfl

/-- Of two texts that go on to the same signs, one is a part of the other. -/
theorem isPrefix_of_chars_append {text text' : String} {rest rest' : List Sign}
    (h : chars text ++ rest = chars text' ++ rest') : text.toList <+: text'.toList ∨ text'.toList <+: text.toList := by
  have hp : chars text <+: chars text' ++ rest' := ⟨rest, h⟩
  have hor := List.prefix_or_prefix_of_prefix hp (List.prefix_append (chars text') rest')
  exact hor.imp (List.prefix_map_iff_of_injective char_injective).1 (List.prefix_map_iff_of_injective char_injective).1

theorem char_of_chars_append {text : String} {c : Char} {cs : List Char} {rest : List Sign} (h : text.toList = c :: cs) :
    chars text ++ rest = char c :: (cs.map char ++ rest) := by
  rw [chars, h]
  rfl

end Sign

namespace Token

/-- What is written for a token. -/
def sign (d : Dialect) : Token → List Sign
  | word text => Sign.chars text
  | raw sql => Sign.chars sql
  | number n => (digits n.toNat).map .char
  | ident segment => [.segment segment.toList]
  | bound v => [.value (binding d v)]

def signs (d : Dialect) (tokens : List Token) : List Sign := tokens.flatMap (sign d)

variable (d : Dialect)

@[simp] theorem signs_nil : signs d [] = [] := rfl

@[simp] theorem signs_cons (t : Token) (rest : List Token) : signs d (t :: rest) = sign d t ++ signs d rest := rfl

@[simp] theorem signs_append (a b : List Token) : signs d (a ++ b) = signs d a ++ signs d b := List.flatMap_append

end Token

/-- The lexemes with the values in the places of their placeholders, in order. -/
def Lexeme.fill : List Lexeme → List Value → List Sign
  | [], _ => []
  | char c :: rest, values => .char c :: fill rest values
  | quoted segment :: rest, values => .segment segment :: fill rest values
  | placeholder _ _ :: rest, v :: values => .value v :: fill rest values
  | placeholder _ _ :: rest, [] => fill rest []

theorem Lexeme.fill_chars (rest : List Lexeme) (values : List Value) :
    ∀ cs : List Char, fill (cs.map char ++ rest) values = cs.map .char ++ fill rest values
  | [] => rfl
  | c :: cs => congrArg (Sign.char c :: ·) (fill_chars rest values cs)

theorem Lexeme.fill_atPosition (d : Dialect) (n : Nat) (rest : List Lexeme) (v : Value) (values : List Value) :
    fill (atPosition d n :: rest) (v :: values) = .value v :: fill rest values := by
  cases d <;> rfl

theorem Token.fill_lexemes (d : Dialect) :
    ∀ (tokens : List Token) (before : Nat), Lexeme.fill (lexemes d before tokens) (bindings d tokens) = signs d tokens
  | [], _ => rfl
  | word text :: rest, before => by
    rw [lexemes, bindings_word, Lexeme.fill_chars, fill_lexemes d rest before]
    rfl
  | raw sql :: rest, before => by
    rw [lexemes, bindings_raw, Lexeme.fill_chars, fill_lexemes d rest before]
    rfl
  | number n :: rest, before => by
    rw [lexemes, bindings_number, Lexeme.fill_chars, fill_lexemes d rest before]
    rfl
  | ident segment :: rest, before => by
    rw [lexemes, bindings_ident, Lexeme.fill, fill_lexemes d rest before]
    rfl
  | bound v :: rest, before => by
    rw [lexemes, bindings_bound, Lexeme.fill_atPosition, fill_lexemes d rest (before + 1)]
    rfl

/-- **Text and bindings determine what is written.** -/
theorem Token.signs_eq_of_layout_eq {d : Dialect} {tokens tokens' : List Token} (h : legible tokens = true)
    (h' : legible tokens' = true) (hl : layout d 0 tokens = layout d 0 tokens')
    (hb : bindings d tokens = bindings d tokens') : signs d tokens = signs d tokens' := by
  have hlex : lexemes d 0 tokens = lexemes d 0 tokens' := by
    rw [← lex_layout d tokens 0 h, ← lex_layout d tokens' 0 h', hl]
  rw [← fill_lexemes d tokens 0, ← fill_lexemes d tokens' 0, hlex, hb]

end SqlMapper
