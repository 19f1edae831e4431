import Mathlib.Data.List.Lex
import Mathlib.Data.String.Basic

/-!
# The order of texts by their bytes

Texts are compared character by character, and characters by their code points. A text that is
written down as UTF-8 is compared byte by byte, with the same outcome.

* `utf8` : the bytes of a text, as numbers.
* `utf8Char_append_lt` : of two characters the one with the lower code point comes first, whatever
  comes after them.

A character with a lower code point has no more bytes than one with a higher code point, and where
they have as many, the bytes hold the digits of the code points, the highest digit first. So two
different characters already differ in a byte that both have.

Main result: `utf8_le_iff`.
-/

namespace NameRegistry

/-- The bytes of a text, as numbers. -/
def utf8 (text : String) : List ℕ := text.toByteArray.data.toList.map UInt8.toNat

def utf8Char (c : Char) : List ℕ := (String.utf8EncodeChar c).map UInt8.toNat

theorem utf8_eq (text : String) : utf8 text = text.toList.flatMap utf8Char := by
  have encoded : text.toByteArray = (text.toList.flatMap String.utf8EncodeChar).toByteArray := by
    rw [← String.utf8Encode_toList, List.utf8Encode]
  rw [utf8, encoded, List.data_toByteArray, List.map_flatMap]
  rfl

/-- Two different characters differ in a byte, and the lower one has the lower byte there. -/
theorem utf8Char_append_lt {c d : Char} (h : c < d) (l m : List ℕ) :
    utf8Char c ++ l < utf8Char d ++ m := by
  have hlt : c.val.toNat < d.val.toNat := h
  have hd : d.val.toNat < 1114112 := by
    rcases d.valid with hd | ⟨-, hd⟩
    · omega
    · exact hd
  unfold utf8Char String.utf8EncodeChar
  generalize c.val.toNat = v at *
  generalize d.val.toNat = w at *
  dsimp only
  split_ifs <;> simp only [List.map_cons, List.map_nil, List.cons_append, List.nil_append,
    List.cons_lt_cons_iff, UInt8.toNat_ofNat']
  -- No byte overflows.
  all_goals simp (disch := omega) only [Nat.mod_eq_of_lt, Nat.reducePow]
  all_goals omega

theorem utf8Char_ne_nil (c : Char) : utf8Char c ≠ [] := by
  unfold utf8Char String.utf8EncodeChar
  dsimp only
  split_ifs <;> simp

theorem flatMap_utf8Char_lt {l m : List Char} (h : l < m) :
    l.flatMap utf8Char < m.flatMap utf8Char := by
  induction l generalizing m with
  | nil =>
    cases m with
    | nil => exact absurd h (lt_irrefl _)
    | cons d m =>
      rw [List.flatMap_nil, List.flatMap_cons]
      obtain ⟨b, bytes, hd⟩ := List.exists_cons_of_ne_nil (utf8Char_ne_nil d)
      rw [hd, List.cons_append]
      exact List.nil_lt_cons _ _
  | cons c l ih =>
    cases m with
    | nil => exact absurd h (List.not_lt_nil _)
    | cons d m =>
      rw [List.flatMap_cons, List.flatMap_cons]
      rcases List.cons_lt_cons_iff.1 h with hcd | ⟨rfl, hlm⟩
      · exact utf8Char_append_lt hcd _ _
      · exact List.append_left_lt (ih hlm)

theorem utf8_strictMono : StrictMono utf8 := by
  intro a b h
  rw [utf8_eq, utf8_eq]
  exact flatMap_utf8Char_lt (String.lt_iff_toList_lt.1 h)

/-- **Texts are in the order of their bytes.** -/
theorem utf8_le_iff {a b : String} : utf8 a ≤ utf8 b ↔ a ≤ b := utf8_strictMono.le_iff_le

end NameRegistry
