import NameRegistry.Text.Unprintable

/-!
# Quoted text

A text in quotes on one line of printable characters.

* `quoted` : the text between double quotes, each character escaped.
* `escaped` : the written form of one character. A quote, a backslash, a tab, the two line ends
  and NUL have short forms, any other character without a printed form is written with its
  number, and the rest stand for themselves.
-/

namespace NameRegistry

/-- The number of a character in lower-case hexadecimal, in braces, without leading zeros. -/
def numbered (c : Char) : String :=
  "\\u\x7b" ++ String.ofList (Nat.toDigits 16 c.toNat) ++ "\x7d"

/-- The written form of `c` inside quotes. -/
def escaped (c : Char) : String :=
  match c with
  | '"' => "\\\""
  | '\\' => "\\\\"
  | '\n' => "\\n"
  | '\t' => "\\t"
  | '\r' => "\\r"
  | '\x00' => "\\0"
  | c => if isUnprintable c then numbered c else c.toString

def quoted (s : String) : String :=
  "\"" ++ String.join (s.toList.map escaped) ++ "\""

end NameRegistry
