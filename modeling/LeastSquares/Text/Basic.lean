/-!
# Reading from the start of a text

Readers take a text as a list of characters and return what they leave of it. `Tail` is what is left
after something or nothing was read, `Rest` what is left after at least one character was; the proof
that comes with either lets a reader call itself on it.
-/

namespace LeastSquares.Text

abbrev Tail (text : List Char) := { rest : List Char // rest.length ≤ text.length }

abbrev Rest (text : List Char) := { rest : List Char // rest.length < text.length }

theorem length_dropWhile_le (p : Char → Bool) (text : List Char) :
    (text.dropWhile p).length ≤ text.length :=
  (List.dropWhile_sublist p).length_le

theorem length_dropWhile_lt {p : Char → Bool} {text : List Char} (taken : text.takeWhile p ≠ []) :
    (text.dropWhile p).length < text.length := by
  have total := congrArg List.length (List.takeWhile_append_dropWhile (p := p) (l := text))
  have := List.length_pos_iff.mpr taken
  rw [List.length_append] at total
  omega

namespace Tail

def all (text : List Char) : Tail text :=
  ⟨text, Nat.le_refl _⟩

def dropWhile (p : Char → Bool) (text : List Char) : Tail text :=
  ⟨text.dropWhile p, length_dropWhile_le p text⟩

def andPerhaps {text : List Char} (first : Tail text) (second : Tail first.val) : Tail text :=
  ⟨second.val, Nat.le_trans second.property first.property⟩

def behind {text : List Char} (c : Char) (tail : Tail text) : Tail (c :: text) :=
  ⟨tail.val, Nat.le_succ_of_le tail.property⟩

end Tail

namespace Rest

variable {text : List Char}

def within {inner : List Char} (fits : inner.length ≤ text.length) (rest : Rest inner) :
    Rest text :=
  ⟨rest.val, Nat.lt_of_lt_of_le rest.property fits⟩

def andThen (first : Rest text) (second : Rest first.val) : Rest text :=
  second.within (Nat.le_of_lt first.property)

def andPerhaps (first : Rest text) (second : Tail first.val) : Rest text :=
  ⟨second.val, Nat.lt_of_le_of_lt second.property first.property⟩

def ofCons (c : Char) (rest : List Char) : Rest (c :: rest) :=
  ⟨rest, Nat.lt_succ_self _⟩

end Rest

def sign (text : List Char) : Bool × Tail text :=
  match text with
  | '-' :: rest => (true, (Tail.all rest).behind '-')
  | '+' :: rest => (false, (Tail.all rest).behind '+')
  | unsigned => (false, .all unsigned)

def digits (text : List Char) : List Char × Tail text :=
  (text.takeWhile Char.isDigit, .dropWhile Char.isDigit text)

theorem digits_append (text : List Char) : (digits text).1 ++ (digits text).2.val = text :=
  List.takeWhile_append_dropWhile

def naturalOf (digits : List Char) : Nat :=
  digits.foldl (fun value c => 10 * value + (c.toNat - '0'.toNat)) 0

def integerOf (negative : Bool) (digits : List Char) : Int :=
  if negative then -(naturalOf digits : Int) else naturalOf digits

def byteLength (text : List Char) : Nat :=
  text.foldr (fun c bytes => c.utf8Size + bytes) 0

end LeastSquares.Text
