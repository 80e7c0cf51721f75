import LeastSquares.Error
import LeastSquares.Text.WhiteSpace

namespace LeastSquares.Json

open Text

abbrev Reading (β : Type) (text : List Char) := Except JsonFault (β × Rest text)

def missing {β : Type} (found : Option β) : JsonFault :=
  if found.isNone then .unfinished else .malformed

def word : List Char → (text : List Char) → Except JsonFault (Tail text)
  | [], text => .ok (.all text)
  | _ :: _, [] => .error .unfinished
  | expected :: others, c :: rest =>
    if c = expected then
      (word others rest).map (Tail.behind c)
    else .error .malformed

/-! ## Strings -/

def hexDigit? (c : Char) : Option Nat :=
  if c.isDigit then some (c.toNat - '0'.toNat)
  else if 'a' ≤ c ∧ c ≤ 'f' then some (c.toNat - 'a'.toNat + 10)
  else if 'A' ≤ c ∧ c ≤ 'F' then some (c.toNat - 'A'.toNat + 10)
  else none

/-- The number that four hexadecimal digits spell. Fewer than four bytes cannot hold them. -/
def fourHex (text : List Char) : Reading Nat text :=
  if byteLength text < 4 then .error .unfinished
  else
    match text with
    | a :: b :: c :: d :: rest =>
      match hexDigit? a, hexDigit? b, hexDigit? c, hexDigit? d with
      | some a, some b, some c, some d =>
        .ok (((a * 16 + b) * 16 + c) * 16 + d, ⟨rest, by simp only [List.length_cons]; omega⟩)
      | _, _, _, _ => .error .malformed
    | _ => .error .malformed

def isHighSurrogate (unit : Nat) : Bool :=
  0xD800 ≤ unit ∧ unit ≤ 0xDBFF

def isLowSurrogate (unit : Nat) : Bool :=
  0xDC00 ≤ unit ∧ unit ≤ 0xDFFF

/-- The character that an escape by number stands for, after its letter `u`. A unit above the basic
plane takes two escapes; half of such a pair stands for no character. -/
def unicodeEscape (text : List Char) : Reading Char text :=
  match fourHex text with
  | .error fault => .error fault
  | .ok (unit, after) =>
    if isLowSurrogate unit then .error .malformed
    else if isHighSurrogate unit then
      match word ['\\', 'u'] after.val with
      | .error fault => .error fault
      | .ok second =>
        match fourHex second.val with
        | .error fault => .error fault
        | .ok (low, rest) =>
          if isLowSurrogate low then
            .ok (Char.ofNat (0x10000 + (unit - 0xD800) * 0x400 + (low - 0xDC00)),
              (after.andPerhaps second).andThen rest)
          else .error .malformed
    else .ok (Char.ofNat unit, after)

def simpleEscape? : Char → Option Char
  | '"' => some '"'
  | '\\' => some '\\'
  | '/' => some '/'
  | 'b' => some '\x08'
  | 'f' => some '\x0c'
  | 'n' => some '\n'
  | 'r' => some '\r'
  | 't' => some '\t'
  | _ => none

def escape (unicode : (text : List Char) → Reading Char text) (text : List Char) :
    Reading Char text :=
  match text with
  | [] => .error .unfinished
  | 'u' :: rest =>
    (unicode rest).map fun (c, after) => (c, (Rest.ofCons 'u' rest).andThen after)
  | letter :: rest =>
    match simpleEscape? letter with
    | some c => .ok (c, .ofCons letter rest)
    | none => .error .malformed

def stringBody (unicode : (text : List Char) → Reading Char text) (text : List Char) :
    Reading (List Char) text :=
  match text with
  | [] => .error .unfinished
  | '"' :: rest => .ok ([], .ofCons '"' rest)
  | '\\' :: rest =>
    match escape unicode rest with
    | .error fault => .error fault
    | .ok (c, after) =>
      (stringBody unicode after.val).map fun (cs, rest') =>
        (c :: cs, ((Rest.ofCons '\\' rest).andThen after).andThen rest')
  | c :: rest =>
    if c.toNat < 0x20 then .error .malformed
    else
      (stringBody unicode rest).map fun (cs, after) => (c :: cs, (Rest.ofCons c rest).andThen after)
termination_by text.length
decreasing_by
  · exact Nat.lt_succ_of_lt after.property
  · exact Nat.lt_succ_self _

def string (text : List Char) : Reading (List Char) text :=
  stringBody unicodeEscape text

/-- What follows a string whose characters do not matter. Halves of pairs need not match here. -/
def skipString (text : List Char) : Except JsonFault (Rest text) :=
  (stringBody (fun text => (fourHex text).map fun (_, after) => ('\x00', after)) text).map Prod.snd

/-! ## Numbers -/

structure Numeral where
  negative : Bool
  whole : List Char
  fraction : List Char
  exponent : Option Int

/-- The digits after a point. Where the text ends instead of a digit the fault is `atEnd`. -/
def fraction (atEnd : JsonFault) (text : List Char) : Except JsonFault (List Char × Tail text) :=
  match text with
  | '.' :: rest =>
    let (places, after) := digits rest
    if places = [] then .error (if rest.isEmpty then atEnd else .malformed)
    else .ok (places, after.behind '.')
  | other => .ok ([], .all other)

def exponent (atEnd : JsonFault) (text : List Char) : Except JsonFault (Option Int × Tail text) :=
  match text with
  | [] => .ok (none, .all [])
  | c :: rest =>
    if c = 'e' || c = 'E' then
      let (negative, unsigned) := sign rest
      let (size, after) := digits unsigned.val
      if size = [] then .error (if unsigned.val.isEmpty then atEnd else .malformed)
      else .ok (some (integerOf negative size), (unsigned.andPerhaps after).behind c)
    else .ok (none, .all (c :: rest))

/-- A number without its sign. It does not begin with a zero before another digit. -/
def unsignedNumber (atEnd : JsonFault) (negative : Bool) (text : List Char) :
    Reading Numeral text :=
  let whole := text.takeWhile Char.isDigit
  if none : whole = [] then .error (if text.isEmpty then atEnd else .malformed)
  else if whole.head? = some '0' ∧ 1 < whole.length then .error .malformed
  else
    let afterWhole : Rest text := ⟨text.dropWhile Char.isDigit, length_dropWhile_lt none⟩
    match fraction atEnd afterWhole.val with
    | .error fault => .error fault
    | .ok (fraction, afterFraction) =>
      match exponent atEnd afterFraction.val with
      | .error fault => .error fault
      | .ok (exponent, after) =>
        .ok ({ negative, whole, fraction, exponent },
          afterWhole.andPerhaps (afterFraction.andPerhaps after))

def number (atEnd : JsonFault) (text : List Char) : Reading Numeral text :=
  match text with
  | '-' :: rest =>
    (unsignedNumber atEnd true rest).map fun (numeral, after) =>
      (numeral, (Rest.ofCons '-' rest).andThen after)
  | other => unsignedNumber atEnd false other

def beginsNumber (c : Char) : Bool :=
  c = '-' || c.isDigit

/-! ## Values passed over -/

mutual

def skipValue (text : List Char) : Except JsonFault (Rest text) :=
  match next? text with
  | none => .error .unfinished
  | some (c, after) =>
    match c with
    | 'n' => (word "ull".toList after.val).map after.andPerhaps
    | 't' => (word "rue".toList after.val).map after.andPerhaps
    | 'f' => (word "alse".toList after.val).map after.andPerhaps
    | '"' => (skipString after.val).map after.andThen
    | '[' =>
      match next? after.val with
      | some (']', rest) => .ok (after.andThen rest)
      | _ => (skipItems after.val).map after.andThen
    | '{' =>
      match next? after.val with
      | some ('}', rest) => .ok (after.andThen rest)
      | _ => (skipMembers after.val).map after.andThen
    | _ =>
      if beginsNumber c then
        (number .malformed (skipBlanks text)).map fun (_, rest) =>
          rest.within (length_skipBlanks_le text)
      else .error .malformed
termination_by (text.length, 1)
decreasing_by
  all_goals exact .left _ _ after.property

def skipItems (text : List Char) : Except JsonFault (Rest text) :=
  match skipValue text with
  | .error fault => .error fault
  | .ok item =>
    match next? item.val with
    | none => .error .unfinished
    | some (',', after) => (skipItems after.val).map (item.andThen after).andThen
    | some (']', rest) => .ok (item.andThen rest)
    | some _ => .error .malformed
termination_by (text.length, 2)
decreasing_by
  · exact .right _ (by decide)
  · exact .left _ _ (Nat.lt_trans after.property item.property)

def skipMembers (text : List Char) : Except JsonFault (Rest text) :=
  match next? text with
  | some ('"', quote) =>
    match skipString quote.val with
    | .error fault => .error fault
    | .ok key =>
      match next? key.val with
      | some (':', colon) =>
        match skipValue colon.val with
        | .error fault => .error fault
        | .ok value =>
          let member := ((quote.andThen key).andThen colon).andThen value
          match next? value.val with
          | none => .error .unfinished
          | some (',', after) => (skipMembers after.val).map (member.andThen after).andThen
          | some ('}', rest) => .ok (member.andThen rest)
          | some _ => .error .malformed
      | other => .error (missing other)
  | other => .error (missing other)
termination_by (text.length, 2)
decreasing_by
  · exact .left _ _ ((quote.andThen key).andThen colon).property
  · exact .left _ _ (member.andThen after).property

end

def finish (text : List Char) : Except JsonFault Unit :=
  if (skipBlanks text).isEmpty then .ok () else .error .malformed

end LeastSquares.Json
