import LeastSquares.Proofs.Formula.Grammar
import Mathlib.Data.List.Basic

namespace LeastSquares.Formula

open Text

/-! ## Spans -/

def Stops (p : Char → Bool) (text : List Char) : Prop :=
  ∀ c rest, text = c :: rest → p c = false

theorem Stops.dropWhile (p : Char → Bool) (text : List Char) : Stops p (text.dropWhile p) := by
  intro c rest start
  have := List.head?_dropWhile_not p text
  rw [start] at this
  simpa using this

theorem Stops.dropWhile_eq {p : Char → Bool} {text : List Char} (stops : Stops p text) :
    text.dropWhile p = text := by
  cases text with
  | nil => rfl
  | cons c rest => exact List.dropWhile_cons_of_neg (by simp [stops c rest rfl])

theorem Stops.takeWhile_eq {p : Char → Bool} {text : List Char} (stops : Stops p text) :
    text.takeWhile p = [] := by
  cases text with
  | nil => rfl
  | cons c rest => exact List.takeWhile_cons_of_neg (by simp [stops c rest rfl])

theorem Stops.takeWhile_append {p : Char → Bool} {text rest : List Char} (stops : Stops p rest)
    (inside : ∀ c ∈ text, p c = true) : (text ++ rest).takeWhile p = text := by
  rw [List.takeWhile_append_of_pos inside, stops.takeWhile_eq, List.append_nil]

theorem Stops.dropWhile_append {p : Char → Bool} {text rest : List Char} (stops : Stops p rest)
    (inside : ∀ c ∈ text, p c = true) : (text ++ rest).dropWhile p = rest := by
  rw [List.dropWhile_append_of_pos inside, stops.dropWhile_eq]

theorem mem_takeWhile {p : Char → Bool} {c : Char} {text : List Char}
    (member : c ∈ text.takeWhile p) : p c = true :=
  List.all_eq_true.mp List.all_takeWhile c member

/-! ## The first character of a token -/

theorem isWhiteSpace_of_graphic {c : Char} (low : 33 ≤ c.toNat) (high : c.toNat ≤ 126) :
    isWhiteSpace c = false := by
  simp only [isWhiteSpace, Bool.or_eq_false_iff, Bool.and_eq_false_iff, decide_eq_false_iff_not]
  omega

theorem isBlank_of_not_isWhiteSpace {c : Char} (graphic : isWhiteSpace c = false) :
    isBlank c = false := by
  rw [Bool.eq_false_iff]
  intro blank
  rw [isWhiteSpace_of_isBlank blank] at graphic
  cases graphic

theorem isDigit_bounds {c : Char} (digit : c.isDigit = true) : 48 ≤ c.toNat ∧ c.toNat ≤ 57 := by
  simp only [Char.isDigit, ge_iff_le, UInt32.le_iff_toNat_le, decide_eq_true_eq,
    Bool.and_eq_true] at digit
  exact digit

theorem beginsWord_bounds {c : Char} (begins : beginsWord c = true) :
    (65 ≤ c.toNat ∧ c.toNat ≤ 90) ∨ c.toNat = 95 ∨ (97 ≤ c.toNat ∧ c.toNat ≤ 122) := by
  simp only [beginsWord, Bool.or_eq_true, decide_eq_true_eq] at begins
  rcases begins with letter | rfl
  · rcases (Bool.or_eq_true c.isUpper c.isLower).mp letter with upper | lower
    · exact .inl (of_decide_eq_true upper)
    · obtain ⟨low, high⟩ := (Bool.and_eq_true _ _).mp lower
      exact .inr (.inr ⟨of_decide_eq_true low, of_decide_eq_true high⟩)
  · exact .inr (.inl rfl)

theorem IsSymbol.bounds {c : Char} (symbolic : IsSymbol c) :
    40 ≤ c.toNat ∧ c.toNat ≤ 47 ∧ c.toNat ≠ 46 ∨ c.toNat = 94 := by
  simp only [IsSymbol, List.mem_cons, List.not_mem_nil, or_false] at symbolic
  rcases symbolic with rfl | rfl | rfl | rfl | rfl | rfl | rfl <;> decide

def Token.Begins : Token → Char → Prop
  | number _ _, c => c.isDigit = true ∨ c = '.'
  | word _, c => beginsWord c = true
  | symbol d, c => IsSymbol d ∧ d = c

theorem Token.Begins.not_isWhiteSpace {token : Token} {c : Char} (begins : token.Begins c) :
    isWhiteSpace c = false := by
  cases token with
  | number mantissa exponent =>
      rcases begins with digit | rfl
      · have := isDigit_bounds digit
        exact isWhiteSpace_of_graphic (by omega) (by omega)
      · decide
  | word name =>
      have := beginsWord_bounds begins
      exact isWhiteSpace_of_graphic (by omega) (by omega)
  | symbol d =>
      obtain ⟨symbolic, rfl⟩ := begins
      have := symbolic.bounds
      exact isWhiteSpace_of_graphic (by omega) (by omega)

theorem Token.Begins.eq_symbol {token : Token} {c : Char} (begins : token.Begins c)
    (symbolic : IsSymbol c) : token = .symbol c := by
  have := symbolic.bounds
  cases token with
  | number mantissa exponent =>
      rcases begins with digit | rfl
      · have := isDigit_bounds digit
        omega
      · simp at this
  | word name =>
      have := beginsWord_bounds begins
      omega
  | symbol d => rw [begins.2]

theorem Significand.begins {text : List Char} {mantissa places : Nat}
    (digits : Significand text mantissa places) :
    ∃ c rest, text = c :: rest ∧ (c.isDigit = true ∨ c = '.') := by
  cases digits with
  | whole some_digit digital =>
      obtain ⟨c, rest, rfl⟩ := List.exists_cons_of_ne_nil some_digit
      exact ⟨c, rest, rfl, .inl (digital c List.mem_cons_self)⟩
  | @pointed whole fraction some_digit digital digitalToo =>
      cases whole with
      | nil => exact ⟨'.', fraction, rfl, .inr rfl⟩
      | cons c others => exact ⟨c, _, rfl, .inl (digital c List.mem_cons_self)⟩

theorem Reads.begins {text rest : List Char} {token : Token} (read : Reads text token rest) :
    ∃ c tail, text = c :: tail ∧ token.Begins c := by
  cases read with
  | symbol symbolic => exact ⟨_, _, rfl, symbolic, rfl⟩
  | word isWord longest =>
      obtain ⟨c, others, rfl, begins, -⟩ := isWord
      exact ⟨c, _, rfl, begins⟩
  | number digits shifted longest complete =>
      obtain ⟨c, others, rfl, begins⟩ := digits.begins
      exact ⟨c, _, rfl, begins⟩

theorem Reads.stops {text rest : List Char} {token : Token} (read : Reads text token rest) :
    Stops isBlank text := by
  intro c tail start
  obtain ⟨d, others, rfl, begins⟩ := read.begins
  cases start
  exact isBlank_of_not_isWhiteSpace begins.not_isWhiteSpace

/-! ## The tokens a text spells -/

theorem spells_nil {text : List Char} :
    Spells text [] ↔ ∀ c ∈ text, isWhiteSpace c = true := by
  constructor
  · intro spells
    cases spells with
    | done white => exact white
  · exact .done

theorem spells_cons {text : List Char} {token : Token} {tokens : List Token} :
    Spells text (token :: tokens) ↔
      ∃ rest, Reads (skipBlanks text) token rest ∧ Spells rest tokens := by
  constructor
  · intro spells
    cases spells with
    | next blank read others =>
        rw [skipBlanks, read.stops.dropWhile_append blank]
        exact ⟨_, read, others⟩
  · rintro ⟨rest, read, others⟩
    rw [← List.takeWhile_append_dropWhile (p := isBlank) (l := text)]
    exact .next (fun c => mem_takeWhile) read others

theorem Reads.spells {text rest : List Char} {token : Token} {tokens : List Token}
    (read : Reads text token rest) (others : Spells rest tokens) : Spells text (token :: tokens) := by
  rw [spells_cons, skipBlanks, read.stops.dropWhile_eq]
  exact ⟨rest, read, others⟩

theorem skipBlanks_skipBlanks (text : List Char) :
    skipBlanks (skipBlanks text) = skipBlanks text :=
  (Stops.dropWhile isBlank text).dropWhile_eq

theorem spells_skipBlanks {text : List Char} {tokens : List Token} :
    Spells (skipBlanks text) tokens ↔ Spells text tokens := by
  cases tokens with
  | nil =>
      rw [spells_nil, spells_nil]
      constructor
      · intro white c member
        rw [← List.takeWhile_append_dropWhile (p := isBlank) (l := text), List.mem_append] at member
        rcases member with blank | behind
        · exact isWhiteSpace_of_isBlank (mem_takeWhile blank)
        · exact white c behind
      · exact fun white c member => white c ((List.dropWhile_sublist _).subset member)
  | cons token tokens => rw [spells_cons, spells_cons, skipBlanks_skipBlanks]

theorem Spells.head_eq_symbol {text tail : List Char} {tokens : List Token} {c : Char}
    (spells : Spells text tokens) (symbolic : IsSymbol c) (start : skipBlanks text = c :: tail) :
    tokens.head? = some (.symbol c) := by
  rw [← spells_skipBlanks, start] at spells
  cases tokens with
  | nil =>
      have := symbolic.bounds
      have white := spells_nil.mp spells c List.mem_cons_self
      rw [isWhiteSpace_of_graphic (by omega) (by omega)] at white
      cases white
  | cons token tokens =>
      obtain ⟨rest, read, -⟩ := spells_cons.mp spells
      obtain ⟨d, others, first, begins⟩ := read.begins
      rw [← start, skipBlanks_skipBlanks, start] at first
      cases first
      rw [List.head?_cons, begins.eq_symbol symbolic]

/-! ## Symbols -/

def Symbolic {β : Type} (meaning : Char → Option β) : Prop :=
  ∀ c value, meaning c = some value → IsSymbol c

theorem next?_of_nil {text : List Char} (start : skipBlanks text = []) : next? text = none := by
  unfold next?
  split
  · rfl
  · rename_i first
    rw [start] at first
    cases first

theorem next?_of_cons {text tail : List Char} {c : Char} (start : skipBlanks text = c :: tail) :
    ∃ after, next? text = some (c, after) ∧ after.val = tail := by
  unfold next?
  split
  · rename_i first
    rw [start] at first
    cases first
  · rename_i first
    rw [start] at first
    cases first
    exact ⟨_, rfl, rfl⟩

theorem token?_of_cons {β : Type} {meaning : Char → Option β} {text tail : List Char} {c : Char}
    {value : β} (start : skipBlanks text = c :: tail) (means : meaning c = some value) :
    ∃ after, token? meaning text = some (value, after) ∧ after.val = skipBlanks tail := by
  obtain ⟨after, read, rfl⟩ := next?_of_cons start
  simp only [token?, read, means, Option.map_some]
  exact ⟨_, rfl, rfl⟩

theorem token?_eq_some {β : Type} {meaning : Char → Option β} {text : List Char} {value : β}
    {after : Rest text} (read : token? meaning text = some (value, after)) :
    ∃ c tail, skipBlanks text = c :: tail ∧ meaning c = some value ∧
      after.val = skipBlanks tail := by
  cases start : skipBlanks text with
  | nil => simp [token?, next?_of_nil start] at read
  | cons c tail =>
      obtain ⟨next, first, rfl⟩ := next?_of_cons start
      simp only [token?, first, Option.map_eq_some_iff, Prod.mk.injEq] at read
      obtain ⟨value, means, rfl, rfl⟩ := read
      exact ⟨c, _, rfl, means, rfl⟩

theorem token?_sound {β : Type} {meaning : Char → Option β} (symbolic : Symbolic meaning)
    {text : List Char} {value : β} {after : Rest text}
    (read : token? meaning text = some (value, after)) :
    ∃ c, meaning c = some value ∧
      ∀ tokens, Spells after.val tokens → Spells text (.symbol c :: tokens) := by
  obtain ⟨c, tail, start, means, left⟩ := token?_eq_some read
  refine ⟨c, means, fun tokens spells => spells_cons.mpr ⟨tail, ?_, ?_⟩⟩
  · rw [start]
    exact .symbol (symbolic c value means)
  · rwa [left, spells_skipBlanks] at spells

theorem token?_complete {β : Type} {meaning : Char → Option β} {text : List Char} {c : Char}
    {value : β} {tokens : List Token} (spells : Spells text (.symbol c :: tokens))
    (means : meaning c = some value) :
    ∃ after, token? meaning text = some (value, after) ∧ Spells after.val tokens := by
  obtain ⟨rest, read, others⟩ := spells_cons.mp spells
  generalize start : skipBlanks text = text' at read
  cases read
  obtain ⟨after, accepted, left⟩ := token?_of_cons start means
  exact ⟨after, accepted, by rwa [left, spells_skipBlanks]⟩

theorem token?_eq_none {β : Type} {meaning : Char → Option β} (symbolic : Symbolic meaning)
    {text : List Char} {tokens : List Token} (spells : Spells text tokens)
    (other : ∀ c value, meaning c = some value → tokens.head? ≠ some (.symbol c)) :
    token? meaning text = none := by
  cases read : token? meaning text with
  | none => rfl
  | some result =>
      obtain ⟨value, after⟩ := result
      obtain ⟨c, tail, start, means, -⟩ := token?_eq_some read
      exact absurd (spells.head_eq_symbol (symbolic c value means) start) (other c value means)

theorem symbolic_character {c : Char} (symbol : IsSymbol c) :
    Symbolic fun d => if d = c then some () else none := by
  intro d value means
  obtain ⟨rfl, -⟩ := Option.ite_none_right_eq_some.mp means
  exact symbol

theorem character?_sound {c : Char} (symbol : IsSymbol c) {text : List Char} {after : Rest text}
    (read : character? c text = some after) {tokens : List Token}
    (spells : Spells after.val tokens) : Spells text (.symbol c :: tokens) := by
  obtain ⟨⟨value, _⟩, accepted, rfl⟩ := Option.map_eq_some_iff.mp read
  obtain ⟨d, means, extend⟩ := token?_sound (symbolic_character symbol) accepted
  obtain ⟨rfl, -⟩ := Option.ite_none_right_eq_some.mp means
  exact extend tokens spells

theorem character?_complete {c : Char} {text : List Char} {tokens : List Token}
    (spells : Spells text (.symbol c :: tokens)) :
    ∃ after, character? c text = some after ∧ Spells after.val tokens := by
  obtain ⟨after, accepted, others⟩ :=
    @token?_complete Unit (fun d => if d = c then some () else none) _ _ _ _ spells (if_pos rfl)
  exact ⟨after, by rw [character?, accepted, Option.map_some], others⟩

theorem character?_eq_none {c : Char} (symbol : IsSymbol c) {text : List Char}
    {tokens : List Token} (spells : Spells text tokens)
    (other : tokens.head? ≠ some (.symbol c)) : character? c text = none := by
  rw [character?, token?_eq_none (symbolic_character symbol) spells, Option.map_none]
  intro d value means
  obtain ⟨rfl, -⟩ := Option.ite_none_right_eq_some.mp means
  exact other

/-! ## Words -/

theorem identifier?_sound {text name : List Char} {after : Rest text}
    (read : identifier? text = some (name, after)) : Reads text (.word name) after.val := by
  cases text with
  | nil => cases read
  | cons c rest =>
      simp only [identifier?] at read
      split at read
      · rename_i begins
        cases read
        have isWord : IsWord (c :: rest.takeWhile continuesWord) :=
          ⟨c, _, rfl, begins, fun d => mem_takeWhile⟩
        have longest : Longest IsWord (c :: rest.takeWhile continuesWord)
            (rest.dropWhile continuesWord) := by
          intro more tail split longer
          cases more with
          | nil => rfl
          | cons d more =>
              obtain ⟨_, others, start, -, continues⟩ := longer
              cases start
              have stops := Stops.dropWhile continuesWord rest d (more ++ tail) split
              rw [continues d (by simp)] at stops
              cases stops
        have read := Reads.word isWord longest
        rwa [List.cons_append, List.takeWhile_append_dropWhile] at read
      · cases read

theorem identifier?_complete {text name rest : List Char}
    (read : Reads text (.word name) rest) :
    ∃ after, identifier? text = some (name, after) ∧ after.val = rest := by
  cases read with
  | word isWord longest =>
      obtain ⟨c, others, rfl, begins, continues⟩ := isWord
      have stops : Stops continuesWord rest := by
        intro d tail start
        rw [Bool.eq_false_iff]
        intro continuesToo
        have longer : IsWord (c :: others ++ [d]) := by
          refine ⟨c, others ++ [d], rfl, begins, fun e member => ?_⟩
          rcases List.mem_append.mp member with earlier | last
          · exact continues e earlier
          · rwa [List.mem_singleton.mp last]
        cases longest [d] tail start longer
      simp only [List.cons_append, identifier?, if_pos begins, stops.takeWhile_append continues]
      exact ⟨_, rfl, stops.dropWhile_append continues⟩

theorem identifier?_eq_none {text : List Char} (stops : Stops beginsWord text) :
    identifier? text = none := by
  cases text with
  | nil => rfl
  | cons c rest => simp [identifier?, stops c rest rfl]

/-! ## Names -/

theorem ofList_eq_iff {text : List Char} {s : String} : String.ofList text = s ↔ text = s.toList := by
  rw [← String.ofList_inj, String.ofList_toList]

theorem function_named {name : List Char} {f : Elementary} :
    Elementary.ofName? name = some f ↔ Calls name f := by
  constructor
  · intro found
    unfold Elementary.ofName? at found
    split at found <;> cases found
    all_goals
      rename_i spelt
      obtain rfl := ofList_eq_iff.mp spelt
    exacts [.own .exp, .own .log, .ln, .own .log10, .own .sin, .own .cos, .own .tan, .own .sqrt]
  · intro calls
    cases calls with
    | own f => cases f <;> rfl
    | ln => rfl

theorem Names.not_function {α : Type} [Scalar α] {name : List Char} {leaf : Formula α}
    (named : Names name leaf) : Elementary.ofName? name = none := by
  unfold Elementary.ofName?
  split
  all_goals try rfl
  all_goals
    rename_i spelt
    rw [ofList_eq_iff] at spelt
    cases named with
    | sample => simp at spelt
    | pi => simp at spelt
    | e => simp at spelt
    | param stems => rcases stems with rfl | rfl <;> simp at spelt

theorem Names.height_eq {α : Type} [Scalar α] {name : List Char} {leaf : Formula α}
    (named : Names name leaf) : leaf.height = 1 := by
  cases named <;> rfl

theorem parameterIndex?_eq_some {name : List Char} {index : Nat} :
    parameterIndex? name = some index ↔ ∃ stem digits,
      (stem = ['p', 'a', 'r', 'a', 'm'] ∨ stem = ['v', 'a', 'r']) ∧ name = stem ++ digits ∧
        digits ≠ [] ∧ AllDigits digits ∧ naturalOf digits < UInt64.size ∧
        naturalOf digits = index := by
  have indexOf (digits : List Char) :
      (if digits ≠ [] ∧ digits.all Char.isDigit ∧ naturalOf digits < indexBound then
        some (naturalOf digits) else none) = some index ↔
      digits ≠ [] ∧ AllDigits digits ∧ naturalOf digits < UInt64.size ∧
        naturalOf digits = index := by
    simp [AllDigits, indexBound, UInt64.size, and_assoc]
  constructor
  · intro found
    unfold parameterIndex? at found
    cases long : "param".toList.isPrefixOf? name with
    | some digits =>
        simp only [long] at found
        exact ⟨_, digits, .inl rfl, (List.append_eq_of_isPrefixOf?_eq_some long).symm,
          (indexOf digits).mp found⟩
    | none =>
        cases short : "var".toList.isPrefixOf? name with
        | some digits =>
            simp only [long, short] at found
            exact ⟨_, digits, .inr rfl, (List.append_eq_of_isPrefixOf?_eq_some short).symm,
              (indexOf digits).mp found⟩
        | none => simp only [long, short, reduceCtorEq] at found
  · rintro ⟨stem, digits, rfl | rfl, rfl, spelt⟩
    · exact (indexOf digits).mpr spelt
    · exact (indexOf digits).mpr spelt

theorem leaf_named {α : Type} [Scalar α] {name : List Char} {leaf : Formula α} :
    ofName? name = some leaf ↔ Names name leaf := by
  constructor
  · intro found
    unfold ofName? at found
    split at found
    · rename_i spelt
      obtain rfl := ofList_eq_iff.mp spelt
      cases found
      exact .pi
    · rename_i spelt
      obtain rfl := ofList_eq_iff.mp spelt
      cases found
      exact .e
    · rename_i spelt
      obtain rfl := ofList_eq_iff.mp spelt
      cases found
      exact .sample
    · obtain ⟨index, spelt, rfl⟩ := Option.map_eq_some_iff.mp found
      obtain ⟨stem, digits, stems, rfl, some_digit, digital, bounded, rfl⟩ :=
        parameterIndex?_eq_some.mp spelt
      exact .param stems some_digit digital bounded
  · intro named
    cases named with
    | sample => rfl
    | pi => rfl
    | e => rfl
    | @param stem digits stems some_digit digital bounded =>
        have index := parameterIndex?_eq_some.mpr
          ⟨stem, digits, stems, rfl, some_digit, digital, bounded, rfl⟩
        unfold ofName?
        split
        · rename_i spelt
          rw [ofList_eq_iff] at spelt
          rcases stems with rfl | rfl <;> simp at spelt
        · rename_i spelt
          rw [ofList_eq_iff] at spelt
          rcases stems with rfl | rfl <;> simp at spelt
        · rename_i spelt
          rw [ofList_eq_iff] at spelt
          rcases stems with rfl | rfl <;> simp at spelt
        · rw [index, Option.map_some]
end LeastSquares.Formula
