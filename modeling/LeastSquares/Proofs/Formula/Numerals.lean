import LeastSquares.Proofs.Formula.Scanning

namespace LeastSquares.Formula

open Text

theorem AllDigits.concat {text : List Char} (digital : AllDigits text) {c : Char}
    (digit : c.isDigit = true) : AllDigits (text ++ [c]) := by
  intro d member
  rcases List.mem_append.mp member with earlier | last
  · exact digital d earlier
  · rwa [List.mem_singleton.mp last]

/-! ## Signs and powers -/

theorem sign_spells (text : List Char) :
    ∃ signs, text = signs ++ (sign text).2.val ∧ Sign signs (sign text).1 := by
  unfold sign
  split
  · exact ⟨['-'], rfl, .minus⟩
  · exact ⟨['+'], rfl, .plus⟩
  · exact ⟨[], rfl, .none⟩

theorem sign_append {signs digits : List Char} {negative : Bool} (signed : Sign signs negative)
    (stops : Stops (fun c => c = '-' || c = '+') digits) :
    (sign (signs ++ digits)).1 = negative ∧ (sign (signs ++ digits)).2.val = digits := by
  cases signed with
  | plus => exact ⟨rfl, rfl⟩
  | minus => exact ⟨rfl, rfl⟩
  | none =>
      rw [List.nil_append]
      unfold sign
      split
      · simpa using stops _ _ rfl
      · simpa using stops _ _ rfl
      · exact ⟨rfl, rfl⟩

theorem AllDigits.stops_sign {text rest : List Char} (digital : AllDigits text)
    (some_digit : text ≠ []) : Stops (fun c => c = '-' || c = '+') (text ++ rest) := by
  obtain ⟨d, others, rfl⟩ := List.exists_cons_of_ne_nil some_digit
  intro c tail start
  cases start
  have digit := digital d List.mem_cons_self
  rw [Bool.or_eq_false_iff, decide_eq_false_iff_not, decide_eq_false_iff_not]
  constructor
  · rintro rfl
    cases digit
  · rintro rfl
    cases digit

theorem exponentPart?_sound {text : List Char} {shift : Int} {after : Tail text}
    (read : exponentPart? text = some (shift, after)) :
    ∃ power, text = power ++ after.val ∧ Power power shift ∧
      (∀ letter tail, after.val = letter :: tail → letter = 'e' ∨ letter = 'E' → power ≠ []) := by
  unfold exponentPart? at read
  split at read
  · cases read
    exact ⟨[], rfl, .none, fun letter tail start => by cases start⟩
  · rename_i c rest
    split at read
    · rename_i marks
      obtain ⟨signs, split, signed⟩ := sign_spells rest
      have divided := digits_append (sign rest).2.val
      simp only [Option.ite_none_left_eq_some, Option.some.injEq, Prod.mk.injEq] at read
      obtain ⟨some_digit, rfl, rfl⟩ := read
      refine ⟨c :: (signs ++ (digits (sign rest).2.val).1), ?_, ?_, ?_⟩
      · change c :: rest = c :: (signs ++ (digits (sign rest).2.val).1 ++
          (digits (sign rest).2.val).2.val)
        rw [List.append_assoc, divided, ← split]
      · exact .some (by simpa using marks) signed some_digit fun c => mem_takeWhile
      · exact fun _ _ _ _ => List.cons_ne_nil _ _
    · rename_i unmarked
      cases read
      refine ⟨[], rfl, .none, fun letter tail start marks => ?_⟩
      cases start
      exact absurd marks (by simpa using unmarked)

theorem exponentPart?_of_unmarked {text : List Char}
    (unmarked : ∀ letter tail, text = letter :: tail → ¬ (letter = 'e' ∨ letter = 'E')) :
    ∃ after, exponentPart? text = some (0, after) ∧ after.val = text := by
  cases text with
  | nil => exact ⟨_, rfl, rfl⟩
  | cons c rest =>
      have other := unmarked c rest rfl
      simp only [exponentPart?, Bool.or_eq_true, decide_eq_true_eq, if_neg other]
      exact ⟨_, rfl, rfl⟩

theorem exponentPart?_of_marked {letter : Char} {signs size rest : List Char} {negative : Bool}
    (marks : letter = 'e' ∨ letter = 'E') (signed : Sign signs negative) (some_digit : size ≠ [])
    (digital : AllDigits size) (stops : Stops Char.isDigit rest) :
    ∃ after, exponentPart? (letter :: (signs ++ size) ++ rest) =
      some (integerOf negative size, after) ∧ after.val = rest := by
  have unsigned : Stops (fun c => c = '-' || c = '+') (size ++ rest) :=
    digital.stops_sign some_digit
  have signRead := sign_append signed unsigned
  rw [← List.append_assoc] at signRead
  have sizeRead : (digits (sign (signs ++ size ++ rest)).2.val).1 = size := by
    rw [signRead.2]
    exact stops.takeWhile_append digital
  have afterRead : (digits (sign (signs ++ size ++ rest)).2.val).2.val = rest := by
    rw [signRead.2]
    exact stops.dropWhile_append digital
  simp only [List.cons_append, exponentPart?, Bool.or_eq_true, decide_eq_true_eq, if_pos marks]
  rw [sizeRead, signRead.1, if_neg some_digit]
  exact ⟨_, rfl, afterRead⟩

/-! ## Significands -/

theorem Significand.character {text : List Char} {mantissa places : Nat}
    (digits : Significand text mantissa places) {c : Char} (member : c ∈ text) :
    c.isDigit = true ∨ c = '.' := by
  cases digits with
  | whole some_digit digital => exact .inl (digital c member)
  | pointed some_digit digital digitalToo =>
      rcases List.mem_append.mp member with before | behind
      · exact .inl (digital c before)
      · rcases List.mem_cons.mp behind with point | after
        · exact .inr point
        · exact .inl (digitalToo c after)

theorem fractionPart_of_stops {text : List Char} (stops : Stops (fun c => c = '.') text) :
    (fractionPart text).1 = [] ∧ (fractionPart text).2.val = text := by
  unfold fractionPart
  split
  · simpa using stops _ _ rfl
  · exact ⟨rfl, rfl⟩

theorem stops_or_point (text : List Char) :
    Stops (fun c => c = '.') text ∨ ∃ rest, text = '.' :: rest := by
  cases text with
  | nil => exact .inl fun c rest start => by cases start
  | cons c rest =>
      by_cases point : c = '.'
      · exact .inr ⟨rest, by rw [point]⟩
      · refine .inl fun d tail start => ?_
        cases start
        exact decide_eq_false point

def scanned (text : List Char) : List Char × List Char × List Char :=
  let fraction := fractionPart (digits text).2.val
  ((digits text).1, fraction.1, fraction.2.val)

theorem scanned_of_point {whole rest : List Char} (digital : AllDigits whole) :
    scanned (whole ++ '.' :: rest) =
      (whole, rest.takeWhile Char.isDigit, rest.dropWhile Char.isDigit) := by
  have stops : Stops Char.isDigit ('.' :: rest) := by
    intro c tail start
    cases start
    rfl
  have left : (digits (whole ++ '.' :: rest)).2.val = '.' :: rest := stops.dropWhile_append digital
  have read : (digits (whole ++ '.' :: rest)).1 = whole := stops.takeWhile_append digital
  rw [scanned, left, read]
  rfl

theorem scanned_of_stops {whole rest : List Char} (digital : AllDigits whole)
    (stops : Stops Char.isDigit rest) (pointless : Stops (fun c => c = '.') rest) :
    scanned (whole ++ rest) = (whole, [], rest) := by
  have left : (digits (whole ++ rest)).2.val = rest := stops.dropWhile_append digital
  have read : (digits (whole ++ rest)).1 = whole := stops.takeWhile_append digital
  have fraction := fractionPart_of_stops pointless
  rw [scanned, left, read, fraction.1, fraction.2]

theorem significand_of_scanned {text whole fraction behind : List Char}
    (scan : scanned text = (whole, fraction, behind)) (some_digit : ¬ (whole = [] ∧ fraction = [])) :
    ∃ significand, text = significand ++ behind ∧
      Significand significand (naturalOf (whole ++ fraction)) fraction.length := by
  have divided := digits_append text
  have digital : AllDigits (digits text).1 := fun c => mem_takeWhile
  have stops : Stops Char.isDigit (digits text).2.val := Stops.dropWhile _ text
  generalize (digits text).1 = before at divided digital
  generalize (digits text).2.val = after at divided stops
  subst divided
  rcases stops_or_point after with pointless | ⟨rest, rfl⟩
  · rw [scanned_of_stops digital stops pointless] at scan
    cases scan
    rw [List.append_nil]
    exact ⟨whole, rfl, .whole (fun empty => some_digit ⟨empty, rfl⟩) digital⟩
  · rw [scanned_of_point digital] at scan
    cases scan
    refine ⟨whole ++ '.' :: rest.takeWhile Char.isDigit, ?_,
      .pointed some_digit digital fun c => mem_takeWhile⟩
    rw [List.append_assoc, List.cons_append, List.takeWhile_append_dropWhile]

theorem Significand.scanned {text rest : List Char} {mantissa places : Nat}
    (digits : Significand text mantissa places)
    (ends : ∀ c tail, rest = c :: tail → ∀ m p, ¬ Significand (text ++ [c]) m p) :
    ∃ whole fraction, scanned (text ++ rest) = (whole, fraction, rest) ∧
      ¬ (whole = [] ∧ fraction = []) ∧ naturalOf (whole ++ fraction) = mantissa ∧
      fraction.length = places := by
  cases digits with
  | whole some_digit digital =>
      have stops : Stops Char.isDigit rest := by
        intro c tail start
        rw [Bool.eq_false_iff]
        intro digit
        exact ends c tail start _ _ (.whole (by simp) (digital.concat digit))
      have pointless : Stops (fun c => c = '.') rest := by
        intro c tail start
        refine decide_eq_false fun point => ?_
        subst point
        exact ends '.' tail start _ _
          (.pointed (fun empty => some_digit empty.1) digital fun d member => by cases member)
      exact ⟨_, [], scanned_of_stops digital stops pointless, fun empty => some_digit empty.1,
        by rw [List.append_nil], rfl⟩
  | @pointed whole fraction some_digit digital digitalToo =>
      have stops : Stops Char.isDigit rest := by
        intro c tail start
        rw [Bool.eq_false_iff]
        intro digit
        have longer := Significand.pointed (by simp) digital (digitalToo.concat digit)
        rw [← List.cons_append, ← List.append_assoc] at longer
        exact ends c tail start _ _ longer
      refine ⟨whole, fraction, ?_, some_digit, rfl, rfl⟩
      rw [List.append_assoc, List.cons_append, scanned_of_point digital,
        stops.takeWhile_append digitalToo, stops.dropWhile_append digitalToo]

theorem Significand.length_scanned_le {text : List Char} {mantissa places : Nat}
    (digits : Significand text mantissa places) (rest : List Char) :
    (Formula.scanned (text ++ rest)).2.2.length ≤ rest.length := by
  cases digits with
  | whole some_digit digital =>
      have shorter := length_dropWhile_le Char.isDigit rest
      rw [← List.dropWhile_append_of_pos digital] at shorter
      exact Nat.le_trans (fractionPart _).2.property shorter
  | pointed some_digit digital digitalToo =>
      rw [List.append_assoc, List.cons_append, scanned_of_point digital,
        List.dropWhile_append_of_pos digitalToo]
      exact length_dropWhile_le Char.isDigit rest

/-! ## Numbers -/

theorem numeral_eq_decimal {text : List Char} {mantissa : Nat} {exponent : Int} {rest : Rest text}
    (read : numeral text = .decimal mantissa exponent rest) :
    ∃ whole fraction behind, scanned text = (whole, fraction, behind) ∧
      ¬ (whole = [] ∧ fraction = []) ∧ naturalOf (whole ++ fraction) = mantissa ∧
      ∃ (power : Int) (after : Tail behind), exponentPart? behind = some (power, after) ∧
        power - fraction.length = exponent ∧ after.val = rest.val := by
  refine ⟨_, _, _, rfl, ?_⟩
  simp only [numeral] at read
  split at read
  · cases read
  · rename_i some_digit
    split at read
    · cases read
    · rename_i power after powered
      cases read
      exact ⟨some_digit, rfl, power, after, powered, rfl, rfl⟩

theorem numeral_of_scanned {text whole fraction behind : List Char} {power : Int}
    {after : Tail behind} (scan : scanned text = (whole, fraction, behind))
    (some_digit : ¬ (whole = [] ∧ fraction = []))
    (powered : exponentPart? behind = some (power, after)) :
    ∃ rest, numeral text = .decimal (naturalOf (whole ++ fraction)) (power - fraction.length) rest ∧
      rest.val = after.val := by
  cases scan
  simp only [numeral, dif_neg some_digit]
  split
  · rename_i malformed
    rw [malformed] at powered
    cases powered
  · rename_i powered'
    rw [powered'] at powered
    cases powered
    exact ⟨_, rfl, rfl⟩

theorem numeral_eq_absent {text : List Char} (digitless : Stops Char.isDigit text)
    (pointless : Stops (fun c => c = '.') text) : numeral text = .absent := by
  have whole : (digits text).1 = [] := digitless.takeWhile_eq
  have left : (digits text).2.val = text := digitless.dropWhile_eq
  have fraction := (fractionPart_of_stops pointless).1
  rw [← left] at fraction
  simp only [numeral, dif_pos (And.intro whole fraction)]

theorem Significand.numeral_unmarked {text rest : List Char} {mantissa places : Nat}
    (digits : Significand text mantissa places)
    (ends : ∀ c tail, rest = c :: tail → ∀ m p, ¬ Significand (text ++ [c]) m p)
    (unmarked : ∀ letter tail, rest = letter :: tail → ¬ (letter = 'e' ∨ letter = 'E')) :
    ∃ after, numeral (text ++ rest) = .decimal mantissa (0 - places) after ∧ after.val = rest := by
  obtain ⟨whole, fraction, scan, some_digit, rfl, rfl⟩ := digits.scanned ends
  obtain ⟨after, powered, left⟩ := exponentPart?_of_unmarked unmarked
  obtain ⟨behind, read, same⟩ := numeral_of_scanned scan some_digit powered
  exact ⟨behind, read, same.trans left⟩

theorem Significand.numeral_marked {significand signs size rest text : List Char} {letter : Char}
    {mantissa places : Nat} {negative : Bool} (digits : Significand significand mantissa places)
    (marks : letter = 'e' ∨ letter = 'E') (signed : Sign signs negative) (some_digit : size ≠ [])
    (digital : AllDigits size) (stops : Stops Char.isDigit rest)
    (spelt : text = significand ++ (letter :: (signs ++ size) ++ rest)) :
    ∃ after, numeral text = .decimal mantissa (integerOf negative size - places) after ∧
      after.val = rest := by
  have ends (c : Char) (others : List Char)
      (start : letter :: (signs ++ size) ++ rest = c :: others) (m p : Nat) :
      ¬ Significand (significand ++ [c]) m p := by
    cases start
    intro longer
    rcases longer.character (List.mem_append_right _ List.mem_cons_self) with digit | point
    · rcases marks with rfl | rfl <;> cases digit
    · rcases marks with rfl | rfl <;> cases point
  obtain ⟨whole, fraction, scan, some_digit', rfl, rfl⟩ := digits.scanned ends
  obtain ⟨after, powered, left⟩ := exponentPart?_of_marked marks signed some_digit digital stops
  subst spelt
  obtain ⟨behind, read, same⟩ := numeral_of_scanned scan some_digit' powered
  exact ⟨behind, read, same.trans left⟩

theorem IsNumber.length_rest_le {lexeme tail : List Char} {mantissa : Nat} {exponent : Int}
    {rest : Rest (lexeme ++ tail)} (isNumber : IsNumber lexeme)
    (read : numeral (lexeme ++ tail) = .decimal mantissa exponent rest) :
    rest.val.length ≤ tail.length := by
  obtain ⟨significand, power, _, _, _, rfl, digits, shifted⟩ := isNumber
  cases shifted with
  | none =>
      obtain ⟨whole, fraction, behind, scan, -, -, shift, after, -, -, left⟩ :=
        numeral_eq_decimal read
      have bound := digits.length_scanned_le tail
      rw [List.append_nil] at scan
      rw [scan] at bound
      rw [← left]
      exact Nat.le_trans after.property bound
  | @some letter signs size negative marks signed some_digit digital =>
      -- The digits of the exponent may go on in the tail.
      have digitalToo : AllDigits (size ++ tail.takeWhile Char.isDigit) := by
        intro c member
        rcases List.mem_append.mp member with own | more
        · exact digital c own
        · exact mem_takeWhile more
      have spelt : significand ++ letter :: (signs ++ size) ++ tail =
          significand ++ (letter :: (signs ++ (size ++ tail.takeWhile Char.isDigit)) ++
            tail.dropWhile Char.isDigit) := by
        simp [List.takeWhile_append_dropWhile]
      obtain ⟨after, readToo, left⟩ := digits.numeral_marked marks signed (by simp [some_digit])
        digitalToo (Stops.dropWhile Char.isDigit tail) spelt
      rw [read] at readToo
      cases readToo
      rw [left]
      exact length_dropWhile_le Char.isDigit tail

theorem numeral_sound {text : List Char} {mantissa : Nat} {exponent : Int} {rest : Rest text}
    (read : numeral text = .decimal mantissa exponent rest) :
    Reads text (.number mantissa exponent) rest.val := by
  obtain ⟨whole, fraction, behind, scan, some_digit, rfl, shift, after, powered, rfl, left⟩ :=
    numeral_eq_decimal read
  obtain ⟨significand, split, digits⟩ := significand_of_scanned scan some_digit
  obtain ⟨power, splitToo, shifted, complete⟩ := exponentPart?_sound powered
  rw [splitToo, left, ← List.append_assoc] at split
  rw [left] at complete
  have longest : Longest IsNumber (significand ++ power) rest.val := by
    intro more tail start isNumber
    rw [start, ← List.append_assoc] at split
    subst split
    have bound := isNumber.length_rest_le read
    rw [start, List.length_append] at bound
    exact List.eq_nil_of_length_eq_zero (by omega)
  have reads := Reads.number digits shifted longest complete
  rwa [← split] at reads

theorem numeral_complete {text rest : List Char} {mantissa : Nat} {exponent : Int}
    (read : Reads text (.number mantissa exponent) rest) :
    ∃ after, numeral text = .decimal mantissa exponent after ∧ after.val = rest := by
  cases read with
  | @number significand power _ _ _ _ digits shifted longest complete =>
      cases shifted with
      | none =>
          rw [List.append_nil] at longest ⊢
          refine digits.numeral_unmarked (fun c tail start m p longer => ?_)
            fun letter tail start marks => complete letter tail start marks rfl
          cases longest [c] tail start ⟨_, [], m, p, 0, (List.append_nil _).symm, longer, .none⟩
      | @some letter signs size negative marks signed some_digit digital =>
          have stops : Stops Char.isDigit rest := by
            intro c tail start
            rw [Bool.eq_false_iff]
            intro digit
            have longer := Power.some marks signed (by simp) (digital.concat digit)
            cases longest [c] tail start ⟨significand, _, _, _, _, by simp, digits, longer⟩
          exact digits.numeral_marked marks signed some_digit digital stops
            (List.append_assoc significand _ rest)

theorem Reads.numeral_eq_absent {text rest : List Char} {token : Token}
    (read : Reads text token rest) (other : ∀ mantissa exponent, token ≠ .number mantissa exponent) :
    numeral text = .absent := by
  obtain ⟨c, tail, rfl, begins⟩ := read.begins
  have outside : c.isDigit = false ∧ c ≠ '.' := by
    cases token with
    | number mantissa exponent => exact absurd rfl (other mantissa exponent)
    | word name =>
        have bounds := beginsWord_bounds begins
        constructor
        · rw [Bool.eq_false_iff]
          intro digit
          have := isDigit_bounds digit
          omega
        · rintro rfl
          simp at bounds
    | symbol d =>
        obtain ⟨symbolic, rfl⟩ := begins
        have bounds := symbolic.bounds
        constructor
        · rw [Bool.eq_false_iff]
          intro digit
          have := isDigit_bounds digit
          omega
        · rintro rfl
          simp at bounds
  refine Formula.numeral_eq_absent (fun d others start => ?_) fun d others start => ?_
  · cases start
    exact outside.1
  · cases start
    exact decide_eq_false outside.2

theorem Reads.identifier?_eq_none {text rest : List Char} {c : Char}
    (read : Reads text (.symbol c) rest) : identifier? text = none := by
  obtain ⟨d, tail, rfl, symbolic, rfl⟩ := read.begins
  have bounds := symbolic.bounds
  refine Formula.identifier?_eq_none fun d others start => ?_
  cases start
  rw [Bool.eq_false_iff]
  intro begins
  have := beginsWord_bounds begins
  omega

end LeastSquares.Formula
