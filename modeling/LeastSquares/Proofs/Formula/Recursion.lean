import Mathlib.Logic.Relation
import LeastSquares.Proofs.Formula.Positions

/-!
# How the parser recurses

A round is what one parser does between the calls of others: a script that asks for their answers
and goes on with them. With the answers of the parsers themselves every round comes to the answer of
its parser (`run_round`), and the calls that it asks for stand at a shorter end of the text, or at
the same text and further on in the grammar, and nest no deeper than the limit (`below_round`). So
calls come to an end, and only the parsers answer them all as the rounds say.
-/

namespace LeastSquares.Formula

open Text

variable {α : Type}

inductive Stage where
  | category (category : Category)
  | named
  | parens

/-- A parser that is called on a text, or the loop that goes on with a chain. -/
inductive Call (α : Type) where
  | stage (stage : Stage) (depth : Nat) (text : List Char)
  | extend (level : Level) (depth : Nat) {text : List Char} (soFar : Parsed α text)

def Category.rank : Category → Nat
  | chain .sum => 5
  | chain .product => 4
  | unary => 3
  | power => 2
  | atom => 1

theorem rank_operands_lt (level : Level) : level.operands.rank < (Category.chain level).rank := by
  cases level <;> decide

def Stage.rank : Stage → Nat
  | category inner => inner.rank
  | named | parens => 0

namespace Call

def origin : Call α → List Char
  | stage _ _ text => text
  | @extend _ _ _ text _ => text

def rest : Call α → List Char
  | stage _ _ text => text
  | extend _ _ soFar => soFar.rest

def depth : Call α → Nat
  | stage _ depth _ => depth
  | extend _ depth _ => depth

def rank : Call α → Nat
  | stage parser _ _ => parser.rank
  | extend _ _ _ => 0

abbrev Answer (call : Call α) : Type :=
  Except Failure (Parsed α call.origin)

end Call

/-- A call that another may need: it has a shorter end of the text before it or stands further on in
the grammar, and it nests as deep as the other or, within the limit, one level deeper. -/
structure Call.Below (inner call : Call α) : Prop where
  suffix : inner.rest <:+ call.rest
  onward : inner.rest.length < call.rest.length ∨ inner.rest = call.rest ∧ inner.rank < call.rank
  enters : inner.depth = call.depth ∨ call.depth < nestingLimit ∧ inner.depth = call.depth + 1

theorem Call.Below.measure_lt {inner call : Call α} (below : inner.Below call) :
    Prod.Lex (· < ·) (· < ·) (inner.rest.length, inner.rank) (call.rest.length, call.rank) := by
  rcases below.onward with shorter | ⟨same, later⟩
  · exact .left _ _ shorter
  · rw [same]
    exact .right _ later

/-! ## Scripts -/

/-- A computation that asks for the answers to calls. -/
inductive Script (α β : Type) where
  | done (result : β)
  | ask (inner : Call α) (goOn : inner.Answer → Script α β)

namespace Script

variable {β : Type}

def run (answer : (call : Call α) → call.Answer) : Script α β → β
  | done result => result
  | ask inner goOn => (goOn (answer inner)).run answer

def calls (answer : (call : Call α) → call.Answer) : Script α β → List (Call α)
  | done _ => []
  | ask inner goOn => inner :: (goOn (answer inner)).calls answer

theorem run_congr {answer other : (call : Call α) → call.Answer} {script : Script α β}
    (agree : ∀ inner ∈ script.calls answer, other inner = answer inner) :
    script.run other = script.run answer := by
  induction script with
  | done result => rfl
  | ask inner goOn ih =>
      have first : other inner = answer inner := agree inner List.mem_cons_self
      simp only [run, first]
      exact ih _ fun later member => agree later (List.mem_cons_of_mem _ member)

def require (stage : Stage) (depth : Nat) (text : List Char)
    (goOn : Parsed α text → Script α (Except Failure β)) : Script α (Except Failure β) :=
  ask (.stage stage depth text) fun
    | .error failure => done (.error failure)
    | .ok parsed => goOn parsed

def enter (stage : Stage) (depth : Nat) (inside : List Char)
    (goOn : Parsed α inside → Script α (Except Failure β)) : Script α (Except Failure β) :=
  if depth < nestingLimit then require stage (depth + 1) inside goOn
  else done (.error (.tooDeep inside))

end Script

/-! ## Rounds -/

section Lengths

variable {text : List Char}

theorem length_rest_lt (after : Rest text) : after.val.length < text.length :=
  after.property

theorem length_rest_le (after : Rest text) : after.val.length ≤ text.length :=
  (length_rest_lt after).le

theorem length_rest_lt_of_skipBlanks (after : Rest (skipBlanks text)) :
    after.val.length < text.length :=
  (length_rest_lt after).trans_le (length_skipBlanks_le text)

theorem Parsed.length_rest_lt {after : Rest text} (parsed : Parsed α after.val) :
    parsed.rest.length < text.length :=
  parsed.shorter.trans (Formula.length_rest_lt after)

end Lengths

section Rounds

open Script

variable [Scalar α]

def chainRound (level : Level) (depth : Nat) (text : List Char) :
    Script α (Except Failure (Parsed α text)) :=
  require (.category level.operands) depth text fun first =>
    ask (.extend level depth first) done

def extendRound (level : Level) (depth : Nat) {text : List Char} (soFar : Parsed α text) :
    Script α (Except Failure (Parsed α text)) :=
  match token? level.operator? soFar.rest with
  | none => done (.ok soFar)
  | some (op, after) =>
    ask (.stage (.category level.operands) depth after.val) fun
      | .error (.absent _) => done (.ok soFar)
      | .error failure => done (.error failure)
      | .ok operand =>
        let longer : Parsed α text :=
          { formula := .binary op soFar.formula operand.formula
            height := max soFar.height operand.height + 1
            rest := operand.rest
            shorter := operand.length_rest_lt.trans soFar.shorter }
        if longer.height ≤ nestingLimit then ask (.extend level depth longer) done
        else done (.error (.tooDeep longer.rest))

def unaryRound (depth : Nat) (text : List Char) : Script α (Except Failure (Parsed α text)) :=
  match character? '-' text with
  | some after =>
    enter (.category .unary) depth after.val fun operand =>
      done (Parsed.limited
        { formula := .neg operand.formula
          height := operand.height + 1
          rest := operand.rest
          shorter := operand.length_rest_lt })
  | none =>
    match character? '+' text with
    | some after =>
      enter (.category .unary) depth after.val fun operand =>
        done (.ok (operand.within (length_rest_le after)))
    | none => ask (.stage (.category .power) depth text) done

def powerRound (depth : Nat) (text : List Char) : Script α (Except Failure (Parsed α text)) :=
  require (.category .atom) depth text fun base =>
    match character? '^' base.rest with
    | none => done (.ok base)
    | some after =>
      enter (.category .unary) depth after.val fun exponent =>
        done (Parsed.limited
          { formula := .binary .pow base.formula exponent.formula
            height := max base.height exponent.height + 1
            rest := exponent.rest
            shorter := exponent.length_rest_lt.trans base.shorter })

def atomRound (depth : Nat) (text : List Char) : Script α (Except Failure (Parsed α text)) :=
  let start := skipBlanks text
  match numeral start with
  | .malformed => done (.error (.malformedNumber start))
  | .decimal mantissa exponent rest =>
    done (.ok
      { formula := .number (Scalar.ofDecimal mantissa exponent)
        height := 1
        rest := rest.val
        shorter := length_rest_lt_of_skipBlanks rest })
  | .absent =>
    ask (.stage .named depth start) fun
      | .ok parsed => done (.ok (parsed.within (length_skipBlanks_le text)))
      | .error (.absent _) =>
        require .parens depth start fun parsed =>
          done (.ok (parsed.within (length_skipBlanks_le text)))
      | .error failure => done (.error failure)

def namedRound (depth : Nat) (text : List Char) : Script α (Except Failure (Parsed α text)) :=
  match identifier? text with
  | none => done (.error (.absent text))
  | some (name, after) =>
    match Elementary.ofName? name with
    | some f =>
      require .parens depth after.val fun argument =>
        done (Parsed.limited
          { formula := .call f argument.formula
            height := argument.height + 1
            rest := argument.rest
            shorter := argument.length_rest_lt })
    | none =>
      match ofName? name with
      | some leaf =>
        done (.ok { formula := leaf, height := 1, rest := after.val, shorter := length_rest_lt after })
      | none => done (.error (.unknownSymbol name text))

def parensRound (depth : Nat) (text : List Char) : Script α (Except Failure (Parsed α text)) :=
  match character? '(' text with
  | none => done (.error (.absent (skipBlanks text)))
  | some inside =>
    enter (.category (.chain .sum)) depth inside.val fun inner =>
      match character? ')' inner.rest with
      | none => done (.error (.absent (skipBlanks inner.rest)))
      | some after =>
        done (.ok
          { formula := inner.formula
            height := inner.height
            rest := after.val
            shorter := after.property.trans inner.length_rest_lt })

/-- What is done for a call between the calls of others. -/
def round : (call : Call α) → Script α call.Answer
  | .stage (.category (.chain level)) depth text => chainRound level depth text
  | .stage (.category .unary) depth text => unaryRound depth text
  | .stage (.category .power) depth text => powerRound depth text
  | .stage (.category .atom) depth text => atomRound depth text
  | .stage .named depth text => namedRound depth text
  | .stage .parens depth text => parensRound depth text
  | .extend level depth soFar => extendRound level depth soFar

/-! ## The answers of the parsers -/

def Stage.parse (depth : Nat) (text : List Char) : Stage → Except Failure (Parsed α text)
  | .category (.chain level) => parseChain level depth text
  | .category .unary => parseUnary depth text
  | .category .power => parsePower depth text
  | .category .atom => parseAtom depth text
  | named => parseNamed depth text
  | parens => parseParens depth text

theorem parse_operands (level : Level) (depth : Nat) (text : List Char) :
    (Stage.category level.operands).parse (α := α) depth text = parseOperand level depth text := by
  cases level with
  | sum => rw [parseOperand.eq_def]; rfl
  | product => rw [parseOperand.eq_def]; rfl

namespace Call

def answer : (call : Call α) → call.Answer
  | stage parser depth text => parser.parse depth text
  | extend level depth soFar => extendChain level depth soFar

end Call

section Answers

variable {β : Type}

theorem run_require (stage : Stage) (depth : Nat) (text : List Char)
    (goOn : Parsed α text → Script α (Except Failure β)) :
    (require stage depth text goOn).run Call.answer =
      match stage.parse depth text with
      | .error failure => .error failure
      | .ok parsed => (goOn parsed).run Call.answer := by
  rw [require, run, Call.answer]
  cases stage.parse (α := α) depth text <;> rfl

theorem run_enter (stage : Stage) (depth : Nat) (inside : List Char)
    (goOn : Parsed α inside → Script α (Except Failure β)) :
    (enter stage depth inside goOn).run Call.answer =
      if depth < nestingLimit then
        match stage.parse (depth + 1) inside with
        | .error failure => .error failure
        | .ok parsed => (goOn parsed).run Call.answer
      else .error (.tooDeep inside) := by
  unfold enter
  split
  · exact run_require stage (depth + 1) inside goOn
  · rfl

theorem run_chainRound (level : Level) (depth : Nat) (text : List Char) :
    (chainRound level depth text).run Call.answer = parseChain (α := α) level depth text := by
  rw [parseChain, chainRound, run_require, parse_operands]
  rfl

theorem run_extendRound (level : Level) (depth : Nat) {text : List Char} (soFar : Parsed α text) :
    (extendRound level depth soFar).run Call.answer = extendChain level depth soFar := by
  rw [extendChain, extendRound]
  cases token? level.operator? soFar.rest with
  | none => rfl
  | some token =>
      obtain ⟨op, after⟩ := token
      simp only [run, Call.answer, parse_operands]
      cases parseOperand (α := α) level depth after.val with
      | error failure => cases failure <;> rfl
      | ok operand =>
          dsimp only
          split <;> rfl

theorem run_unaryRound (depth : Nat) (text : List Char) :
    (unaryRound depth text).run Call.answer = parseUnary (α := α) depth text := by
  rw [parseUnary, unaryRound]
  cases character? '-' text with
  | some after =>
      dsimp only
      rw [run_enter, Stage.parse]
      cases parseUnary (α := α) (depth + 1) after.val <;> rfl
  | none =>
      dsimp only
      cases character? '+' text with
      | some after =>
          dsimp only
          rw [run_enter, Stage.parse]
          cases parseUnary (α := α) (depth + 1) after.val <;> rfl
      | none => rfl

theorem run_powerRound (depth : Nat) (text : List Char) :
    (powerRound depth text).run Call.answer = parsePower (α := α) depth text := by
  rw [parsePower, powerRound, run_require, Stage.parse]
  cases parseAtom (α := α) depth text with
  | error failure => rfl
  | ok base =>
      dsimp only
      cases character? '^' base.rest with
      | none => rfl
      | some after =>
          dsimp only
          rw [run_enter, Stage.parse]
          cases parseUnary (α := α) (depth + 1) after.val <;> rfl

theorem run_atomRound (depth : Nat) (text : List Char) :
    (atomRound depth text).run Call.answer = parseAtom (α := α) depth text := by
  rw [parseAtom, atomRound]
  cases numeral (skipBlanks text) with
  | malformed => rfl
  | decimal mantissa exponent rest => rfl
  | absent =>
      simp only [run, Call.answer, Stage.parse]
      cases parseNamed (α := α) depth (skipBlanks text) with
      | ok parsed => rfl
      | error failure =>
          cases failure with
          | absent rest =>
              dsimp only
              rw [run_require, Stage.parse]
              cases parseParens (α := α) depth (skipBlanks text) <;> rfl
          | malformedNumber rest | unknownSymbol name rest | tooDeep rest => rfl

theorem run_namedRound (depth : Nat) (text : List Char) :
    (namedRound depth text).run Call.answer = parseNamed (α := α) depth text := by
  rw [parseNamed, namedRound]
  cases identifier? text with
  | none => rfl
  | some word =>
      obtain ⟨name, after⟩ := word
      dsimp only
      cases Elementary.ofName? name with
      | some f =>
          dsimp only
          rw [run_require, Stage.parse]
          cases parseParens (α := α) depth after.val <;> rfl
      | none =>
          dsimp only
          cases ofName? (α := α) name <;> rfl

theorem run_parensRound (depth : Nat) (text : List Char) :
    (parensRound depth text).run Call.answer = parseParens (α := α) depth text := by
  rw [parseParens, parensRound]
  cases character? '(' text with
  | none => rfl
  | some inside =>
      dsimp only
      rw [run_enter, Stage.parse]
      split
      · cases parseChain (α := α) .sum (depth + 1) inside.val with
        | error failure => rfl
        | ok inner =>
            dsimp only
            cases character? ')' inner.rest <;> rfl
      · rfl

theorem run_round (call : Call α) : (round call).run Call.answer = call.answer := by
  match call with
  | .stage (.category (.chain level)) depth text => exact run_chainRound level depth text
  | .stage (.category .unary) depth text => exact run_unaryRound depth text
  | .stage (.category .power) depth text => exact run_powerRound depth text
  | .stage (.category .atom) depth text => exact run_atomRound depth text
  | .stage .named depth text => exact run_namedRound depth text
  | .stage .parens depth text => exact run_parensRound depth text
  | .extend level depth soFar => exact run_extendRound level depth soFar

end Answers

/-! ## The calls of a round -/

def Script.Below {β : Type} (call : Call α) (script : Script α β) : Prop :=
  ∀ inner ∈ script.calls Call.answer, inner.Below call

theorem suffix_of_parse {stage : Stage} {depth : Nat} {text : List Char} {parsed : Parsed α text}
    (read : stage.parse depth text = .ok parsed) : parsed.rest <:+ text := by
  have inside : StaysInside text (stage.parse (α := α) depth text) := by
    match stage with
    | .category (.chain level) => exact parseChain_inside level depth text
    | .category .unary => exact parseUnary_inside depth text
    | .category .power => exact parsePower_inside depth text
    | .category .atom => exact parseAtom_inside depth text
    | .named => exact parseNamed_inside depth text
    | .parens => exact parseParens_inside depth text
  rw [read] at inside
  exact inside

section Below

variable {β : Type} {call : Call α}

theorem below_done {result : β} : (done result : Script α β).Below call := by
  intro inner asked
  cases asked

theorem below_ask {inner : Call α} {goOn : inner.Answer → Script α β} (first : inner.Below call)
    (others : (goOn inner.answer).Below call) : (ask inner goOn).Below call := by
  intro other asked
  rw [calls, List.mem_cons] at asked
  rcases asked with rfl | asked
  · exact first
  · exact others other asked

theorem below_require {stage : Stage} {depth : Nat} {text : List Char}
    {goOn : Parsed α text → Script α (Except Failure β)}
    (first : (Call.stage stage depth text).Below call)
    (others : ∀ parsed, stage.parse depth text = .ok parsed → (goOn parsed).Below call) :
    (require stage depth text goOn).Below call := by
  refine below_ask first ?_
  simp only [Call.answer]
  cases read : stage.parse (α := α) depth text with
  | error failure => exact below_done
  | ok parsed => exact others parsed read

theorem below_enter {stage : Stage} {inside : List Char}
    {goOn : Parsed α inside → Script α (Except Failure β)} (suffix : inside <:+ call.rest)
    (shorter : inside.length < call.rest.length) (others : ∀ parsed, (goOn parsed).Below call) :
    (enter stage call.depth inside goOn).Below call := by
  unfold enter
  split
  · rename_i room
    exact below_require ⟨suffix, .inl shorter, .inr ⟨room, rfl⟩⟩ fun parsed _ => others parsed
  · exact below_done

end Below

theorem below_chainRound (level : Level) (depth : Nat) (text : List Char) :
    (chainRound (α := α) level depth text).Below (.stage (.category (.chain level)) depth text) := by
  refine below_require ⟨List.suffix_rfl, .inr ⟨rfl, rank_operands_lt level⟩, .inl rfl⟩ ?_
  intro first read
  exact below_ask ⟨suffix_of_parse read, .inl first.shorter, .inl rfl⟩ below_done

theorem below_extendRound (level : Level) (depth : Nat) {text : List Char}
    (soFar : Parsed α text) : (extendRound level depth soFar).Below (.extend level depth soFar) := by
  unfold extendRound
  cases joined : token? level.operator? soFar.rest with
  | none => exact below_done
  | some token =>
      obtain ⟨op, after⟩ := token
      have behind : after.val <:+ soFar.rest := token?_suffix joined
      refine below_ask ⟨behind, .inl after.property, .inl rfl⟩ ?_
      simp only [Call.answer]
      cases read : (Stage.category level.operands).parse (α := α) depth after.val with
      | error failure => cases failure <;> exact below_done
      | ok operand =>
          dsimp only
          split
          · exact below_ask ⟨(suffix_of_parse read).trans behind,
              .inl (Nat.lt_trans operand.shorter after.property), .inl rfl⟩ below_done
          · exact below_done

theorem below_unaryRound (depth : Nat) (text : List Char) :
    (unaryRound (α := α) depth text).Below (.stage (.category .unary) depth text) := by
  unfold unaryRound
  cases minus : character? '-' text with
  | some after =>
      exact below_enter (character?_suffix minus) after.property fun operand => below_done
  | none =>
      dsimp only
      cases plus : character? '+' text with
      | some after =>
          exact below_enter (character?_suffix plus) after.property fun operand => below_done
      | none =>
          exact below_ask ⟨List.suffix_rfl, .inr ⟨rfl, Nat.lt_succ_self _⟩, .inl rfl⟩ below_done

theorem below_powerRound (depth : Nat) (text : List Char) :
    (powerRound (α := α) depth text).Below (.stage (.category .power) depth text) := by
  refine below_require ⟨List.suffix_rfl, .inr ⟨rfl, Nat.lt_succ_self _⟩, .inl rfl⟩ ?_
  intro base read
  cases hat : character? '^' base.rest with
  | none => exact below_done
  | some after =>
      exact below_enter ((character?_suffix hat).trans (suffix_of_parse read))
        (Nat.lt_trans after.property base.shorter) fun exponent => below_done

theorem below_atomRound (depth : Nat) (text : List Char) :
    (atomRound (α := α) depth text).Below (.stage (.category .atom) depth text) := by
  have suffix := skipBlanks_suffix text
  -- Where there are no blanks, what stands behind them is the same text.
  have onward : (skipBlanks text).length < text.length ∨ skipBlanks text = text ∧ 0 < 1 := by
    rcases Nat.lt_or_eq_of_le suffix.length_le with shorter | same
    · exact .inl shorter
    · exact .inr ⟨suffix.eq_of_length same, Nat.one_pos⟩
  unfold atomRound
  dsimp only
  cases numeral (skipBlanks text) with
  | malformed => exact below_done
  | decimal mantissa exponent rest => exact below_done
  | absent =>
      refine below_ask ⟨suffix, onward, .inl rfl⟩ ?_
      simp only [Call.answer]
      cases Stage.named.parse (α := α) depth (skipBlanks text) with
      | ok parsed => exact below_done
      | error failure =>
          cases failure with
          | absent rest =>
              exact below_require ⟨suffix, onward, .inl rfl⟩ fun parsed _ => below_done
          | malformedNumber rest | unknownSymbol name rest | tooDeep rest => exact below_done

theorem below_namedRound (depth : Nat) (text : List Char) :
    (namedRound (α := α) depth text).Below (.stage .named depth text) := by
  unfold namedRound
  cases word : identifier? text with
  | none => exact below_done
  | some token =>
      obtain ⟨name, after⟩ := token
      dsimp only
      cases Elementary.ofName? name with
      | some f =>
          exact below_require ⟨(identifier?_sound word).suffix, .inl after.property, .inl rfl⟩
            fun argument _ => below_done
      | none =>
          dsimp only
          cases ofName? (α := α) name <;> exact below_done

theorem below_parensRound (depth : Nat) (text : List Char) :
    (parensRound (α := α) depth text).Below (.stage .parens depth text) := by
  unfold parensRound
  cases opened : character? '(' text with
  | none => exact below_done
  | some inside =>
      refine below_enter (character?_suffix opened) inside.property fun inner => ?_
      cases character? ')' inner.rest <;> exact below_done

theorem below_round (call : Call α) : (round call).Below call := by
  match call with
  | .stage (.category (.chain level)) depth text => exact below_chainRound level depth text
  | .stage (.category .unary) depth text => exact below_unaryRound depth text
  | .stage (.category .power) depth text => exact below_powerRound depth text
  | .stage (.category .atom) depth text => exact below_atomRound depth text
  | .stage .named depth text => exact below_namedRound depth text
  | .stage .parens depth text => exact below_parensRound depth text
  | .extend level depth soFar => exact below_extendRound level depth soFar

/-! ## The calls of a whole run -/

def Call.AskedBy (inner call : Call α) : Prop :=
  inner ∈ (round call).calls Call.answer

theorem wellFounded_askedBy : WellFounded (Call.AskedBy (α := α)) := by
  have order : WellFounded (Prod.Lex (· < ·) (· < ·) : Nat × Nat → Nat × Nat → Prop) :=
    WellFounded.prod_lex Nat.lt_wfRel.wf Nat.lt_wfRel.wf
  refine Subrelation.wf ?_ (InvImage.wf (fun call : Call α => (call.rest.length, call.rank)) order)
  intro inner call asked
  exact (below_round call inner asked).measure_lt

theorem suffix_and_depth_of_reached {inner call : Call α}
    (reached : Relation.ReflTransGen Call.AskedBy inner call) :
    inner.rest <:+ call.rest ∧ (call.depth ≤ nestingLimit → inner.depth ≤ nestingLimit) := by
  induction reached with
  | refl => exact ⟨List.suffix_rfl, id⟩
  | @tail between call _ asked ih =>
      have below := below_round call between asked
      refine ⟨ih.1.trans below.suffix, fun shallow => ih.2 ?_⟩
      have := below.enters
      omega

theorem eq_answer {other : (call : Call α) → call.Answer}
    (solves : ∀ call, (round call).run other = other call) : other = Call.answer := by
  have ends := wellFounded_askedBy (α := α)
  funext call
  induction call using ends.induction with
  | _ call ih =>
      rw [← solves, ← run_round]
      exact run_congr ih

theorem height_of_parse {stage : Stage} {depth : Nat} {text : List Char} {parsed : Parsed α text}
    (enters : depth ≤ nestingLimit) (read : stage.parse depth text = .ok parsed) :
    parsed.height = parsed.formula.height ∧ parsed.height ≤ nestingLimit := by
  obtain ⟨category, accepts⟩ : ∃ category, Accepts category depth parsed := by
    match stage, read with
    | .category (.chain level), read => exact ⟨_, parseChain_sound enters read⟩
    | .category .unary, read => exact ⟨_, parseUnary_sound enters read⟩
    | .category .power, read => exact ⟨_, parsePower_sound enters read⟩
    | .category .atom, read => exact ⟨_, parseAtom_sound enters read⟩
    | .named, read => exact ⟨_, parseNamed_sound enters read⟩
    | .parens, read => exact ⟨_, (parseParens_sound read).accepts⟩
  exact ⟨accepts.height_eq, accepts.height_le⟩

/-- A parser that succeeds leaves a shorter end of its text and tells the height of its formula,
which is within the limit; so does every operator of a chain shorten the text. Every call that a
parser makes stands before a shorter end of its text, or before the same text and further on in the
grammar, and nests no deeper than the limit if the parser does not. So calls come to an end, and the
answers of the parsers are the only ones that agree with what is done between the calls. -/
theorem parsers_advance (α : Type) [Scalar α] :
    (∀ (stage : Stage) (depth : Nat) (text : List Char) (parsed : Parsed α text),
      depth ≤ nestingLimit → stage.parse depth text = .ok parsed →
        parsed.rest <:+ text ∧ parsed.rest.length < text.length ∧
        parsed.height = parsed.formula.height ∧ parsed.height ≤ nestingLimit) ∧
    (∀ (level : Level) (text : List Char) (op : Operator) (after : Rest text),
      token? level.operator? text = some (op, after) →
        after.val <:+ text ∧ after.val.length < text.length) ∧
    (∀ inner call : Call α, inner.AskedBy call → inner.Below call) ∧
    (∀ inner call : Call α, Relation.ReflTransGen Call.AskedBy inner call →
      inner.rest <:+ call.rest ∧ (call.depth ≤ nestingLimit → inner.depth ≤ nestingLimit)) ∧
    WellFounded (Call.AskedBy (α := α)) ∧
    (∀ call : Call α, (round call).run Call.answer = call.answer) ∧
    ∀ other : (call : Call α) → call.Answer,
      (∀ call, (round call).run other = other call) → other = Call.answer := by
  refine ⟨fun stage depth text parsed shallow read => ?_, fun level text op after joined => ?_,
    fun inner call asked => below_round call inner asked, fun inner call reached => ?_,
    wellFounded_askedBy, run_round, fun other solves => eq_answer solves⟩
  · exact ⟨suffix_of_parse read, parsed.shorter, height_of_parse shallow read⟩
  · exact ⟨token?_suffix joined, after.property⟩
  · exact suffix_and_depth_of_reached reached

end Rounds

end LeastSquares.Formula
