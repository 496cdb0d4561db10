/-
# Admission.Proofs.Remote.Script — scripts that a server runs

A script is sent as a text. This module reads the part of the scripting language that the conditional
write is written in, and says what a script does: it looks at the keys and arguments that came with it,
runs commands, and answers.

Text is read in two steps, into tokens and into a block. A block is a list of statements with the
statements after each of them, so that it is run by recursion on its shape. Commands are left open
(`call`): they are the server's business. What the conditional write does is said in the same way, by
what its two commands do (`run_swapBlock`).
-/
import Admission.Proofs.Text
import Admission.Remote.Command

namespace Admission.Remote.Script

/-! ## Syntax -/

/-- The two lists of byte strings that come with a script. -/
inductive Input where
  /-- The keys it is about. -/
  | keys
  /-- Whatever else it needs. -/
  | arguments
deriving DecidableEq

/-- What stands for a value by itself. -/
inductive Term where
  /-- A variable. -/
  | name (name : String)
  /-- What came with the script at a position, counted from one. -/
  | input (input : Input) (position : Nat)
  /-- A text. -/
  | text (text : String)
  /-- A number. -/
  | number (n : Nat)
deriving DecidableEq

/-- What has a value. -/
inductive Expr where
  /-- A term. -/
  | term (term : Term)
  /-- The number that a term writes. -/
  | toNumber (term : Term)
  /-- The answer to a command. -/
  | command (words : List Term)
deriving DecidableEq

/-- What a choice depends on. -/
inductive Condition where
  /-- That there is a value. -/
  | holds (e : Expr)
  /-- That two values are equal. -/
  | equal (a b : Expr)
  /-- That two values differ. -/
  | differ (a b : Expr)
  /-- That one number exceeds another. -/
  | exceeds (a b : Expr)
deriving DecidableEq

/-- Statements, one after the other. -/
inductive Block where
  /-- No more statements. -/
  | done
  /-- A new variable, and what follows. -/
  | declare (name : String) (value : Expr) (rest : Block)
  /-- A command whose answer is not looked at, and what follows. -/
  | command (words : List Term) (rest : Block)
  /-- The answer of the script. -/
  | answer (value : Expr)
  /-- A choice between two blocks, and what follows. -/
  | choose (condition : Condition) (yes no rest : Block)
deriving DecidableEq

/-! ## Tokens -/

/-- The smallest parts of a text that mean something. -/
inductive Token where
  /-- A name, a keyword or a number. -/
  | word (letters : String)
  /-- A quoted text. -/
  | quoted (text : String)
  /-- A sign of one or two characters. -/
  | sign (characters : String)
deriving DecidableEq

/-- A token that may not be complete yet: its characters so far, the last one first. -/
inductive Pending where
  | nothing
  | word (letters : List Char)
  | quoted (text : List Char)
  | sign (character : Char)

/-- The characters that names consist of. -/
def isLetter (c : Char) : Bool := c.isAlphanum || c = '_'

/-- The tokens that are complete before a new one begins. A quoted text has to be closed. -/
def Pending.flush? : Pending → Option (List Token)
  | nothing => some []
  | word letters => some [.word (.ofList letters.reverse)]
  | quoted _ => none
  | sign character => some [.sign (.singleton character)]

/-- How a token begins with a character, which may be one by itself. -/
def Pending.start? (c : Char) : Option (List Token × Pending) :=
  if c.isWhitespace then some ([], nothing)
  else if c = '\'' then some ([], quoted [])
  else if isLetter c then some ([], word [c])
  else if c = '=' ∨ c = '~' ∨ c = '>' then some ([], sign c)
  else if c = '(' ∨ c = ')' ∨ c = '[' ∨ c = ']' ∨ c = ',' ∨ c = '.' then
    some ([.sign (.singleton c)], nothing)
  else none

/-- What a character makes of the token before it. -/
def Pending.next? (p : Pending) (c : Char) : Option (List Token × Pending) :=
  match p with
  | quoted text => if c = '\'' then some ([.quoted (.ofList text.reverse)], nothing)
    else some ([], quoted (c :: text))
  | word letters => if isLetter c then some ([], word (c :: letters)) else fresh
  | sign character =>
    if c = '=' then some ([.sign (.ofList [character, c])], nothing) else fresh
  | nothing => fresh
where
  /-- A new token begins. -/
  fresh : Option (List Token × Pending) := do
    let before ← p.flush?
    let (tokens, p) ← start? c
    return (before ++ tokens, p)

/-- The tokens of a text, the first of which may have begun. -/
def tokens? : Pending → List Char → Option (List Token)
  | p, [] => p.flush?
  | p, c :: rest => do
    let (tokens, p) ← p.next? c
    return tokens ++ (← tokens? p rest)

/-! ## Reading -/

/-- The number that digits write. -/
def digits? (text : List Char) : Option Nat :=
  if text.isEmpty || !text.all Char.isDigit then none else some (Nat.ofDigitChars 10 text 0)

/-- A term, and what follows it. -/
def readTerm? : List Token → Option (Term × List Token)
  | .word list :: .sign "[" :: .word position :: .sign "]" :: rest =>
    match list, digits? position.toList with
    | "KEYS", some n => some (.input .keys n, rest)
    | "ARGV", some n => some (.input .arguments n, rest)
    | _, _ => none
  | .quoted text :: rest => some (.text text, rest)
  | .word letters :: rest =>
    match digits? letters.toList with
    | some n => some (.number n, rest)
    | none => some (.name letters, rest)
  | _ => none

/-- Terms with commas in between up to a closing parenthesis, and what follows that. -/
def readTerms? : Nat → List Token → Option (List Term × List Token)
  | 0, _ => none
  | fuel + 1, tokens => do
    let (term, rest) ← readTerm? tokens
    match rest with
    | .sign "," :: rest =>
      let (terms, rest) ← readTerms? fuel rest
      return (term :: terms, rest)
    | .sign ")" :: rest => return ([term], rest)
    | _ => none

/-- The words of a command after its opening parenthesis, and what follows the command. -/
def readCommand? (tokens : List Token) : Option (List Term × List Token) :=
  readTerms? tokens.length tokens

/-- An expression, and what follows it. -/
def readExpr? : List Token → Option (Expr × List Token)
  | .word "redis" :: .sign "." :: .word "call" :: .sign "(" :: rest => do
    let (words, rest) ← readCommand? rest
    return (.command words, rest)
  | .word "tonumber" :: .sign "(" :: rest => do
    let (term, .sign ")" :: rest) ← readTerm? rest | none
    return (.toNumber term, rest)
  | tokens => do
    let (term, rest) ← readTerm? tokens
    return (.term term, rest)

/-- A condition, the keyword after it, and what follows that. -/
def readCondition? (tokens : List Token) : Option (Condition × List Token) := do
  let (a, rest) ← readExpr? tokens
  match rest with
  | .word "then" :: rest => return (.holds a, rest)
  | .sign sign :: rest =>
    let (b, .word "then" :: rest) ← readExpr? rest | none
    match sign with
    | "==" => return (.equal a b, rest)
    | "~=" => return (.differ a b, rest)
    | ">" => return (.exceeds a b, rest)
    | _ => none
  | _ => none

mutual

/-- A block, and what follows it. -/
def readBlock? : Nat → List Token → Option (Block × List Token)
  | 0, _ => none
  | fuel + 1, .word "local" :: .word name :: .sign "=" :: rest => do
    let (value, rest) ← readExpr? rest
    let (block, rest) ← readBlock? fuel rest
    return (.declare name value block, rest)
  | _ + 1, .word "return" :: rest => do
    let (value, rest) ← readExpr? rest
    return (.answer value, rest)
  | fuel + 1, .word "if" :: rest => do
    let (condition, yes, no, rest) ← readChoice? fuel rest
    let (block, rest) ← readBlock? fuel rest
    return (.choose condition yes no block, rest)
  | fuel + 1, .word "redis" :: .sign "." :: .word "call" :: .sign "(" :: rest => do
    let (words, rest) ← readCommand? rest
    let (block, rest) ← readBlock? fuel rest
    return (.command words block, rest)
  | _ + 1, rest => some (.done, rest)

/-- A choice after its first keyword up to its last one, and what follows that. -/
def readChoice? : Nat → List Token → Option (Condition × Block × Block × List Token)
  | 0, _ => none
  | fuel + 1, tokens => do
    let (condition, rest) ← readCondition? tokens
    let (yes, rest) ← readBlock? fuel rest
    match rest with
    | .word "end" :: rest => return (condition, yes, .done, rest)
    | .word "else" :: rest =>
      let (no, .word "end" :: rest) ← readBlock? fuel rest | none
      return (condition, yes, no, rest)
    | .word "elseif" :: rest =>
      let (inner, innerYes, innerNo, rest) ← readChoice? fuel rest
      return (condition, yes, .choose inner innerYes innerNo .done, rest)
    | _ => none

end

/-- The block that a text writes. -/
def read? (text : List Char) : Option Block := do
  let tokens ← tokens? .nothing text
  let (block, []) ← readBlock? (tokens.length + 1) tokens | none
  return block

/-! ## Running -/

/-- What a script computes with. -/
inductive Value where
  /-- Nothing, as in a variable that was never declared. -/
  | nil
  /-- A truth value. -/
  | boolean (b : Bool)
  /-- A number. Scripts compute in double precision; whether a whole number exceeds zero does not depend
  on that. -/
  | number (n : Int)
  /-- A text, which is any byte string. -/
  | text (bytes : ByteArray)
  /-- The word that a command answered with. -/
  | status (word : String)
deriving DecidableEq

/-- Everything but nothing and falsehood counts as true. -/
def Value.truthy : Value → Bool
  | nil => false
  | boolean b => b
  | _ => true

/-- The word of a command that a value stands for. -/
def Value.word? : Value → Option ByteArray
  | number n => some (toString n).toUTF8
  | text bytes => some bytes
  | _ => none

/-- The number that a word writes in digits. -/
def decimal? (word : ByteArray) : Option Nat := do
  let text ← String.fromUTF8? word
  digits? text.toList

/-- The number that a value is or writes. -/
def Value.toNumber : Value → Value
  | number n => number n
  | text bytes => (decimal? bytes).elim nil fun n => number n
  | _ => nil

/-- What a script can see. -/
structure Frame where
  /-- The keys that came with it. -/
  keys : List ByteArray
  /-- The arguments that came with it. -/
  arguments : List ByteArray
  /-- What it has declared, the newest first. -/
  locals : List (String × Value)

/-- What a script does to something with the state `σ`: it fails with a reason, or has a result. -/
abbrev Run (σ α : Type) := σ → Except String α × σ

namespace Run

variable {σ α β : Type}

/-- It has a result, and that is all. -/
def pure (a : α) : Run σ α := fun s => (.ok a, s)

/-- It fails. -/
def fail (reason : String) : Run σ α := fun s => (.error reason, s)

/-- It goes on with the result, unless it fails. -/
def andThen (x : Run σ α) (next : α → Run σ β) : Run σ β := fun s =>
  match x s with
  | (.ok a, s) => next a s
  | (.error reason, s) => (.error reason, s)

end Run

variable {σ : Type}

/-- The value of a term. -/
def Term.value (frame : Frame) : Term → Value
  | .name x => (frame.locals.lookup x).getD .nil
  | .input .keys position => at? frame.keys position
  | .input .arguments position => at? frame.arguments position
  | .text t => .text t.toUTF8
  | .number n => .number n
where
  /-- What stands at a position, counted from one. -/
  at? (words : List ByteArray) : Nat → Value
    | 0 => .nil
    | i + 1 => words[i]?.elim .nil .text

section

-- how commands are answered
variable (call : List ByteArray → Run σ Value)

/-- Runs a command. Its words must be texts or numbers. -/
def callTerms (frame : Frame) (words : List Term) : Run σ Value :=
  match words.mapM fun term => (term.value frame).word? with
  | some words => call words
  | none => .fail "command arguments must be strings or integers"

/-- The value of an expression. -/
def Expr.eval (frame : Frame) : Expr → Run σ Value
  | .term t => .pure (t.value frame)
  | .toNumber t => .pure (t.value frame).toNumber
  | .command words => callTerms call frame words

/-- Whether a value exceeds another one, which numbers alone do. -/
def Value.exceeds : Value → Value → Run σ Bool
  | .number m, .number n => .pure (decide (n < m))
  | _, _ => .fail "attempt to compare"

/-- Whether a condition is met. -/
def Condition.test (frame : Frame) : Condition → Run σ Bool
  | .holds e => (e.eval call frame).andThen fun v => .pure v.truthy
  | .equal a b => (a.eval call frame).andThen fun v => (b.eval call frame).andThen fun w =>
    .pure (decide (v = w))
  | .differ a b => (a.eval call frame).andThen fun v => (b.eval call frame).andThen fun w =>
    .pure (decide (v ≠ w))
  | .exceeds a b => (a.eval call frame).andThen fun v => (b.eval call frame).andThen fun w =>
    v.exceeds w

/-- What a block does, and its answer if it comes to one. Variables are forgotten at the end of the block
in which they were declared. -/
def Block.run : Block → Frame → Run σ (Option Value)
  | .done, _ => .pure none
  | .declare name value rest, frame => (value.eval call frame).andThen fun v =>
    rest.run { frame with locals := (name, v) :: frame.locals }
  | .command words rest, frame => (callTerms call frame words).andThen fun _ => rest.run frame
  | .answer value, frame => (value.eval call frame).andThen fun v => .pure (some v)
  | .choose condition yes no rest, frame => (condition.test call frame).andThen fun met =>
    (if met then yes.run frame else no.run frame).andThen fun answered =>
      match answered with
      | some v => .pure (some v)
      | none => rest.run frame

variable {call} {frame : Frame} {s s' s'' : σ}

/-- After a declaration the block goes on with the new variable. -/
theorem Block.run_declare {value : Expr} {v : Value} (h : value.eval call frame s = (.ok v, s'))
    (name : String) (rest : Block) :
    (Block.declare name value rest).run call frame s =
      rest.run call { frame with locals := (name, v) :: frame.locals } s' := by
  simp only [Block.run, Run.andThen, h]

/-- After a command the block goes on. -/
theorem Block.run_command {words : List Term} {v : Value}
    (h : callTerms call frame words s = (.ok v, s')) (rest : Block) :
    (Block.command words rest).run call frame s = rest.run call frame s' := by
  simp only [Block.run, Run.andThen, h]

/-- After the chosen part the block goes on, unless that part has an answer. -/
def Block.goOn (call : List ByteArray → Run σ Value) (frame : Frame) (rest : Block)
    (answered : Option Value) : Run σ (Option Value) :=
  match answered with
  | some v => .pure (some v)
  | none => rest.run call frame

/-- A choice whose condition is met. -/
theorem Block.run_choose_yes {condition : Condition} (yes : Block) (answered : Option Value)
    (test : condition.test call frame s = (.ok true, s'))
    (h : yes.run call frame s' = (.ok answered, s'')) (no rest : Block) :
    (Block.choose condition yes no rest).run call frame s = goOn call frame rest answered s'' := by
  simp only [Block.run, Run.andThen, test, if_true, h]
  rfl

/-- A choice whose condition is not met. -/
theorem Block.run_choose_no {condition : Condition} (no : Block) (answered : Option Value)
    (test : condition.test call frame s = (.ok false, s'))
    (h : no.run call frame s' = (.ok answered, s'')) (yes rest : Block) :
    (Block.choose condition yes no rest).run call frame s = goOn call frame rest answered s'' := by
  simp only [Block.run, Run.andThen, test, Bool.false_eq_true, if_false, h]
  rfl

end

/-! ## Words -/

/-- A text is read from its own bytes. -/
theorem fromUTF8?_toUTF8 (text : String) : String.fromUTF8? text.toUTF8 = some text := by
  have valid : text.toUTF8.IsValidUTF8 := text.isValidUTF8
  rw [String.fromUTF8?, dif_pos valid, Option.some.injEq, ← String.toByteArray_inj]
  rfl

/-- A number is read from its own digits. -/
theorem decimal?_toString (n : Nat) : decimal? (toString n).toUTF8 = some n := by
  have all : (toString n).toList.all Char.isDigit = true :=
    List.all_eq_true.mpr (Text.isDigit_toString n)
  have some_digit : (toString n).toList.isEmpty = false :=
    List.isEmpty_eq_false_iff.mpr (Text.toString_ne_nil n)
  simp only [decimal?, fromUTF8?_toUTF8, Option.bind_eq_bind, Option.bind_some, digits?, all, some_digit,
    Bool.not_true, Bool.or_self, Bool.false_eq_true, if_false, Text.ofDigitChars_toString]

/-! ## The conditional write -/

/-- The end of the conditional write: the value is stored, for a time or for good. -/
def storeBlock : Block :=
  .choose (.exceeds (.toNumber (.input .arguments 4)) (.term (.number 0)))
    (.command [.text "SET", .input .keys 1, .input .arguments 3, .text "PX", .input .arguments 4]
      .done)
    (.command [.text "SET", .input .keys 1, .input .arguments 3] .done) <|
  .answer (.term (.number 1))

/-- The middle of the conditional write: unless the value is the expected one, the script ends. -/
def checkBlock (rest : Block) : Block :=
  .choose (.equal (.term (.input .arguments 1)) (.term (.text "1")))
    (.choose (.differ (.term (.name "current")) (.term (.input .arguments 2)))
      (.answer (.term (.number 0))) .done .done)
    (.choose (.holds (.term (.name "current"))) (.answer (.term (.number 0))) .done .done)
    rest

/-- The script of the conditional write. -/
def swapBlock : Block :=
  .declare "current" (.command [.text "GET", .input .keys 1]) (checkBlock storeBlock)

set_option maxRecDepth 4000 in
/-- **The text that is sent** is read as these statements. -/
theorem read?_swapScript : read? swapScript.toList = some swapBlock := by
  -- a literal is a list of characters to begin with, and need not be decoded
  obtain ⟨letters, spelled, reads⟩ :
      ∃ letters, swapScript = .ofList letters ∧ read? letters = some swapBlock :=
    ⟨_, rfl, by decide +kernel⟩
  rw [spelled, String.toList_ofList, reads]

/-- The arguments of the conditional write. -/
def swapArguments (expected : Option ByteArray) (value : ByteArray) (ms : Nat) : List ByteArray :=
  [(if expected.isSome then "1" else "0").toUTF8, expected.getD .empty, value, (toString ms).toUTF8]

/-- What a script reads under a key. -/
def found (v : Option ByteArray) : Value := v.elim (.boolean false) .text

/-- The command with which the conditional write stores a value. -/
def storeWords (key value : ByteArray) (ms : Nat) : List ByteArray :=
  if ms = 0 then ["SET".toUTF8, key, value]
  else ["SET".toUTF8, key, value, "PX".toUTF8, (toString ms).toUTF8]

section

variable {call : List ByteArray → Run σ Value} {s s' s'' : σ} {key value : ByteArray} {ms : Nat}

/-- The end of the conditional write stores the value. -/
theorem run_storeBlock (expected : Option ByteArray) (locals : List (String × Value)) {v : Value}
    (stored : call (storeWords key value ms) s = (.ok v, s')) :
    storeBlock.run call ⟨[key], swapArguments expected value ms, locals⟩ s =
      (.ok (some (.number 1)), s') := by
  have number : Value.toNumber (.text (toString ms).toUTF8) = .number ms := by
    rw [Value.toNumber, decimal?_toString]
    rfl
  have test : (Condition.exceeds (.toNumber (.input .arguments 4)) (.term (.number 0))).test
      call ⟨[key], swapArguments expected value ms, locals⟩ s = (.ok (decide (0 < ms)), s) := by
    show Value.exceeds (.toNumber (.text (toString ms).toUTF8)) (.number 0) s = _
    rw [number]
    simp only [Value.exceeds, Run.pure, Int.natCast_pos]
  rcases Nat.eq_zero_or_pos ms with rfl | positive
  · have stored : callTerms call ⟨[key], swapArguments expected value 0, locals⟩
        [.text "SET", .input .keys 1, .input .arguments 3] s = _ := stored
    exact Block.run_choose_no _ none test (Block.run_command stored .done) _ _
  · rw [storeWords, if_neg (Nat.ne_of_gt positive)] at stored
    have stored : callTerms call ⟨[key], swapArguments expected value ms, locals⟩
        [.text "SET", .input .keys 1, .input .arguments 3, .text "PX", .input .arguments 4] s = _ :=
      stored
    rw [decide_eq_true positive] at test
    exact Block.run_choose_yes _ none test (Block.run_command stored .done) _ _

/-- The conditional write looks whether what it has read is what was expected. -/
theorem run_checkBlock (expected current : Option ByteArray) (rest : Block) :
    (checkBlock rest).run call ⟨[key], swapArguments expected value ms, [("current", found current)]⟩ s =
      if current = expected then
        rest.run call ⟨[key], swapArguments expected value ms, [("current", found current)]⟩ s
      else (.ok (some (.number 0)), s) := by
  cases expected with
  | none => cases current <;> rfl
  | some wanted =>
    have differs : (Condition.differ (.term (.name "current")) (.term (.input .arguments 2))).test call
        ⟨[key], swapArguments (some wanted) value ms, [("current", found current)]⟩ s =
        (.ok (decide (current ≠ some wanted)), s) := by
      cases current with
      | none => rfl
      | some read =>
        show (Except.ok (decide (Value.text read ≠ .text wanted)), s) = _
        simp only [ne_eq, Value.text.injEq, Option.some.injEq]
    -- a value is expected, so the first part of the choice is taken
    by_cases same : current = some wanted
    · rw [if_pos same]
      rw [decide_eq_false (not_not_intro same)] at differs
      have goesOn := Block.run_choose_no .done none differs rfl (.answer (.term (.number 0))) .done
      exact Block.run_choose_yes _ none rfl goesOn _ rest
    · rw [if_neg same]
      rw [decide_eq_true same] at differs
      have ends :=
        Block.run_choose_yes (.answer (.term (.number 0))) (some (.number 0)) differs rfl .done .done
      exact Block.run_choose_yes _ (some (.number 0)) rfl ends _ rest

/-- **The conditional write** reads a value, stores another one if that was the one expected, and says
whether it was. -/
theorem run_swapBlock {current : Option ByteArray} (expected : Option ByteArray) {v : Value}
    (read : call ["GET".toUTF8, key] s = (.ok (found current), s'))
    (stored : call (storeWords key value ms) s' = (.ok v, s'')) :
    swapBlock.run call ⟨[key], swapArguments expected value ms, []⟩ s =
      if current = expected then (.ok (some (.number 1)), s'') else (.ok (some (.number 0)), s') := by
  have read : Expr.eval call ⟨[key], swapArguments expected value ms, []⟩
      (.command [.text "GET", .input .keys 1]) s = _ := read
  rw [swapBlock, Block.run_declare read, run_checkBlock, run_storeBlock expected _ stored]

end

end Admission.Remote.Script
