import Templating.Guard.Expr
import Templating.Number.Numeral

/-!
# Reading guards

The lexemes of a guard are read by the grammar

    disjunction ::= conjunction ("or" conjunction)*
    conjunction ::= negation ("and" negation)*
    negation    ::= "not" negation | comparison
    comparison  ::= operand (relation operand)?
    operand     ::= literal | path | "(" disjunction ")"

in which a run of one connective leans to the left. Parentheses and negations may nest 64 deep.

A reader takes lexemes from the front of a list and returns what it has read with the rest. The
readers that nest take the reader of what stands one level deeper as an argument; there is none
at the innermost level.

## Main definitions

* `Reader`: functions that read an expression from the front of a list of lexemes.
* `parse`: the expression of a guard.
-/

namespace Templating.Guard

/-- Reads an expression from the front of a list of lexemes, and gives the lexemes that are left. -/
abbrev Reader := List Lexeme → Except Fault (Expr × List Lexeme)

/-- How deep parentheses and negations may nest. It is also what makes `readNegation` a structural
recursion. -/
def maxNesting : Nat := 64

/-- The fault at the front of the list: the lexeme there, or the end of the guard, does not fit. -/
def misplaced (endPosition : Nat) : List Lexeme → Fault
  | [] => .guard (.unexpectedEnd endPosition)
  | l :: _ => .guard (.unexpected l.text l.position)

/-- Where the first lexeme stands; the end of the guard if there is none. -/
def frontPosition (endPosition : Nat) : List Lexeme → Nat
  | [] => endPosition
  | l :: _ => l.position

/-- Reads on after an operand: as long as a connective follows, another operand is read and joined
to what stands before it. The run comes to an end because `operand` leaves no more than it was
given, which is checked on the way. -/
def readRun (connective : Symbol) (joined : Expr → Expr → Expr) (operand : Reader)
    (left : Expr) (lexemes : List Lexeme) : Except Fault (Expr × List Lexeme) :=
  match lexemes with
  | [] => .ok (left, [])
  | l :: rest =>
    if l.symbol = connective then
      match operand rest with
      | .error fault => .error fault
      | .ok (right, rest') =>
        if rest'.length ≤ rest.length then
          readRun connective joined operand (joined left right) rest'
        else .ok (joined left right, rest')
    else .ok (left, l :: rest)
termination_by lexemes.length
decreasing_by simp only [List.length_cons]; omega

/-- Reads operands with a connective between them (`readRun`); the run leans to the left. -/
def readChain (connective : Symbol) (joined : Expr → Expr → Expr) (operand : Reader) : Reader :=
  fun lexemes => do
    let (left, rest) ← operand lexemes
    readRun connective joined operand left rest

/-- Reads a disjunction of conjunctions of negations. -/
def readDisjunction (negation : Reader) : Reader :=
  readChain (.keyword .or) .or (readChain (.keyword .and) .and negation)

/-- The literal of a numeral: with a point it is a floating point number (`Numeral.decimal?`),
without one an integer (`Numeral.integer?`), which may be too long. -/
def numeralLiteral (digits : List Char) : Except Fault Scalar :=
  if digits.contains '.' then
    .ok (.number (.binary ((Numeral.decimal? digits).getD .nan)))
  else
    match Numeral.integer? digits with
    | some i => .ok (.number (.int i))
    | none => .error .integerTooLong

/-- Reads the closing parenthesis after an expression. -/
def readClosing (endPosition : Nat) (e : Expr) : Reader
  | ⟨.closing, _⟩ :: rest => .ok (e, rest)
  | lexemes => .error (.guard (.closingExpected (frontPosition endPosition lexemes)))

/-- Reads an operand of a comparison. `inner` reads negations one level deeper. -/
def readOperand (endPosition : Nat) (inner : Option Reader) : Reader
  | ⟨.quoted _ content, _⟩ :: rest => .ok (.literal (.text (String.ofList content)), rest)
  | ⟨.numeral digits, _⟩ :: rest => do
    let l ← numeralLiteral digits
    return (.literal l, rest)
  | ⟨.keyword .true, _⟩ :: rest => .ok (.literal (.bool true), rest)
  | ⟨.keyword .false, _⟩ :: rest => .ok (.literal (.bool false), rest)
  | ⟨.name path, _⟩ :: rest => .ok (.path (String.ofList path), rest)
  | ⟨.opening, position⟩ :: rest =>
    match inner with
    | none => .error (.guard (.nestedTooDeeply position))
    | some negation => do
      let (e, rest) ← readDisjunction negation rest
      readClosing endPosition e rest
  | lexemes => .error (misplaced endPosition lexemes)

/-- Reads an operand, or two with a relation between them. -/
def readComparison (operand : Reader) : Reader := fun lexemes => do
  let (left, rest) ← operand lexemes
  match rest with
  | ⟨.relation r, _⟩ :: rest => do
    let (right, rest) ← operand rest
    return (.compare r left right, rest)
  | rest => return (left, rest)

/-- Reads a negation or a comparison. `inner` reads negations one level deeper. -/
def readNegationOver (endPosition : Nat) (inner : Option Reader) : Reader
  | ⟨.keyword .not, position⟩ :: rest =>
    match inner with
    | none => .error (.guard (.nestedTooDeeply position))
    | some negation => do
      let (e, rest) ← negation rest
      return (.not e, rest)
  | lexemes => readComparison (readOperand endPosition inner) lexemes

/-- Reads a negation in which parentheses and negations nest at most `depth` deep. -/
def readNegation (endPosition : Nat) : (depth : Nat) → Reader
  | 0 => readNegationOver endPosition none
  | depth + 1 => readNegationOver endPosition (some (readNegation endPosition depth))

/-- The expression of a list of lexemes, all of which have to be read; what is left over is
`misplaced`. -/
def parseLexemes (endPosition : Nat) (lexemes : List Lexeme) : Except Fault Expr :=
  match lexemes with
  | [] => .error (.guard .empty)
  | lexemes => do
    let (e, rest) ← readDisjunction (readNegation endPosition maxNesting) lexemes
    match rest with
    | [] => return e
    | rest => throw (misplaced endPosition rest)

/-- The expression of a guard: its lexemes (`lex`), read by `parseLexemes`. -/
def parse (source : String) : Except Fault Expr :=
  match lex source with
  | .error fault => .error (.guard fault)
  | .ok lexemes => parseLexemes source.toList.length lexemes

end Templating.Guard
