/-
ShapeScript.Expr.Parser — reading expressions.

Expressions are read by binding powers. `expression finish r` reads an
operand and then goes on as long as the next token binds more tightly
than `r`; the right operand of an operator is read with the operator's
own power, so equal powers associate to the left, and the operand of a
prefix minus with a power above all operators. An opening parenthesis
binds tightest of all but continues no expression: calls are not
expressions, and the error says that an operator was wanted.
-/
import ShapeScript.Token.Reading

namespace ShapeScript

/-- The operator that a lexeme writes. -/
def Lexeme.binaryOp? : Lexeme → Option BinaryOp
  | .times => some .times
  | .divide => some .divide
  | .plus => some .plus
  | .minus => some .minus
  | _ => none

/-- The power of an opening parenthesis that follows an expression. -/
def callPower : Int := 80

/-- The power with which the operand of a prefix minus is read. -/
def prefixPower : Int := 60

/-- How tightly a lexeme binds the expression to its left. -/
def Lexeme.leftPower : Lexeme → Int
  | .openParen => callPower
  | lexeme => (lexeme.binaryOp?.map BinaryOp.power).getD 0

/-- The next token binds more tightly than `r`. -/
def bindsTighter (r : Int) : List Token → Bool
  | [] => false
  | t :: _ => r < t.lexeme.leftPower

mutual

/-- Reads an expression whose operators bind more tightly than `r`. -/
def expression (finish : Position) (r : Int) (ts : List Token) : Reading Expr ts.length :=
  match ts with
  | [] => .error ⟨.unexpectedEnd, finish⟩ [] (Nat.le_refl _)
  | t :: rest =>
    (operand finish t rest).andThen fun left after h =>
      (continuation finish r left after).within h
termination_by 2 * ts.length
decreasing_by
  · simp only [List.length_cons]; omega
  · simp only [List.length_cons] at h ⊢; omega

/-- Reads the rest of an operand that starts with the token `t`. -/
def operand (finish : Position) (t : Token) (ts : List Token) : Reading Expr (ts.length + 1) :=
  match t.lexeme with
  | .identifier name =>
    if isReserved name then .error ⟨.reservedWord name, t.pos⟩ ts (Nat.le_succ _)
    else .ok (.name name t.span) ts (Nat.lt_succ_self _)
  | .number value => .ok (.number value t.span) ts (Nat.lt_succ_self _)
  | .string text => .ok (.string text t.span) ts (Nat.lt_succ_self _)
  | .minus =>
    ((expression finish prefixPower ts).map fun e =>
      .negation e t.pos ⟨t.span.start, e.span.finish⟩).within (Nat.le_succ _)
  | .openParen =>
    ((expression finish 0 ts).within (Nat.le_succ _)).andThen fun inner rest h =>
      match rest, h with
      | ⟨.closeParen, span⟩ :: after, h =>
        .ok (.grouping inner ⟨t.span.start, span.finish⟩) after (Nat.lt_of_succ_lt h)
      | rest, h => .failed ⟨.unbalancedParen, t.pos⟩ rest h
  | _ => .error ⟨.expected "an expression" t.kind, t.pos⟩ ts (Nat.le_succ _)
termination_by 2 * ts.length + 1

/-- Reads operators and operands after `left` as long as they bind more
tightly than `r`. -/
def continuation (finish : Position) (r : Int) (left : Expr) (ts : List Token) :
    Reading Expr (ts.length + 1) :=
  match ts with
  | [] => .ok left [] (Nat.lt_succ_self _)
  | t :: rest =>
    if r < t.lexeme.leftPower then
      ((application finish left t rest).andThen fun e after h =>
        (continuation finish r e after).within h).within (Nat.le_succ _)
    else .ok left (t :: rest) (Nat.lt_succ_self _)
termination_by 2 * ts.length
decreasing_by
  · simp only [List.length_cons]; omega
  · simp only [List.length_cons]; omega

/-- Reads what the token `t` makes of the expression to its left. -/
def application (finish : Position) (left : Expr) (t : Token) (ts : List Token) :
    Reading Expr (ts.length + 1) :=
  match t.lexeme.binaryOp? with
  | some op =>
    ((expression finish op.power ts).map fun right =>
      .binary left op right t.pos ⟨left.span.start, right.span.finish⟩).within (Nat.le_succ _)
  | none => .error ⟨.expected "an operator" t.kind, t.pos⟩ ts (Nat.le_succ _)
termination_by 2 * ts.length + 1

end

/-- Reads a token list that is one expression. -/
def parseExpression (ts : List Token) : Except ParseError Expr :=
  (expression (endOf ts) 0 ts).complete "the end of the expression"

end ShapeScript
