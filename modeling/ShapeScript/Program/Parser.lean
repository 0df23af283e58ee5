/-
ShapeScript.Program.Parser — reading declarations.

    program   := shape*
    shape     := "shape" name "(" [ parameter ("," parameter)* ] ")" block
    parameter := name [ "=" expression ]
    block     := "{" call* "}"
    call      := name "(" [ argument ("," argument)* ] ")"
    argument  := name ":" expression

A node's span reaches from its first token to its last.
-/
import ShapeScript.Expr.Parser

namespace ShapeScript

/-- Reads `name: value`. -/
def readArgument (finish : Position) (ts : List Token) : Reading Argument ts.length :=
  (readName finish ts).thenRead fun name rest =>
    (expect finish .colon "':' after the argument name, arguments look like `name: value`"
        rest).thenRead fun _ rest =>
      (expression finish 0 rest).map fun value =>
        ⟨name.name, value, ⟨name.span.start, value.span.finish⟩⟩

/-- Reads a call. -/
def readCall (finish : Position) (ts : List Token) : Reading Call ts.length :=
  (readName finish ts).thenRead fun name rest =>
    (expect finish .openParen ("'(' after '" ++ name.name ++ "'") rest).thenRead fun _ rest =>
      (readEnclosed finish (readArgument finish) "')' to close the call" rest).map
        fun (arguments, closing) =>
          ⟨name.name, arguments, ⟨name.span.start, closing.span.finish⟩⟩

/-- Reads calls up to a closing brace, and that too, which it gives with
them. -/
def readCalls (finish : Position) (ts : List Token) : Reading (List Call × Token) ts.length :=
  match ts with
  | [] => .error ⟨.unexpectedEnd, finish⟩ [] (Nat.le_refl _)
  | t :: rest =>
    if t.kind = .closeBrace then .ok ([], t) rest (Nat.lt_succ_self _)
    else
      (readCall finish (t :: rest)).andThen fun call rest h =>
        ((readCalls finish rest).map fun (calls, closing) => (call :: calls, closing)).below h
termination_by ts.length
decreasing_by exact h

/-- Reads a block. -/
def readBlock (finish : Position) (ts : List Token) : Reading Block ts.length :=
  (expect finish .openBrace "'\x7b' to open the shape body" ts).thenRead fun opening rest =>
    (readCalls finish rest).map fun (calls, closing) =>
      ⟨calls, ⟨opening.span.start, closing.span.finish⟩⟩

/-- Reads a parameter with or without a default. -/
def readParameter (finish : Position) (ts : List Token) : Reading Parameter ts.length :=
  (readName finish ts).andThen fun name rest h =>
    match rest, h with
    | ⟨.assign, _⟩ :: rest, h =>
      ((expression finish 0 rest).map fun value =>
        ⟨name.name, some value, ⟨name.span.start, value.span.finish⟩⟩).below
          (Nat.lt_of_succ_lt h)
    | rest, h => .ok ⟨name.name, none, name.span⟩ rest h

/-- Reads the word that starts a declaration. -/
def readKeyword (finish : Position) (ts : List Token) : Reading Token ts.length :=
  (readToken finish ts).andThen fun t rest h =>
    match t.lexeme with
    | .identifier name =>
      if name = shapeKeyword then .ok t rest h
      else .failed ⟨.expected "the 'shape' keyword" t.kind, t.pos⟩ rest h
    | _ => .failed ⟨.expected "the 'shape' keyword" t.kind, t.pos⟩ rest h

/-- Reads the declaration of a shape. -/
def readShape (finish : Position) (ts : List Token) : Reading Shape ts.length :=
  (readKeyword finish ts).thenRead fun keyword rest =>
    (readName finish rest).thenRead fun name rest =>
      (expect finish .openParen "'(' after the shape name" rest).thenRead fun _ rest =>
        (readEnclosed finish (readParameter finish) "')' to close the parameter list"
            rest).thenRead fun (parameters, _) rest =>
          (readBlock finish rest).map fun body =>
            ⟨name.name, parameters, body, ⟨keyword.span.start, body.span.finish⟩⟩

/-- Reads shapes until no token is left. -/
def readShapes (finish : Position) (ts : List Token) : Reading (List Shape) (ts.length + 1) :=
  match ts with
  | [] => .ok [] [] (Nat.lt_succ_self _)
  | t :: rest =>
    ((readShape finish (t :: rest)).andThen fun shape rest h =>
      ((readShapes finish rest).map (shape :: ·)).within h).within (Nat.le_succ _)
termination_by ts.length
decreasing_by exact h

/-- Reads a program. -/
def readProgram (finish : Position) (ts : List Token) : Reading Program (ts.length + 1) :=
  (readShapes finish ts).map fun shapes => ⟨shapes, finish⟩

/-- Reads a token list that is a program. -/
def parseProgram (ts : List Token) : Except ParseError Program :=
  (readProgram (endOf ts) ts).result

end ShapeScript
