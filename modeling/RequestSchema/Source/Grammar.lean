import RequestSchema.Source.Grammar.Statement

/-!
The whole grammar. Each construct that may hold itself reads at least one lexeme before it does, so
the number of lexemes bounds the depth, and `Grammar.ofDepth` is built from the depth below.
-/
namespace RequestSchema.Source

def Grammar.ofDepth : Nat → Grammar
  | 0 => ⟨Parse.fail, fun _ => Parse.fail, Parse.fail, Parse.fail⟩
  | depth + 1 =>
      let inner := Grammar.ofDepth depth
      { expression := Parse.expression inner
        operand := Parse.operand inner
        statement := Parse.statement inner
        members := Parse.members inner }

def Parse.source (g : Grammar) : Parse (List Stmt) := do
  let statements ← Parse.many do
    if (← Parse.peek).kind = .done then return none else return some (← g.statement)
  return statements.flatten

def SourceTree.ofText (text : String) : Except SyntaxFault SourceTree := do
  let lexemes := scan text
  let (statements, cursor) ← (Parse.source (Grammar.ofDepth (lexemes.length + 1))).run
    { rest := lexemes }
  return ⟨statements, cursor.declarations⟩

def SyntaxFault.message (fault : SyntaxFault) : String :=
  "Syntax error near line " ++ toString fault.line

end RequestSchema.Source
