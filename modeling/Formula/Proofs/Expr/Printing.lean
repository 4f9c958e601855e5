import Formula.Expr.Basic
import Formula.Proofs.Token.Folding
import Formula.Proofs.Token.Lexeme

/-!
# Printed expressions

An expression is printed with parentheses around every operator node and a space between tokens.
The lexer finds the printed tokens again, and no sign among them folds.
-/

namespace Formula

/-! ## Printing -/

def escapeCharacter : Char → List Char
  | '\x22' => ['\\', '\x22']
  | '\\' => ['\\', '\\']
  | '\x08' => ['\\', 'b']
  | '\x0c' => ['\\', 'f']
  | '\n' => ['\\', 'n']
  | '\r' => ['\\', 'r']
  | '\t' => ['\\', 't']
  | character => [character]

namespace Token

def opening : Token := ⟨.leftParen, none, 0⟩

def closing : Token := ⟨.rightParen, none, 0⟩

def comma : Token := ⟨.comma, none, 0⟩

def written (token : Token) : List Char :=
  match token.kind with
  | .stringLiteral => '\x22' :: token.lexeme.toList.flatMap escapeCharacter ++ ['\x22']
  | .leftParen => ['(']
  | .rightParen => [')']
  | .comma => [',']
  | _ => token.lexeme.toList

end Token

namespace Expr

mutual

/-- The tokens of the print. -/
def tokens : Expr → List Token
  | .number text _ => [⟨.number, some text, 0⟩]
  | .string content _ => [⟨.stringLiteral, some content, 0⟩]
  | .identifier name _ => [⟨.identifier, some name, 0⟩]
  | .call name _ arguments =>
      ⟨.identifier, some name, 0⟩ :: .opening ::
        [Token.comma].intercalate (argumentTokens arguments) ++ [.closing]
  | .operation operator _ left right =>
      .opening :: operandTokens left ++ ⟨.operator, some operator, 0⟩ ::
        operandTokens right ++ [.closing]

def operandTokens : Option Expr → List Token
  | none => []
  | some expr => tokens expr

def argumentTokens : List (Option Expr) → List (List Token)
  | [] => []
  | argument :: arguments => operandTokens argument :: argumentTokens arguments

end

def render (expr : Expr) : String :=
  String.ofList ([' '].intercalate (expr.tokens.map Token.written))

def IsName (name : List Char) : Prop :=
  name ≠ [] ∧ (∀ character ∈ name, Grammar.standard.isIdentifierCharacter character = true) ∧
    ∀ character ∈ name.head?, character.isDigit = false

/-- The expressions that have a print.  A call with one empty argument would be printed like a call
without arguments, and a sign without left operand is no node of its own. -/
inductive Printable : Expr → Prop
  | number {text : String} {position : Nat}
      (isNumber : Lexer.tokenize .standard text = .ok [⟨.number, some text, 0⟩]) :
      Printable (.number text position)
  | string {content : String} {position : Nat} : Printable (.string content position)
  | identifier {name : String} {position : Nat} (isName : IsName name.toList) :
      Printable (.identifier name position)
  | call {name : String} {position : Nat} {arguments : List (Option Expr)}
      (isName : IsName name.toList) (notSingle : arguments ≠ [none])
      (each : ∀ argument, some argument ∈ arguments → Printable argument) :
      Printable (.call name position arguments)
  | binary {operator : String} {position : Nat} {left right : Expr}
      (isSpelling : operator ∈ Grammar.standard.spellings) (isBinary : operator ≠ "!")
      (ofLeft : Printable left) (ofRight : Printable right) :
      Printable (.operation operator position (some left) (some right))
  | negation {position : Nat} {operand : Expr} (ofOperand : Printable operand) :
      Printable (.operation "!" position none (some operand))
  | factorial {position : Nat} {operand : Expr} (ofOperand : Printable operand) :
      Printable (.operation "!" position (some operand) none)

/-! ## The lexer finds the printed tokens -/

theorem encodesAll_escape (content : List Char) :
    Lexer.EncodesAll '\x22' content (content.flatMap escapeCharacter) := by
  induction content with
  | nil => exact .nil
  | cons character content ih =>
      refine .cons ?_ ih
      unfold escapeCharacter
      split
      · exact @Lexer.Encodes.behindBackslash _ '\x22' (by decide) (by decide)
      · exact @Lexer.Encodes.behindBackslash _ '\\' (by decide) (by decide)
      · exact @Lexer.Encodes.behindBackslash _ 'b' (by decide) (by decide)
      · exact @Lexer.Encodes.behindBackslash _ 'f' (by decide) (by decide)
      · exact @Lexer.Encodes.behindBackslash _ 'n' (by decide) (by decide)
      · exact @Lexer.Encodes.behindBackslash _ 'r' (by decide) (by decide)
      · exact @Lexer.Encodes.behindBackslash _ 't' (by decide) (by decide)
      · exact .itself (by assumption) (by assumption)

theorem argumentTokens_eq_map (arguments : List (Option Expr)) :
    argumentTokens arguments = arguments.map operandTokens := by
  induction arguments with
  | nil => rfl
  | cons argument arguments ih => rw [argumentTokens, ih, List.map_cons]

structure IsWritten (token : Token) : Prop where
  isLexeme : Lexer.IsLexeme .standard token.written token
  atOrigin : token.relocate origin = token

theorem isWritten_opening : IsWritten .opening :=
  ⟨Lexer.isLexeme_punctuation rfl (Lexer.isIdentifierCharacter_standard_eq_false rfl) 0, rfl⟩

theorem isWritten_closing : IsWritten .closing :=
  ⟨Lexer.isLexeme_punctuation rfl (Lexer.isIdentifierCharacter_standard_eq_false rfl) 0, rfl⟩

theorem isWritten_comma : IsWritten .comma :=
  ⟨Lexer.isLexeme_punctuation rfl (Lexer.isIdentifierCharacter_standard_eq_false rfl) 0, rfl⟩

theorem isWritten_operator {operator : String} (member : operator ∈ Grammar.standard.spellings) :
    IsWritten ⟨.operator, some operator, 0⟩ :=
  ⟨Lexer.isLexeme_spelling member 0, rfl⟩

theorem isWritten_identifier {name : String} (isName : IsName name.toList) :
    IsWritten ⟨.identifier, some name, 0⟩ := by
  obtain ⟨present, all, notDigit⟩ := isName
  have notPoint : ∀ character ∈ name.toList.head?, character ≠ '.' := by
    rintro character first rfl
    have isIdentifier := all '.' (List.mem_of_head? first)
    rw [Lexer.isIdentifierCharacter_standard_eq_false rfl] at isIdentifier
    cases isIdentifier
  have isLexeme := Lexer.isLexeme_identifier present all
    (fun character first => ⟨notDigit character first, notPoint character first⟩)
    (fun _ => Lexer.not_isIdentifierCharacter_of_isSpace) 0
  rw [String.ofList_toList] at isLexeme
  exact ⟨isLexeme, rfl⟩

theorem isWritten_operation {operator : String} {position : Nat} {left right : Option Expr}
    (member : operator ∈ Grammar.standard.spellings)
    (ofLeft : ∀ token ∈ operandTokens left, IsWritten token)
    (ofRight : ∀ token ∈ operandTokens right, IsWritten token) :
    ∀ token ∈ tokens (.operation operator position left right), IsWritten token := by
  simp only [tokens, List.cons_append, List.append_assoc, List.forall_mem_cons,
    List.forall_mem_append]
  exact ⟨isWritten_opening, ofLeft, isWritten_operator member, ofRight, isWritten_closing, by simp⟩

theorem IsWritten.written_ne_nil {token : Token} (isWritten : IsWritten token) :
    token.written ≠ [] := by
  intro empty
  have impossible := isWritten.isLexeme 0 Lexer.startsWithSpace_nil
  rw [empty] at impossible
  cases impossible

theorem Printable.isWritten {expr : Expr} (printable : Printable expr) :
    ∀ token ∈ expr.tokens, IsWritten token := by
  induction printable with
  | @number text position isNumber =>
      have isLexeme := @Lexer.isLexeme_numeral .standard _ (Lexer.isNumeral_of_tokenize isNumber) 0
      rw [String.ofList_toList] at isLexeme
      exact List.forall_mem_singleton.mpr ⟨isLexeme, rfl⟩
  | @string content position =>
      have isLexeme := Lexer.isLexeme_string (.inl rfl)
        (Lexer.isIdentifierCharacter_standard_eq_false rfl) (encodesAll_escape content.toList) 0
      rw [String.ofList_toList] at isLexeme
      exact List.forall_mem_singleton.mpr ⟨isLexeme, rfl⟩
  | identifier isName => exact List.forall_mem_singleton.mpr (isWritten_identifier isName)
  | @call name position arguments isName _ _ ih =>
      have ofArguments : ∀ token ∈ [Token.comma].intercalate (argumentTokens arguments),
          IsWritten token := by
        rw [argumentTokens_eq_map]
        refine @of_intercalate _ _ _ (fun tokens => ∀ token ∈ tokens, IsWritten token) (by simp)
          (fun before after => List.forall_mem_append.mpr ⟨before, after⟩)
          (List.forall_mem_singleton.mpr isWritten_comma) fun part isPart => ?_
        obtain ⟨argument, isArgument, rfl⟩ := List.mem_map.mp isPart
        cases argument with
        | none => simp [operandTokens]
        | some argument => exact ih argument isArgument
      simp only [tokens, List.cons_append, List.forall_mem_cons, List.forall_mem_append]
      exact ⟨isWritten_identifier isName, isWritten_opening, ofArguments, isWritten_closing,
        by simp⟩
  | binary isSpelling _ _ _ ihLeft ihRight => exact isWritten_operation isSpelling ihLeft ihRight
  | negation _ ih => exact isWritten_operation (by decide) (by simp [operandTokens]) ih
  | factorial _ ih => exact isWritten_operation (by decide) ih (by simp [operandTokens])

/-- The lexer reads the print as the printed tokens, whatever their positions. -/
theorem Printable.tokenize {expr : Expr} (printable : Printable expr) :
    ∃ read, Lexer.tokenize .standard expr.render = .ok read ∧
      read.map (Token.relocate origin) = expr.tokens := by
  have isWritten := printable.isWritten
  have enough : expr.tokens.length < expr.render.length + 1 := by
    have nonempty : ∀ text ∈ expr.tokens.map Token.written, text ≠ [] := by
      rw [List.forall_mem_map]
      exact fun token member => (isWritten token member).written_ne_nil
    have := @length_le_intercalate _ ' ' _ nonempty
    rw [List.length_map] at this
    rw [render, String.length_ofList]
    omega
  obtain ⟨read, same, sameUpToPositions⟩ := Lexer.tokensFrom_intercalate
    (fun token member => (isWritten token member).isLexeme) enough 0
  refine ⟨read, ?_, ?_⟩
  · rw [← same, Lexer.tokenize, Lexer.Cursor.ofText]
    simp only [render, String.toList_ofList]
  · rw [sameUpToPositions]
    conv_rhs => rw [← List.map_id expr.tokens]
    exact List.map_congr_left fun token member => (isWritten token member).atOrigin

/-! ## No sign of the print folds -/

theorem tokens_eq_append (expr : Expr) :
    ∃ front last, expr.tokens = front ++ [last] ∧ last.kind ≠ .operator := by
  cases expr with
  | number => exact ⟨[], _, rfl, by simp⟩
  | string => exact ⟨[], _, rfl, by simp⟩
  | identifier => exact ⟨[], _, rfl, by simp⟩
  | call => exact ⟨_, .closing, by rw [tokens], by decide⟩
  | operation => exact ⟨_, .closing, by rw [tokens], by decide⟩

theorem Printable.keeps {expr : Expr} (printable : Printable expr) :
    Token.Keeps .standard expr.tokens := by
  have opening : Token.Keeps .standard [.opening] := .singleton rfl
  have closing : Token.Keeps .standard [.closing] := .singleton rfl
  have factorial : Token.Keeps .standard [⟨.operator, some "!", 0⟩] := .singleton rfl
  induction printable with
  | number => exact .singleton rfl
  | string => exact .singleton rfl
  | identifier => exact .singleton rfl
  | @call name position arguments _ _ _ ih =>
      have callee : Token.Keeps .standard [⟨.identifier, some name, 0⟩] := .singleton rfl
      have ofArguments :
          Token.Keeps .standard ([Token.comma].intercalate (argumentTokens arguments)) := by
        rw [argumentTokens_eq_map]
        refine .intercalate rfl fun part isPart => ?_
        obtain ⟨argument, isArgument, rfl⟩ := List.mem_map.mp isPart
        cases argument with
        | none => exact .nil
        | some argument => exact ih argument isArgument
      simpa [tokens] using ((callee.append opening).append ofArguments).append closing
  | @binary operator position left right _ _ _ _ ihLeft ihRight =>
      -- The operator may be a sign, so it goes with the operand that it stands behind.
      have behind :
          Token.Keeps .standard (left.tokens ++ [⟨.operator, some operator, 0⟩]) := by
        obtain ⟨front, last, isLeft, notOperator⟩ := left.tokens_eq_append
        rw [isLeft] at ihLeft ⊢
        exact ihLeft.operator notOperator _
      simpa [tokens, operandTokens] using ((opening.append behind).append ihRight).append closing
  | negation _ ih =>
      simpa [tokens, operandTokens] using ((opening.append factorial).append ih).append closing
  | factorial _ ih =>
      simpa [tokens, operandTokens] using ((opening.append ih).append factorial).append closing

end Expr

end Formula
