import RecordSearch.Query.Token
import RecordSearch.Decimal.Reader

/-! A query is cut into lexemes from left to right: white space, punctuation, quoted segments and
    bare words. The lexemes put together are the query again. Each stands for one token, except
    white space and quoted segments with blank content, which stand for none. A word or quoted
    content right after a comparison is a number when it spells a finite one. -/

namespace RecordSearch.Query

/-- A stretch of the query and the token it stands for. -/
structure Lexeme where
  source : List Char
  token : Option Token

namespace Lexeme

/-- A search term, or after a comparison a number. -/
def operand (previous : Option Kind) (position : Nat) (content : List Char) : Token :=
  let amount := if previous.any Kind.isComparison then Decimal.readFinite content else none
  match amount with
  | some x => ⟨.number, .number x, position⟩
  | none => ⟨.searchTerm, .text (String.ofList content), position⟩

/-- A punctuation mark, whose source is its spelling. -/
def punctuation (kind : Kind) (position : Nat) : Lexeme :=
  ⟨(kind.literal.getD "").toList, some (.ofKind kind position)⟩

/-- A quoted segment, from the quote to the next one or else to the end. -/
def quoted (previous : Option Kind) (position : Nat) (cs : List Char) : Lexeme :=
  let content := cs.takeWhile (· != '"')
  let closing := (cs.dropWhile (· != '"')).take 1
  ⟨'"' :: content ++ closing,
    if Text.isBlankText content then none else some (operand previous position content)⟩

/-- A bare word: a keyword, or else an operand. -/
def word (previous : Option Kind) (position : Nat) (c : Char) (cs : List Char) : Lexeme :=
  let content := c :: cs.takeWhile (fun d => !endsWord d)
  ⟨content, some <|
    if content = ['A', 'N', 'D'] then .ofKind .and position
    else if content = ['O', 'R'] then .ofKind .or position
    else operand previous position content⟩

/-- The first lexeme of the text `c :: cs`. -/
def first (previous : Option Kind) (position : Nat) (c : Char) (cs : List Char) : Lexeme :=
  if Text.isBlank c then ⟨c :: cs.takeWhile Text.isBlank, none⟩
  else match c with
    | ':' => punctuation .groupTerminator position
    | '(' => punctuation .lparen position
    | ')' => punctuation .rparen position
    | '!' => punctuation .exclude position
    | '<' => punctuation (if cs.head? = some '=' then .lte else .lt) position
    | '>' => punctuation (if cs.head? = some '=' then .gte else .gt) position
    | '"' => quoted previous position cs
    | _ => word previous position c cs

end Lexeme

/-- The lexemes of the text after its first `skip` characters. `previous` is the kind of the token
    before, and `position` the offset of the next lexeme. -/
def lexemes (previous : Option Kind) (position : Nat) : (skip : Nat) → List Char → List Lexeme
  | _, [] => []
  | skip + 1, _ :: cs => lexemes previous position skip cs
  | 0, c :: cs =>
    let l := Lexeme.first previous position c cs
    l :: lexemes ((l.token.map Token.kind).or previous) (position + Text.byteLength l.source)
      (l.source.length - 1) cs

/-- The tokens of a query. -/
def tokenize (query : String) : List Token :=
  (lexemes none 0 0 query.toList).filterMap Lexeme.token

end RecordSearch.Query
