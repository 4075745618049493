import RecordSearch.Query.Token
import RecordSearch.Query.Grammar
import RecordSearch.Text.Escaped

/-! Parse trees: a leaf is a token, and an inner node a nonterminal with the nodes it was reduced
    from. A tree can be written back as a query, and shown with one line per node. -/

namespace RecordSearch.Query

/-- A parse tree. -/
inductive Tree where
  | leaf (token : Token)
  | node (label : Nonterminal) (children : List Tree)

namespace Tree

instance : Inhabited Tree := ⟨.node .list []⟩

/-- The label of an inner node. -/
def label? : Tree → Option Nonterminal
  | leaf _ => none
  | node label _ => some label

/-- The nodes below a node. -/
def children : Tree → List Tree
  | leaf _ => []
  | node _ children => children

/-- The token of a leaf. -/
def token? : Tree → Option Token
  | leaf token => some token
  | node _ _ => none

/-- Whether a tree is a leaf of the given kind. -/
def isToken (kind : Kind) (t : Tree) : Bool := t.token?.any fun token => token.kind = kind

/-- Whether a tree is an inner node with nothing below it. -/
def isEmpty : Tree → Bool
  | leaf _ => false
  | node _ children => children.isEmpty

/-- The symbol at the root. -/
def symbol : Tree → Symbol
  | leaf token => .terminal token.kind
  | node label _ => .nonterminal label

mutual

/-- The tokens of a tree from left to right. -/
def leaves : Tree → List Token
  | leaf token => [token]
  | node _ children => leavesOf children

/-- The tokens of several trees from left to right. -/
def leavesOf : List Tree → List Token
  | [] => []
  | t :: ts => t.leaves ++ leavesOf ts

end

/-- The tree written as a query. -/
def canonical (t : Tree) : String := writeTokens t.leaves

mutual

/-- The lines that show a tree, indented by two blanks per level. -/
def lines (depth : Nat) : Tree → List String
  | leaf token =>
    [String.ofList (List.replicate (2 * depth) ' ') ++ token.kind.name ++ " "
      ++ Text.escape token.lexeme]
  | node label [] => [String.ofList (List.replicate (2 * depth) ' ') ++ label.name ++ " ε"]
  | node label (child :: rest) =>
    (String.ofList (List.replicate (2 * depth) ' ') ++ label.name)
      :: linesOf (depth + 1) (child :: rest)

/-- The lines that show several trees. -/
def linesOf (depth : Nat) : List Tree → List String
  | [] => []
  | t :: ts => t.lines depth ++ linesOf depth ts

end

/-- The tree shown with one line per node. -/
def display (t : Tree) : String := String.join ((t.lines 0).map (· ++ "\n"))

end Tree

end RecordSearch.Query
