import RecordSearch.Query.Table
import RecordSearch.Query.Tree
import RecordSearch.Query.Error

/-! The shift-reduce parser that a table drives. A configuration holds the stack of trees with the
    states entered over them and the tokens still to come; one step shifts, reduces, accepts or, if
    the table has no action, asks the recovery policy what to do. A policy may remember what it was
    asked; without one the first token that has no action ends the parse. -/

namespace RecordSearch.Query

/-- What a policy is asked about. -/
structure Stalled where
  /-- The trees on the stack, the bottom first. -/
  stack : List Tree
  /-- The token that has no action; none at the end of the input. -/
  found : Option Token
  /-- The lookaheads that have one. -/
  acceptable : List Lookahead

/-- Whether a token of the given kind would be taken. -/
def Stalled.accepts (s : Stalled) (kind : Kind) : Bool := s.acceptable.contains (.token kind)

/-- What a policy decides. -/
inductive Decision where
  /-- Go on with this token in place of the one found, or before the end of the input. -/
  | replace (token : Token)
  /-- Take the input to end here. -/
  | stop
  /-- Give up. -/
  | fail

/-- A recovery policy with a memory. -/
abbrev Policy (σ : Type) := σ → Stalled → Decision × σ

/-- A parser at work. -/
structure Configuration (σ : Type) where
  /-- The states entered and the trees they were entered over, the top first. -/
  stack : List (Nat × Tree)
  /-- The tokens still to come; the first is the lookahead. -/
  input : List Token
  /-- How often the policy was asked since the last shift. -/
  recoveries : Nat
  /-- What the policy remembers. -/
  memory : σ

/-- What a step leads to. -/
inductive Step (σ : Type) where
  | next (c : Configuration σ)
  | done (result : Except ParseError Tree) (memory : σ)

/-- How often a policy may be asked without a shift in between. -/
def maxRecoveries : Nat := Kind.all.length + 1

/-- The state on top of a stack. -/
def topState : List (Nat × Tree) → Nat
  | [] => 0
  | (state, _) :: _ => state

/-- The error of a state at a token. -/
def Table.errorAt (t : Table) (cause : Cause) (state : Nat) (found : Option Token) : ParseError :=
  ⟨cause, found.map Token.position, found.map Token.kind, t.expected state⟩

/-- Replaces the children of a production on top of the stack by their node. -/
def Table.reduce (t : Table) (number : Nat) (stack : List (Nat × Tree)) (found : Option Token) :
    Except ParseError (List (Nat × Tree)) :=
  match t.productions[number]? with
  | none => .error (t.errorAt .invalidTable (topState stack) found)
  | some p =>
    if stack.length < p.rhs.length then
      .error (t.errorAt .invalidTable (topState stack) found)
    else
      let rest := stack.drop p.rhs.length
      let children := ((stack.take p.rhs.length).map Prod.snd).reverse
      match t.goto (topState rest) p.lhs with
      | none => .error (t.errorAt .invalidTable (topState rest) found)
      | some state => .ok ((state, .node p.lhs children) :: rest)

namespace Configuration

variable {σ : Type}

/-- Applies what the policy says where the table has no action. -/
def recover (t : Table) (policy : Policy σ) (c : Configuration σ) : Step σ :=
  let state := topState c.stack
  let found := c.input.head?
  if c.recoveries = maxRecoveries then
    .done (.error (t.errorAt .recoveryStalled state found)) c.memory
  else
    let stalled := ⟨(c.stack.map Prod.snd).reverse, found, t.expected state⟩
    match policy c.memory stalled with
    | (.replace token, memory) =>
      .next ⟨c.stack, token :: c.input.tail, c.recoveries + 1, memory⟩
    | (.stop, memory) => .next ⟨c.stack, [], c.recoveries + 1, memory⟩
    | (.fail, memory) => .done (.error (t.errorAt .recoveryFailed state found)) memory

/-- One step of the parser. -/
def step (t : Table) (policy : Option (Policy σ)) (c : Configuration σ) : Step σ :=
  let state := topState c.stack
  let found := c.input.head?
  match t.action state (.of found) with
  | some (.shift target) =>
    match c.input with
    | token :: rest => .next ⟨(target, .leaf token) :: c.stack, rest, 0, c.memory⟩
    | [] => .done (.error (t.errorAt .unexpected state none)) c.memory
  | some (.reduce number) =>
    match t.reduce number c.stack found with
    | .ok stack => .next ⟨stack, c.input, c.recoveries, c.memory⟩
    | .error e => .done (.error e) c.memory
  | some .accept =>
    match c.stack with
    | [(_, tree)] => .done (.ok tree) c.memory
    | _ => .done (.error (t.errorAt .invalidTable state none)) c.memory
  | none =>
    match policy with
    | some policy => c.recover t policy
    | none => .done (.error (t.errorAt .unexpected state found)) c.memory

/-- Steps until the parse is done; none if it takes more than `fuel` steps. -/
def run (t : Table) (policy : Option (Policy σ)) :
    Nat → Configuration σ → Option (Except ParseError Tree × σ)
  | 0, _ => none
  | fuel + 1, c =>
    match c.step t policy with
    | .done result memory => some (result, memory)
    | .next c => c.run t policy fuel

/-- The configuration before the first token. -/
def start (tokens : List Token) (memory : σ) : Configuration σ := ⟨[], tokens, 0, memory⟩

end Configuration

/-- Parses tokens under a policy that begins with the given memory. -/
def Table.parse {σ : Type} (t : Table) (policy : Option (Policy σ)) (fuel : Nat)
    (tokens : List Token) (memory : σ) : Option (Except ParseError Tree × σ) :=
  (Configuration.start tokens memory).run t policy fuel

end RecordSearch.Query
