import RecordSearch.Query.Grammar

/-! Which nonterminals of a grammar derive nothing at all, which tokens may begin what they derive,
    and which lookaheads may follow it. Each of the three is the least selection from a finite
    domain that is closed under a rule, reached by adding what the rule gives until nothing is
    new. -/

namespace RecordSearch.Query

/-- Adds to a selection of `domain` what the rule gives, until it gives nothing new. -/
def saturate {α : Type} [DecidableEq α] (domain : List α) (rule : List α → α → Bool) :
    Nat → List α → List α
  | 0, s => s
  | fuel + 1, s =>
    let t := domain.filter fun a => s.contains a || rule s a
    if t = s then s else saturate domain rule fuel t

/-- The least selection of `domain` that holds the seeds and is closed under the rule. One round
    puts the seeds in order and every further one adds something. -/
def closureOf {α : Type} [DecidableEq α] (domain : List α) (rule : List α → α → Bool)
    (seeds : List α) : List α :=
  saturate domain rule (domain.length + 1) seeds

namespace Grammar

/-- Whether every symbol of a sequence is a nonterminal of the given ones. -/
def allAmong (ns : List Nonterminal) (symbols : List Symbol) : Bool :=
  symbols.all fun
    | .terminal _ => false
    | .nonterminal n => ns.contains n

/-- The nonterminals that derive the empty sequence. -/
def nullable (g : Grammar) : List Nonterminal :=
  closureOf Nonterminal.all (fun ns n => g.productions.any fun p => p.lhs = n && allAmong ns p.rhs)
    []

/-- Every pair of a nonterminal and a kind. -/
def firstDomain : List (Nonterminal × Kind) :=
  Nonterminal.all.flatMap fun n => Kind.all.map fun k => (n, k)

/-- Whether a token of kind `k` may begin what a sequence derives, going by what may begin its
    nonterminals. -/
def begins (nullable : List Nonterminal) (first : List (Nonterminal × Kind)) (k : Kind) :
    List Symbol → Bool
  | [] => false
  | .terminal j :: _ => j = k
  | .nonterminal n :: rest =>
    first.contains (n, k) || nullable.contains n && begins nullable first k rest

/-- The kinds of token that may begin what a nonterminal derives. -/
def first (g : Grammar) : List (Nonterminal × Kind) :=
  let nullable := g.nullable
  closureOf firstDomain
    (fun s (n, k) => g.productions.any fun p => p.lhs = n && begins nullable s k p.rhs) []

/-- Every pair of a nonterminal and a lookahead. -/
def followDomain : List (Nonterminal × Lookahead) :=
  Nonterminal.all.flatMap fun n => Lookahead.all.map fun l => (n, l)

/-- Whether lookahead `l` may come right after nonterminal `n` within what a sequence derives, where
    `after` tells whether it may come after the whole sequence. -/
def followsIn (nullable : List Nonterminal) (first : List (Nonterminal × Kind)) (after : Bool)
    (n : Nonterminal) (l : Lookahead) : List Symbol → Bool
  | [] => false
  | symbol :: rest =>
    followsIn nullable first after n l rest ||
      symbol = .nonterminal n &&
        (after && allAmong nullable rest ||
          match l with
          | .token k => begins nullable first k rest
          | .endOfInput => false)

/-- The lookaheads that may come right after what a nonterminal derives. -/
def follow (g : Grammar) : List (Nonterminal × Lookahead) :=
  let nullable := g.nullable
  let first := g.first
  closureOf followDomain
    (fun s (n, l) => g.productions.any fun p =>
      followsIn nullable first (s.contains (p.lhs, l)) n l p.rhs)
    [(g.start, .endOfInput)]

/-- The lookaheads that may follow one nonterminal, in column order. -/
def followOf (follow : List (Nonterminal × Lookahead)) (n : Nonterminal) : List Lookahead :=
  Lookahead.all.filter fun l => follow.contains (n, l)

end Grammar

end RecordSearch.Query
