import StreamMatch.Regex.Expr

/-!
Regular expressions in normal form. Sequences and choices lean to the right, neighbouring literals
are one literal, a set of one character is a literal, single characters and sets to choose from are
one set, and what all branches of a choice begin with stands before it. The functions here build
such expressions from parts that are in normal form already.
-/

namespace StreamMatch.Regex.Expr

/-- The expression for a character of a set. -/
def ofSet (set : CharSet) : Expr :=
  match set.single? with
  | some c => .literal [c]
  | none => .chars set

/-- An expression and then another one. -/
def append : Expr → Expr → Expr
  | .empty, second => second
  | .concat first middle, second => append first (append middle second)
  | first, .empty => first
  | .literal text, .literal more => .literal (text ++ more)
  | .literal text, .concat (.literal more) rest => .concat (.literal (text ++ more)) rest
  | first, second => .concat first second

/-- Expressions one after the other. -/
def appendAll (parts : List Expr) : Expr :=
  parts.foldr append .empty

/-- The parts of a sequence. An expression of another kind is not split. -/
def parts : Expr → List Expr
  | .concat first second => first :: parts second
  | expr => [expr]

/-- The branches of a choice. An expression of another kind is its only branch. -/
def branches : Expr → List Expr
  | .alt first second => first :: branches second
  | expr => [expr]

/-- The only character of an expression that is just that. -/
def single? : Expr → Option Char
  | .literal [c] => some c
  | _ => none

/-- The set of an expression that is just that. -/
def set? : Expr → Option CharSet
  | .chars set => some set
  | _ => none

/-- A choice of these branches, of which the first ones are preferred. -/
def unite (branches : List Expr) : Expr :=
  match branches.mapM single?, branches.mapM set? with
  | some letters, _ => ofSet (.ofIntervals (letters.map fun c => (c.toNat, c.toNat)))
  | _, some sets => ofSet (sets.foldl .union .empty)
  | none, none =>
    match branches.reverse with
    | [] => .chars .empty
    | last :: before => before.foldl (fun rest branch => .alt branch rest) last

/-- The longest list that both lists begin with. -/
def common : List Expr → List Expr → List Expr
  | first :: rest, second :: more => if first = second then first :: common rest more else []
  | _, _ => []

/-- The parts that all branches begin with. Only sequences have parts to share. -/
def shared (branches : List Expr) : List Expr :=
  let sequences := branches.map fun
    | .concat first second => first :: second.parts
    | _ => []
  match sequences with
  | [] => []
  | first :: more => more.foldl common first

/-- A choice of expressions, of which the first ones are preferred. -/
def choice (options : List Expr) : Expr :=
  match options.flatMap branches with
  | [] => .chars .empty
  | [branch] => branch
  | all =>
    let leading := shared all
    if leading.isEmpty then unite all
    else
      let remaining := all.map fun branch => appendAll (branch.parts.drop leading.length)
      appendAll (leading ++ [unite (remaining.flatMap branches)])

/-- A repeated expression. One that never takes a character need not be repeated. -/
def times (body : Expr) (least : Nat) (most : Option Nat) (greedy : Bool) : Expr :=
  let (least, most) :=
    if body.maxLength? = some 0 then (min least 1, some (min (most.getD 1) 1)) else (least, most)
  match least, most with
  | 0, some 0 => .empty
  | 1, some 1 => body
  | least, most => .repeat body least most greedy

end StreamMatch.Regex.Expr
