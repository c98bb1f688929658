import TypedExpr.Registry.Lineage
/-!
# Overloads

Several candidates may be meant by one call. A candidate is viable if it takes that many type
arguments and arguments, and every argument converts to its parameter by itself. The one that is
meant is at most as far away as every other viable one on every argument, and nearer on at least
one.

* `Registry.select`: the candidate that is meant, or why there is none.
* `Registry.mentionedBySelect`: the types that come up on the way, in order.
-/

namespace TypedExpr

/-- Why a type or a member is not found. -/
inductive ResolveError where
  | unknownType
  | wrongTypeArity (expected found : Nat)
  | notFound
  | noMatch (candidates : List String)
  | ambiguous (candidates : List String)
  deriving DecidableEq, Repr, Inhabited

/-- The overload that is meant, with the types it has at this call. -/
structure ResolvedCall where
  callable : CallableId
  params : List Ty
  ret : Ty
  deriving DecidableEq, Repr, Inhabited

/-- An overload together with the type arguments of its definition. -/
structure Candidate where
  overload : Overload
  typeArgs : List Ty
  deriving DecidableEq, Repr, Inhabited

/-- The call a candidate stands for, given further type arguments. -/
def Candidate.call (c : Candidate) (typeArgs : List Ty) : ResolvedCall :=
  let args := c.typeArgs ++ typeArgs
  ⟨c.overload.callable, c.overload.params.map (·.instantiate args), c.overload.ret.instantiate args⟩

namespace Registry

/-- How far the arguments are from the parameters. -/
def costs? (reg : Registry) : List Ty → List Ty → Option (List Nat)
  | [], [] => some []
  | arg :: args, param :: params => do
    let cost ← reg.implicitCost? arg param
    return cost :: (← reg.costs? args params)
  | _, _ => none

/-- The call of a viable candidate, with its costs. -/
def viable? (reg : Registry) (typeArgs args : List Ty) (c : Candidate) :
    Option (ResolvedCall × List Nat) :=
  if c.overload.typeParams = typeArgs.length then
    (reg.costs? args (c.call typeArgs).params).map fun costs => (c.call typeArgs, costs)
  else none

/-- No cost is greater, and they are not the same. -/
def dominates (a b : List Nat) : Bool := (a.zip b).all (fun (x, y) => x ≤ y) && a ≠ b

/-- The viable candidate at a place dominates all others. -/
def isWinner (viable : List (ResolvedCall × List Nat)) (i : Nat) (costs : List Nat) : Bool :=
  viable.zipIdx.all fun (other, j) => i == j || dominates costs other.2

/-- The viable candidates that dominate all others. There is at most one. -/
def winners (viable : List (ResolvedCall × List Nat)) : List ResolvedCall :=
  viable.zipIdx.filterMap fun (c, i) => if isWinner viable i c.2 then some c.1 else none

/-- The candidate that is meant. -/
def select (reg : Registry) (candidates : List Candidate) (typeArgs args : List Ty) :
    Except ResolveError ResolvedCall :=
  let written (c : ResolvedCall) := reg.signatureText c.callable c.params
  let viable := candidates.filterMap (reg.viable? typeArgs args)
  if viable.isEmpty then .error (.noMatch (candidates.map fun c => written (c.call typeArgs)))
  else
    match winners viable with
    | [call] => .ok call
    | _ => .error (.ambiguous (viable.map fun c => written c.1))

/-- The types that come up when a candidate is selected: the parameters of every candidate, and the
result of a viable one. -/
def mentionedBySelect (reg : Registry) (candidates : List Candidate) (typeArgs args : List Ty) :
    List Ty :=
  candidates.flatMap fun c =>
    let call := c.call typeArgs
    call.params ++ if (reg.viable? typeArgs args c).isSome then [call.ret] else []

end Registry

end TypedExpr
