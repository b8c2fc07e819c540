import Graft.Failure

/-!
Errors as an operator sees them: a message, and behind it what led to it, the immediate cause first.
-/

namespace Graft

/-- The messages of an error and of the errors behind it, outermost first. -/
structure ErrorTrail where
  message : String
  causes : List String
  deriving Repr, DecidableEq, Inhabited

namespace ErrorTrail

def ofMessage (message : String) : ErrorTrail := ⟨message, []⟩

/-- The error that stopped something larger. -/
def stopping (trail : ErrorTrail) (message : String) : ErrorTrail :=
  ⟨message, trail.message :: trail.causes⟩

def oneLine (trail : ErrorTrail) : String := ": ".intercalate (trail.message :: trail.causes)

/-- A cause with its lines set in: its number, if it has one, stands before the first of them. -/
def indented (number : Option Nat) (cause : String) : String :=
  let (first, rest) := match number with
    | some n => (String.ofList (List.replicate (5 - (toString n).length) ' ') ++ s!"{n}: ", "       ")
    | none => ("    ", "    ")
  let lines := (Text.splitAtChar '\n' cause.toList).map String.ofList
  first ++ ("\n" ++ rest).intercalate lines

/-- The causes one below the other; numbered when there are several. -/
def listed (causes : List String) : String :=
  match causes with
  | [] => ""
  | [cause] => "\n\nCaused by:\n" ++ indented none cause
  | _ =>
      "\n\nCaused by:\n" ++
        "\n".intercalate (causes.zipIdx.map fun (cause, n) => indented (some n) cause)

def report (trail : ErrorTrail) : String := s!"Error: {trail.message}{listed trail.causes}\n"

end ErrorTrail

def StoreError.causes : StoreError → List String
  | .files reason => [reason]
  | _ => []

def MergeError.causes : MergeError → List String
  | .store error => error.message :: error.causes
  | _ => []

def Failure.causes : Failure → List String
  | .location error => [error.message]
  | .store error => error.message :: error.causes
  | .merge error => error.message :: error.causes
  | .malformedData => ["unexpected form"]
  | .malformedConfiguration => ["unexpected form"]
  | .files reason => [reason]
  | .configuration _ | .digestMismatch .. => []

namespace ErrorTrail

def ofFailure (failure : Failure) : ErrorTrail := ⟨failure.message, failure.causes⟩

def ofLocateError (error : Code.LocateError) : ErrorTrail := .ofMessage error.message

def ofStoreError (error : StoreError) : ErrorTrail := ⟨error.message, error.causes⟩

def ofMergeError (error : MergeError) : ErrorTrail := ⟨error.message, error.causes⟩

def ofFileError (error : FileError) : ErrorTrail := .ofMessage error.message

end ErrorTrail

end Graft
