import StreamMatch.Fault
import StreamMatch.Match.Printer
import StreamMatch.Primitive

/-!
Reports of what matchers try and what comes of it. They are for following a run and have no
influence on it.
-/

namespace StreamMatch

/-- The point of an attempt that a report is made at. -/
inductive Stage where
  /-- The matcher is about to read. -/
  | tried
  /-- It has produced a match. -/
  | matched
  /-- It has met a fault. -/
  | failed
deriving DecidableEq, Repr

namespace Stage

/-- The word that a report begins with. -/
def word : Stage → String
  | .tried => "TRY"
  | .matched => "GOT"
  | .failed => "ERR"

def debug : Stage → String
  | .tried => "Try"
  | .matched => "Got"
  | .failed => "Fail"

end Stage

/-- What came of an attempt. -/
inductive Outcome where
  | matched (m : Match)
  | failed (fault : Fault)
deriving DecidableEq, Repr

/-- The matcher that a report is about. -/
inductive Subject where
  | primitive (primitive : Primitive)
  /-- A matcher of another kind, by its name, the text that configures it, and its tag. -/
  | other (name : String) (config : Option String) (tag : Tag)

namespace Subject

def name : Subject → String
  | .primitive p => p.name
  | .other name _ _ => name

/-- The configuration in a debug view. -/
def config : Subject → String
  | .primitive p => p.debug
  | .other _ (some text) _ => quoted text.toList
  | .other _ none _ => "()"

def tag : Subject → Tag
  | .primitive p => p.tag
  | .other _ _ tag => tag

end Subject

/-- One report. -/
structure Report where
  stage : Stage
  subject : Subject
  /-- Where in the stream the attempt began. -/
  offset : Nat
  outcome : Option Outcome

namespace Report

/-- A report on one line. -/
def render (registry : TagRegistry) (report : Report) : String :=
  report.stage.word ++ " " ++ report.subject.name ++ "(" ++ report.subject.config ++ ") @" ++
    toString report.offset ++
    match report.outcome with
    | none => ""
    | some (.matched m) => " = " ++ m.render registry
    | some (.failed fault) => ": " ++ fault.message

/-- An outcome in a debug view. There is none for a match, nor for a failure of the source. -/
def debugOutcome? : Option Outcome → Option String
  | none => some "None"
  | some (.matched _) => none
  | some (.failed (.io _ _)) => none
  | some (.failed (.invalidUtf8 offset)) =>
    some ("Some(Failed(InvalidUtf8 \x7b offset: " ++ toString offset ++ " \x7d))")
  | some (.failed (.reclaimed offset windowStart)) =>
    some ("Some(Failed(Reclaimed \x7b offset: " ++ toString offset ++ ", window_start: " ++
      toString windowStart ++ " \x7d))")

/-- A report in a debug view, if its outcome has one. -/
def debug? (report : Report) : Option String := do
  let outcome ← debugOutcome? report.outcome
  return "Trace \x7b stage: " ++ report.stage.debug ++ ", matcher: " ++
    quoted report.subject.name.toList ++ ", tag: " ++ report.subject.tag.debug ++ ", offset: " ++
    toString report.offset ++ ", outcome: " ++ outcome ++ " \x7d"

end Report

end StreamMatch
