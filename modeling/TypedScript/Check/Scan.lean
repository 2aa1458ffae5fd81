import TypedScript.Check.Mismatch
import TypedScript.Journal.Event
import TypedScript.Line.Classify
import TypedScript.Text.Lines

set_option autoImplicit false

/-!
The check of a source, line by line. One function is active at a time: a header
replaces it, and a line that is just a closing brace ends it, whatever that
brace may close.
-/

namespace TypedScript

namespace Check

structure State where
  active : Option Header
  mismatches : List Mismatch
  deriving DecidableEq, Repr

def State.start : State := ⟨none, []⟩

def State.failed (s : State) : Bool := !s.mismatches.isEmpty

/-- The fault of a line while the given function is active. -/
def mismatch? (active : Option Header) : LineRecord → Option Mismatch
  | .declaration d => d.mismatch?
  | .returns value line => active.bind fun h => h.mismatch? value line
  | .header _ | .close _ => none

/-- The function that is active behind a line. -/
def follow (active : Option Header) : LineRecord → Option Header
  | .header h => some h
  | .close _ => none
  | .declaration _ | .returns .. => active

/-- Opening a function while another one is active is worth a note. -/
def opening (active : Option Header) (h : Header) : List Event :=
  match active with
  | none => []
  | some outgoing => [.replaced outgoing h]

def notes (active : Option Header) : LineRecord → List Event
  | .header h => opening active h
  | .declaration _ | .returns .. | .close _ => []

inductive Step where
  | enter (h : Header)
  | leave
  | visit (record : Option LineRecord)
  deriving DecidableEq, Repr

namespace State

def found? (s : State) : Step → Option Mismatch
  | .visit (some record) => mismatch? s.active record
  | .visit none | .enter _ | .leave => none

def step (s : State) : Step → State
  | .enter h => { s with active := some h }
  | .leave => { s with active := none }
  | .visit none => s
  | .visit (some record) =>
    ⟨follow s.active record, s.mismatches ++ (mismatch? s.active record).toList⟩

def events (s : State) : Step → List Event
  | .enter h => opening s.active h
  | .visit (some record) => notes s.active record
  | .visit none | .leave => []

end State

/-- The state behind a sequence of steps, and what they note. -/
def run (s : State) : List Step → State × List Event
  | [] => (s, [])
  | first :: rest =>
    let (last, more) := run (s.step first) rest
    (last, s.events first ++ more)

/-- What a listener is told along a sequence of steps: each mismatch when it is found. -/
def told (s : State) : List Step → List Mismatch
  | [] => []
  | first :: rest => (s.found? first).toList ++ told (s.step first) rest

/-- The lines of a source, numbered and classified. -/
def visits (source : Text) : List Step :=
  (Text.lines source).zipIdx.map fun (t, index) => .visit (Line.classify (index + 1) t)

end Check

/-- What a check found, and what it noted. -/
structure Report where
  mismatches : List Mismatch
  events : List Event
  deriving DecidableEq, Repr

def Report.ok (r : Report) : Bool := r.mismatches.isEmpty

def check (source : Text) : Report :=
  let steps := Check.visits source
  let (last, events) := Check.run .start steps
  ⟨last.mismatches, events ++ [.scanned steps.length last.mismatches.length]⟩

/-- What a listener is told while a source is checked. -/
def announced (source : Text) : List Mismatch := Check.told .start (Check.visits source)

end TypedScript
