import UrlRouting.CommandLine.Listing
import UrlRouting.CommandLine.Pair
import UrlRouting.CommandLine.Request
import UrlRouting.CommandLine.Usage

/-! Runs of the command line: what is written, and how a run ends. -/
namespace UrlRouting.CommandLine

inductive Ending
  /-- The run came to its end with a status. -/
  | returned (status : Nat)
  /-- The run was broken off with a status. -/
  | exited (status : Nat)
  | failed (b : Breakdown)

structure Outcome where
  output : String
  errors : String
  ending : Ending

/-- How the program was started. -/
structure Launch where
  program : String
  /-- The status is that of the whole process, whatever the run comes to. -/
  standalone : Bool

namespace Outcome

def asLines (lines : List String) : String :=
  String.join (lines.map (· ++ "\n"))

def ofLines (status : Nat) (lines : List String) : Outcome :=
  ⟨asLines lines, "", .returned status⟩

def ofBreakdown (b : Breakdown) : Outcome :=
  ⟨"", "", .failed b⟩

/-- A run that lists lines, and breaks down where one cannot be written. -/
def ofListing (l : Listing) : Outcome :=
  match l.fault with
  | none => ofLines 0 l.lines
  | some err => ⟨asLines l.lines, "", .failed (.routing err)⟩

/-- A run within another program returns its status, and one on its own exits with it. -/
def within (o : Outcome) (standalone : Bool) : Outcome :=
  match standalone, o.ending with
  | true, .returned status => { o with ending := .exited status }
  | _, _ => o

end Outcome

/-- Nothing is found for a path or for values. -/
def notFound (what : Value) : Outcome :=
  match what.write with
  | .ok text => .ofLines 1 [(RoutingError.noRoute text).message]
  | .error e => .ofBreakdown (.routing e)

/-- Unsupported methods are reported, other errors break the run down. -/
def ofRoutingError : RoutingError → Outcome
  | .unsupportedMethod name => .ofLines 1 [(RoutingError.unsupportedMethod name).message]
  | .unsupportedMask mask => .ofLines 1 [(RoutingError.unsupportedMask mask).message]
  | .noMethods => .ofLines 1 [RoutingError.noMethods.message]
  | e => .ofBreakdown (.routing e)

def methodsValue (method : Option String) : Value :=
  match method with
  | some name => .str name
  | none => .none

/-- Finds the path for pairs of keys and values. -/
def reverse (t : Router) (method : Option String) (pairs : List String) : Outcome :=
  match parsePairs (pairs.map String.toList) with
  | .error b => .ofBreakdown b
  | .ok (.malformed pair) => .ofLines 1 [malformedLine pair]
  | .ok (.values values) => match t.reverseRoute values (methodsValue method) with
    | .error e => ofRoutingError e
    | .ok none => notFound (.dict values)
    | .ok (some path) => .ofLines 0 [path]

/-- Matches a path and lists what is found. -/
def matchPath (t : Router) (method : Option String) (path : String) (verbose : Bool) : Outcome :=
  let found := t.matchPath (.str path) (methodsValue method)
  let log := if verbose then Outcome.asLines (found.log.map LogLine.colored) else ""
  let o := match found.result with
    | .error e => ofRoutingError e
    | .ok none => notFound (.str path)
    | .ok (some (_, r)) => .ofListing (listing r)
  { o with errors := log }

def missingPathLine : String :=
  "Give a path to match or --reverse KEY=VALUE pairs."

/-- Does what a request asks of a table of routes. -/
def serve (t : Router) (r : Request) : Outcome :=
  if !r.reverse.isEmpty then reverse t r.method r.reverse
  else match r.path with
    | none => .ofLines 1 [missingPathLine]
    | some path =>
      if path.isEmpty then .ofLines 1 [missingPathLine]
      else matchPath t r.method path r.verbose

/-- Finds the table of routes and does what is asked of it. -/
def serveAmong (modules : List Module) (r : Request) : Outcome :=
  match Module.resolve modules r.application.toList with
  | .error b => .ofBreakdown b
  | .ok (.error fault) => .ofLines 1 [fault.message]
  | .ok (.ok t) => serve t r

/-- Runs the program with the words after its name. -/
def run (launch : Launch) (modules : List Module) (words : List String) : Outcome :=
  match Demand.ofTexts words with
  | .help => ⟨Usage.help launch.program, "", .exited 0⟩
  | .misuse m => ⟨"", Usage.complaint launch.program m, .exited 2⟩
  | .request r => (serveAmong modules r).within launch.standalone

end UrlRouting.CommandLine
