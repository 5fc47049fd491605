import UrlRouting.CommandLine.Run

/-! The program: it matches paths against a table of routes, or finds paths for values. -/
namespace UrlRouting

/-- The table of a small web log. -/
def sampleSteps : List Step :=
  let posts (action : String) : Value :=
    .dict [(.str "controller", .str "posts"), (.str "action", .str action)]
  [.add (.str "/posts") (posts "list") .none (.str "GET"),
    .add (.str "/posts") (posts "create") .none (.str "POST"),
    .add (.str "/posts/<\\d+>:id/*") (posts "view") .none .none]

/-- The module `app`, which holds the table. -/
def sampleModules : List CommandLine.Module :=
  match Router.create .usual .none with
  | .ok t => [⟨"app".toList, false, [("router".toList, .router (t.run sampleSteps).1)]⟩]
  | .error _ => []

end UrlRouting

open UrlRouting.CommandLine in
def main (args : List String) : IO UInt32 := do
  let launch : Launch := ⟨Usage.programName "signpost", true⟩
  let outcome := run launch UrlRouting.sampleModules args
  IO.print outcome.output
  IO.eprint outcome.errors
  match outcome.ending with
  | .returned status | .exited status => return status.toUInt32
  | .failed b => do
    IO.eprintln b.message
    return 1
