import Rendezvous.Architecture.Factor
import Rendezvous.Bundle
import Rendezvous.Check.Behavior
import Rendezvous.Glue.Markup
import Rendezvous.Harness
import Rendezvous.Staging.Disk
import Rendezvous.Trace

/-!
# From a model to its files

A run takes a store of nodes through the gates — the configuration, the parameters, the consistency
of the architecture, the behaviour of its component types and the name of the architecture — and
then generates a bundle of files.  The first gate with a violation ends the run.

With a toolchain, the files are staged in a workspace, compiled and simulated, and the trace is cut to
the configured number of transitions, joins the bundle and becomes an attribute of the architecture
node.  The workspace is removed again, unless it is to be kept, whether the simulation succeeds or
not; the store changes only when everything has succeeded.
-/

namespace Rendezvous

/-! ## Gates -/

/-- The gates that report violations. -/
inductive Stage where
  | parameters
  | consistency
  | behavior
  deriving DecidableEq, Repr, Inhabited

/-- How a stage is called. -/
def Stage.name : Stage → String
  | parameters => "parameter"
  | consistency => "consistency"
  | behavior => "behavior"

/-- Why a run gives no bundle. -/
inductive PipelineError where
  /-- A gate reported violations. -/
  | rejected (stage : Stage) (violations : List Violation)
  /-- The architecture node is not loaded. -/
  | unknownArchitecture (path : Path)
  | config (error : ConfigError)
  /-- A staged file, or the workspace, has a name that no file can have. -/
  | unwritable
  /-- A script of the toolchain failed. -/
  | toolchain (script status stderr : String)
  /-- The simulation left no trace. -/
  | missingOutput (path : String)
  /-- The trace is no JSON document of the right shape. -/
  | trace
  | store (error : StoreError)
  deriving DecidableEq, Repr, Inhabited

/-- The message of an error.  The wording of reading and writing errors is not ours. -/
def PipelineError.message? : PipelineError → Option String
  | rejected stage violations =>
    some ("Model has " ++ toString violations.length ++ " " ++ stage.name
      ++ " violation(s), see messages for details.")
  | unknownArchitecture path => some ("Unknown architecture node: " ++ path)
  | config error => error.message?
  | unwritable => none
  | toolchain script status stderr => some (script ++ " failed (" ++ status ++ "): " ++ stderr)
  | missingOutput path => some ("Expected output not found: " ++ path)
  | trace => none
  | store error => some error.message

/-- The violations of an error. -/
def PipelineError.violations : PipelineError → List Violation
  | rejected _ violations => violations
  | _ => []

/-- Passes a report without violations. -/
def gate (stage : Stage) (report : Report) : Except PipelineError Unit :=
  if report.isEmpty then .ok () else .error (.rejected stage report.violations)

/-- A model that has passed every gate. -/
structure CheckedModel where
  architecture : Architecture
  componentTypes : List Path
  deriving DecidableEq

/-- Takes a model through the gates that do not depend on the architecture node. -/
def Config.check (config : Config) (s : Store) : Except PipelineError CheckedModel := do
  config.validate.mapError .config
  gate .parameters (checkParameters s config)
  let r := (Architecture.build s config).checkConsistency s config
  gate .consistency r.2
  gate .behavior (checkBehavior s s.componentTypes)
  return ⟨r.1, s.componentTypes⟩

/-! ## Generated files -/

/-- The files generated for a model. -/
structure Generated where
  harness : Harness
  components : Table String String
  glue : String

namespace Generated

/-- Generates the files of a checked model for a workspace. -/
def ofModel (s : Store) (config : Config) (architecture : Path) (m : CheckedModel)
    (w : Workspace) : Generated where
  harness := .ofArchitecture s architecture m.architecture config w.root
  components := s.componentSources m.componentTypes
  glue := (Glue.ofArchitecture s m.architecture).markup

/-- The component sources, the glue and the harness, in this order. -/
def files (g : Generated) : List (String × String) :=
  g.components.entries ++ [(Harness.glueFile, g.glue), (g.harness.file, g.harness.source)]

/-- The files as a bundle named after the harness. -/
def bundle (g : Generated) : Bundle :=
  (Bundle.empty g.harness.className).addMany g.files

end Generated

/-! ## Toolchains -/

/-- How an external toolchain behaves in a run. -/
structure Toolchain where
  /-- What compiling says when it fails. -/
  compileFailure : Option String
  /-- What simulating says when it fails. -/
  simulateFailure : Option String
  /-- The trace that a simulation leaves, if any. -/
  trace : Option Text.Decoded
  deriving Inhabited

/-- A call of the toolchain. -/
inductive Call where
  /-- With the component sources, the harness source and the names of the staged files. -/
  | compile (components : List String) (harness : String) (staged : List String)
  | simulate (className : String)
  deriving DecidableEq, Repr, Inhabited

/-- What a simulation did: its calls, the disk that it left, and the trace. -/
structure Simulation where
  calls : List Call
  disk : Disk
  result : Except PipelineError String

/-- The status of a script that fails. -/
def failureStatus : String := "exit status: 1"

/-- Reads and cuts the trace that a simulation left in its workspace. -/
def readTrace (config : Config) (w : Workspace) (d : Disk) : Except PipelineError String :=
  match d.file? (w.file Harness.traceFile) with
  | none => .error (.missingOutput (w.file Harness.traceFile))
  | some source =>
    match Trace.truncateDocument? config.transitions.toNat source with
    | some document => .ok document
    | none => .error .trace

namespace Toolchain

/-- Leaves the trace in the workspace, if there is one and it can be written. -/
def leaveTrace (t : Toolchain) (w : Workspace) (d : Disk) : Disk :=
  match t.trace with
  | none => d
  | some source => (w.write? (Harness.traceFile, source) d).getD d

/-- Compiles the staged files and runs the harness. -/
def run (t : Toolchain) (config : Config) (w : Workspace) (g : Generated) (d : Disk) : Simulation :=
  let compile := Call.compile g.components.keys g.harness.file (d.filesIn w.root)
  let simulate := Call.simulate g.harness.className
  match t.compileFailure with
  | some stderr => ⟨[compile], d, .error (.toolchain "compile.sh" failureStatus stderr)⟩
  | none =>
    match t.simulateFailure with
    | some stderr =>
      ⟨[compile, simulate], d, .error (.toolchain "simulate.sh" failureStatus stderr)⟩
    | none =>
      let left := t.leaveTrace w d
      ⟨[compile, simulate], left, readTrace config w left⟩

/-- Stages the generated files, then compiles them and runs the harness.  The first file that cannot be
written ends the staging. -/
def stageAndRun (t : Toolchain) (config : Config) (w : Workspace) (g : Generated) (d : Disk) :
    Simulation :=
  match w.stage g.files d with
  | (staged, true) => t.run config w g staged
  | (staged, false) => ⟨[], staged, .error .unwritable⟩

end Toolchain

/-! ## Runs -/

/-- How models are run. -/
structure Pipeline where
  config : Config
  /-- The directory below which workspaces are created. -/
  base : String
  toolchain : Option Toolchain
  keepWorkspace : Bool
  deriving Inhabited

/-- What a run did: its result, the calls of the toolchain, the paths left below the base, and the
store after it. -/
structure Outcome where
  result : Except PipelineError Bundle
  calls : List Call
  left : List String
  store : Store

namespace Pipeline

/-- The directory below which workspaces are created unless another is given. -/
def defaultBase : String := "."

/-- Generates sources without compiling them. -/
def ofConfig (config : Config) : Pipeline :=
  ⟨config, defaultBase, none, false⟩

/-- A run that ends before the toolchain is called. -/
def ended (s : Store) (result : Except PipelineError Bundle) : Outcome :=
  ⟨result, [], [], s⟩

/-- Removes the workspace of a run, unless it is to be kept. -/
def cleanUp (p : Pipeline) (w : Workspace) (d : Disk) : Disk :=
  if p.keepWorkspace then d else w.remove d

/-- Writes the trace to the architecture node and adds it to the bundle. -/
def recordTrace (s : Store) (architecture : Path) (b : Bundle) (trace : String) :
    Except PipelineError (Store × Bundle) := do
  let s ← (s.setAttribute architecture Attribute.engineOutput trace).mapError .store
  return (s, b.add Harness.traceFile trace)

/-- Simulates generated files and ends the run.  The workspace is made first; when it cannot be, the
directory above it stays. -/
def simulate (p : Pipeline) (s : Store) (architecture : Path) (w : Workspace) (g : Generated)
    (t : Toolchain) : Outcome :=
  match w.make p.base .empty with
  | (d, false) => ⟨.error .unwritable, [], d.paths, s⟩
  | (d, true) =>
    let sim := t.stageAndRun p.config w g d
    let left := (p.cleanUp w sim.disk).paths
    match sim.result.bind (recordTrace s architecture g.bundle) with
    | .ok (s', b) => ⟨.ok b, sim.calls, left, s'⟩
    | .error e => ⟨.error e, sim.calls, left, s⟩

/-- Takes a model through all gates. -/
def accept (p : Pipeline) (s : Store) (architecture : Path) : Except PipelineError CheckedModel := do
  unless s.contains architecture do
    throw (.unknownArchitecture architecture)
  let m ← p.config.check s
  gate .behavior (checkArchitectureName s architecture)
  return m

/-- Runs a model.  `tag` sets its workspace apart from those of other runs. -/
def run (p : Pipeline) (s : Store) (architecture : Path) (tag : String) : Outcome :=
  match p.accept s architecture with
  | .error e => ended s (.error e)
  | .ok m =>
    let w := Workspace.create p.base (s.nameOf architecture) tag
    let g := Generated.ofModel s p.config architecture m w
    match p.toolchain with
    | none => ended s (.ok g.bundle)
    | some t => p.simulate s architecture w g t

end Pipeline

end Rendezvous
