import CollisionMesh.Conversion
import CollisionMesh.FileSystem.Scan

/-!
# Batches

Many conversions, each for itself: a failing one does not stop the others, and every input
gets an outcome of its own, in the order of the inputs. Inputs that would be written to the
same output are all refused.
-/

namespace CollisionMesh

set_option autoImplicit false

structure Job where
  input : Path
  output : Path
  options : Options
  /-- Why the job is not to be done at all, if so. -/
  refusal : Option Failure := none
  deriving DecidableEq, Repr

def Job.run (job : Job) (fs : FileSystem) : Except Failure Artifact × FileSystem :=
  match job.refusal with
  | some failure => (.error failure, fs)
  | none => fs.convertTo job.options job.input job.output

/-- Does jobs one after the other; the outcomes are in the order of the jobs. -/
def runJobs (fs : FileSystem) : List Job → List (Except Failure Artifact) × FileSystem
  | [] => ([], fs)
  | job :: jobs =>
    let (outcome, fs) := job.run fs
    let (outcomes, fs) := runJobs fs jobs
    (outcome :: outcomes, fs)

structure BatchEntry where
  input : Path
  outcome : Except Failure Artifact

namespace Batch

def owners (options : Options) (inputs : List Path) (output : Path) : List Path :=
  inputs.filter fun input => (options.outputFor input).same output

/-- The refusal of an input whose output others would be written to as well;
it names those others. -/
def refusal? (options : Options) (inputs : List Path) (input : Path) : Option Failure :=
  let output := options.outputFor input
  let owners := owners options inputs output
  if 1 < owners.length then
    some (.invalidOptions
      (.outputShared input (owners.filter fun owner => !owner.same input) output))
  else none

def jobs (options : Options) (inputs : List Path) : List Job :=
  inputs.map fun input =>
    ⟨input, options.outputFor input, options, refusal? options inputs input⟩

def run (fs : FileSystem) (options : Options) (inputs : List Path) :
    List BatchEntry × FileSystem :=
  let (outcomes, fs) := runJobs fs (jobs options inputs)
  ((inputs.zip outcomes).map fun entry => ⟨entry.1, entry.2⟩, fs)

end Batch

namespace BatchEntry

def artifacts (entries : List BatchEntry) : List Artifact :=
  entries.filterMap fun entry => entry.outcome.toOption

def failureCount (entries : List BatchEntry) : Nat :=
  entries.countP fun entry => !entry.outcome.isOk

end BatchEntry

@[simp] theorem length_runJobs (fs : FileSystem) (jobs : List Job) :
    (runJobs fs jobs).1.length = jobs.length := by
  induction jobs generalizing fs with
  | nil => rfl
  | cons job jobs ih => simp [runJobs, ih]

end CollisionMesh
