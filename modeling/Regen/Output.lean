/-!
# What crosses the boundary of the engine

Outputs that generators produce, additional inputs that a driver holds beside its snapshot, and
the options that govern which outputs are produced.
-/

namespace Regen

/-- The kind of an output: one that the host's view depends on, or one that only a final build
needs. -/
inductive OutputKind where
  | source
  | implementation
  deriving DecidableEq, Repr, Inhabited

/-- One output of a generator. Within a generator's outputs the hint name is unique. -/
structure GeneratedOutput where
  hintName : String
  text : String
  kind : OutputKind
  deriving DecidableEq, Repr, Inhabited

/-- An input that a driver holds and that is no part of the snapshot. -/
structure AdditionalInput where
  path : String
  text : String
  deriving DecidableEq, Repr, Inhabited

def GeneratedOutput.hinted (hintName : String) (outputs : List GeneratedOutput) : Bool :=
  outputs.any (·.hintName == hintName)

/-- Options of every pass that a driver runs. -/
structure DriverOptions where
  /-- Whether a pass records what it did in each stage. -/
  trackIncrementalSteps : Bool
  /-- The kinds whose registered stages are not evaluated. -/
  disabledOutputs : List OutputKind
  deriving DecidableEq, Repr

namespace DriverOptions

/-- The options of a new driver: no tracking, all kinds enabled. -/
def standard : DriverOptions :=
  ⟨false, []⟩

instance : Inhabited DriverOptions := ⟨standard⟩

def isEnabled (options : DriverOptions) (kind : OutputKind) : Bool :=
  !options.disabledOutputs.contains kind

def withStepTracking (options : DriverOptions) : DriverOptions :=
  { options with trackIncrementalSteps := true }

/-- Produce no more outputs of a kind; a kind is listed once. -/
def disableOutput (options : DriverOptions) (kind : OutputKind) : DriverOptions :=
  if options.isEnabled kind then
    { options with disabledOutputs := options.disabledOutputs ++ [kind] }
  else options

end DriverOptions

end Regen
