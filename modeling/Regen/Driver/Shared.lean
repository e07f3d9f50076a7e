import Regen.Driver.Edits
import Regen.Driver.FullPass

/-!
# A published driver

Hosts that share one driver publish it. Operations run one at a time on the published driver and
publish their result: a full pass only when it succeeds, an application of edits in any case, a
change always. An operation from which a panic escapes publishes nothing.
-/

namespace Regen

/-- The driver that is published at present, and the session of all operations. -/
structure Published (S σ : Type) where
  current : Driver S σ
  session : Session σ

namespace Published

variable {S σ α : Type}

def onSession (act : Act (Session σ) α) : Act (Published S σ) α :=
  act.within session fun session published => { published with session }

def publish (driver : Driver S σ) : Act (Published S σ) Unit :=
  modify fun published => { published with current := driver }

def fullPass (snapshot : Snapshot S) : Act (Published S σ) (Snapshot S) := do
  let driver ← onSession ((← get).current.fullPass snapshot)
  publish driver
  return driver.assembled.getD snapshot

/-- Apply the queued edits and return what was assembled, or the reason why nothing was. -/
def tryApplyEdits (snapshot : Snapshot S) :
    Act (Published S σ) (Except EngineError (Snapshot S)) := do
  let application ← onSession ((← get).current.tryApplyEdits snapshot)
  publish application.driver
  return application.outcome

/-- Replace the driver by what a change makes of it. The change runs in the session, and may stop. -/
def updateBy (change : Driver S σ → Act (Session σ) (Driver S σ)) : Act (Published S σ) Unit := do
  let driver ← onSession (change (← get).current)
  publish driver

def update (change : Driver S σ → Driver S σ) : Act (Published S σ) Unit :=
  updateBy fun driver => return change driver

end Published

end Regen
