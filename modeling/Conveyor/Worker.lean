import Conveyor.Worker.Floor

/-!
# The worker

A worker takes records from a queue and runs each through all pipelines of its source. The runs of
all records under way share one set of surroundings and take turns. No more records are under way
than the worker may handle at once.
-/

namespace Conveyor.Worker

variable {τ σ : Type}

/-- Run a record through all its pipelines. Nothing comes of it if a run never ends. -/
def handle (ad : Adapter τ σ) (s : Settings) (a : Arena) (r : InboundRecord) (w : World σ) :
    Option (Except Fault (List RunResult) × World σ) := do
  let f ← Floor.run ad s a (Floor.takeOn s a r { scene := { world := w } })
  let h ← f.handled.head?
  pure (h.outcome, f.scene.world)

/-- Take records from a queue for a lifespan, and see those through that are under way when it is
over. The timer starts at zero. Nothing comes of it if it never ends. -/
def start (ad : Adapter τ σ) (s : Settings) (a : Arena) (lifespan : Option Binary64)
    (queue : List InboundRecord) (w : World σ) : Except Fault (Option (Floor τ σ)) :=
  if s.maxConcurrency < 0 then .error .badValue
  else
    .ok (Floor.run ad s a
      { scene := { world := { w with timer := .zero }, turns := [.take] }
        intake := { queue, lifespan, isOpen := true } })

end Conveyor.Worker
