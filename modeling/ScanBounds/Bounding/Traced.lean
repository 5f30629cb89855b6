/-!
# Computations that leave a trace

A derivation of bounds reports what it does while it runs, and what it has reported stays reported when
it fails later.  A `Traced` computation is therefore a pair of everything reported, in order, and the
result; no report can reach the result.
-/

namespace ScanBounds

/-- A result or a failure of type `ε`, and all that was reported on the way to it. -/
structure Traced (ω ε α : Type) where
  reports : List ω
  result : Except ε α

namespace Traced

variable {ω ε α β : Type}

protected def pure (a : α) : Traced ω ε α := ⟨[], .ok a⟩

/-- Continues with the result; a failure keeps what was reported before it. -/
protected def bind (x : Traced ω ε α) (f : α → Traced ω ε β) : Traced ω ε β :=
  match x.result with
  | .ok a => ⟨x.reports ++ (f a).reports, (f a).result⟩
  | .error e => ⟨x.reports, .error e⟩

instance : Monad (Traced ω ε) where
  pure := Traced.pure
  bind := Traced.bind

def report (w : ω) : Traced ω ε Unit := ⟨[w], .ok ()⟩

def fail (e : ε) : Traced ω ε α := ⟨[], .error e⟩

def ofExcept (x : Except ε α) : Traced ω ε α := ⟨[], x⟩

/-- The result, and what a listener that starts as `s` is after all reports. -/
def hear {σ : Type} (listen : σ → ω → σ) (s : σ) (x : Traced ω ε α) : Except ε α × σ :=
  (x.result, x.reports.foldl listen s)

end Traced

end ScanBounds
