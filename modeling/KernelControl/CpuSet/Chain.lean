import KernelControl.CpuSet

/-!
# Chains of updates of a mask

Updates are chained: each works on the mask that the one before left. The first index that names no processor ends the
chain, and the mask stays as the updates before it made it.
-/

namespace KernelControl

namespace CpuSet

/-- One update of a mask. -/
inductive Update where
  | set (index : Nat)
  | clear (index : Nat)
deriving DecidableEq, Repr

namespace Update

/-- The mask after the update. -/
def apply (m : CpuSet) : Update → Except CpuError CpuSet
  | .set index => m.set index
  | .clear index => m.clear index

end Update

/-- What a chain of updates came to. -/
structure ChainOutcome where
  /-- How many updates were executed. -/
  executed : Nat
  /-- The mask they left. -/
  mask : CpuSet
  /-- The error that ended the chain, if one did. -/
  error : Option CpuError
deriving DecidableEq, Repr

/-- The outcome of a chain of updates. -/
def chain (m : CpuSet) : List Update → ChainOutcome
  | [] => ⟨0, m, none⟩
  | update :: rest =>
    match update.apply m with
    | .error e => ⟨0, m, some e⟩
    | .ok next =>
      let outcome := next.chain rest
      { outcome with executed := outcome.executed + 1 }

/-- The mask that holds the processors at the given indices. -/
def ofIndices (indices : List Nat) : Except CpuError CpuSet := indices.foldlM set empty

end CpuSet

end KernelControl
