import KernelControl.Main
import KernelControl.CpuSet.Chain
import KernelControl.FlagSet.Chain
import KernelControl.MemoryLock
import KernelControl.Proofs.AdjustmentCall
import KernelControl.Proofs.AdjustmentRun
import KernelControl.Proofs.TimeArithmetic
import KernelControl.Proofs.TimeExpression
import KernelControl.Proofs.CpuSetChain
import KernelControl.Proofs.Affinity
import KernelControl.Proofs.TimeImage
import KernelControl.Proofs.Operation
import KernelControl.Proofs.Sleep
import KernelControl.Proofs.ReportSections
import KernelControl.Proofs.Attributes
import KernelControl.Proofs.TimeUse
import KernelControl.Proofs.FlagChain
import KernelControl.Proofs.TimeScale
import KernelControl.Proofs.ClockInstant
import KernelControl.Proofs.TimeCanonical
import KernelControl.Proofs.TimeLaws
import KernelControl.Proofs.TimeOrder
import KernelControl.Proofs.CpuSetListing
import KernelControl.Proofs.CpuSetBytes
import KernelControl.Proofs.AffinityReport
import KernelControl.Proofs.ClockReport
import KernelControl.Proofs.CpuSetBitmask
import KernelControl.Proofs.FlagLaws
import KernelControl.Proofs.ArgumentWord
import KernelControl.Proofs.UncheckedArithmetic
import KernelControl.Proofs.Script
