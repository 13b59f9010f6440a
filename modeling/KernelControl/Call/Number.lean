/-!
# The numbers of the system calls

The kernel knows each call by a number. These are the numbers on 64-bit x86 processors.
-/

namespace KernelControl

namespace CallNumber

def schedYield : Int64 := 24
def schedGetPriorityMax : Int64 := 146
def schedGetPriorityMin : Int64 := 147
def mlock : Int64 := 149
def munlock : Int64 := 150
def mlockall : Int64 := 151
def munlockall : Int64 := 152
def schedSetaffinity : Int64 := 203
def schedGetaffinity : Int64 := 204
def clockSettime : Int64 := 227
def clockGettime : Int64 := 228
def clockNanosleep : Int64 := 230
def clockAdjtime : Int64 := 305
def schedSetattr : Int64 := 314
def schedGetattr : Int64 := 315
def mlock2 : Int64 := 325

end CallNumber

end KernelControl
